import PortableRuntime.Core.Invocation
import PortableRuntime.Python.Equality
import PortableRuntime.Stores.LeaseExclusion

/-!
# What becomes of a worker's lease claim

The fencing gate compares the lease that a request presents with the stored run.  The factory
reads the same run and writes its lease into the request.
-/

namespace PortableRuntime

/-- The run is leased to the owner, under the generation. -/
def Leased (run : Run) (owner : String) (generation : Int) : Prop :=
  run.leaseOwner = some owner ∧ run.leaseGeneration = generation

instance (run : Run) (owner : String) (generation : Int) : Decidable (Leased run owner generation) :=
  inferInstanceAs (Decidable (_ ∧ _))

/-- How a worker comes by the request that it hands over. -/
inductive Preparation where
  | built (args : BuildArguments)
  | normalized (request : InvocationRequest) (contract : Option CapabilityContract)

namespace Preparation

def request (f : InvocationFactory) (digest : Json → String) : Preparation → Result InvocationRequest
  | .built args => f.build digest args
  | .normalized request contract => f.normalize request contract

/-- The worker names the run, itself as the owner of the lease, and its generation. -/
def Claims (runId owner : String) (generation : Int) : Preparation → Prop
  | .built args => args.runId = some runId ∧ args.leaseOwner = some owner ∧
      args.leaseGeneration = some generation
  | .normalized request _ => request.runId = some runId ∧ request.leaseOwner = some owner ∧
      request.leaseGeneration = generation

/-- The run that the factory reads, if it has a store.  Normalizing passes over a run without a
name. -/
def readRun (f : InvocationFactory) (stored : String → Option Run) (p : Preparation) : Option Run :=
  if f.store.isNone then none
  else match p with
    | .built args => args.runId.bind stored
    | .normalized request _ => (given request.runId).bind stored

/-- The owner that is presented for a run that names none. -/
def fallbackOwner (owner : String) : Preparation → Option String
  | .built _ => some owner
  | .normalized request _ => (request.metadata.get "lease_owner").asStr?

/-- The owner and the generation that the request presents, after the run that was read. -/
def presents (p : Preparation) (read : Option Run) (owner : String) (generation : Int) :
    Option String × Int :=
  match read with
  | some run => (run.leaseOwner <|> p.fallbackOwner owner, run.leaseGeneration)
  | none => (some owner, generation)

end Preparation

/-- The gate tells the lease of the run from the one presented: there is a lease, and the two
differ or it has expired. -/
def Fences (run : Run) (presented : Option String × Int) (now : Time) : Prop :=
  (truthy run.leaseOwner = true ∨ run.leaseGeneration ≠ 0) ∧
    (presented.2 ≠ run.leaseGeneration ∨
      (truthy run.leaseOwner = true ∧ presented.1 ≠ run.leaseOwner) ∨
      ∃ expiry, run.leaseExpiresAt = some expiry ∧ expiry ≤ now)

/-- The run that was read was leased to the worker or to nobody; and the run as it is now is
leased to the worker, or the gate tells its lease from the one presented. -/
def ClaimSurvives (p : Preparation) (read current : Option Run) (owner : String)
    (generation : Int) (now : Time) : Prop :=
  (∀ run, read = some run → run.leaseOwner = none ∨ Leased run owner generation) ∧
  ∀ run, current = some run →
    Leased run owner generation ∨ Fences run (p.presents read owner generation) now

/-- The fencing gate of every boundary refuses the request. -/
def FencedOut (current : Option Run) (now : Time) (request : InvocationRequest) : Prop :=
  ∀ (σ : Type) (b : RealityBoundary σ),
    ∃ refusal, b.fencing (.ok current) now request.toCapabilityRequest = .error refusal

/-- Whatever the other gates say, no provider is invoked and no success returned. -/
def Rejected (current : Option Run) (now : Time) (request : InvocationRequest) : Prop :=
  ∀ (σ ρ π : Type) (b : RealityBoundary σ) (r : Answers σ ρ π),
    r.getRun = .ok current → r.fencedAt = now →
      (b.execute r request).invocations = [] ∧ (b.execute r request).returned ≠ some .succeeded

/-- The worker's claim is not replaced by that of another holder. -/
def KeepsClaim (read : Option Run) (request : InvocationRequest) (owner : String)
    (generation : Int) : Prop :=
  ∀ run holder, read = some run → run.leaseOwner = some holder → ¬ Leased run owner generation →
    (request.leaseOwner, request.leaseGeneration) ≠ (some holder, run.leaseGeneration)

/-! ## The fencing gate -/

section
variable {current : Option Run} {now : Time} {request : InvocationRequest} {runId : String}

/-- A boundary with a store accepts what `validate_fencing` accepts. -/
theorem fencing_eq_ok {σ : Type} {b : RealityBoundary σ} (hstore : b.hasStore = true)
    (hrun : request.runId = some runId) :
    b.fencing (.ok current) now request.toCapabilityRequest = .ok () ↔
      ∃ run, current = some run ∧
        (validateFencing request.toCapabilityRequest (some run) now).1 = true := by
  unfold RealityBoundary.fencing
  simp only [hrun, hstore, Bool.not_true, Bool.false_eq_true, if_false]
  cases current with
  | none => simp
  | some run =>
    cases hverdict : validateFencing request.toCapabilityRequest (some run) now with
    | mk accepted reason => cases accepted <;> simp [hverdict]

theorem fencedOut_iff (hrun : request.runId = some runId) :
    FencedOut current now request ↔ ∀ run, current = some run →
      (validateFencing request.toCapabilityRequest (some run) now).1 = false := by
  constructor
  · intro h run hcurrent
    obtain ⟨refusal, hrefused⟩ := h MemoryStore RealityBoundary.observing
    by_contra haccepted
    rw [Bool.not_eq_false] at haccepted
    have hok := (fencing_eq_ok (b := RealityBoundary.observing) rfl hrun).mpr
      ⟨run, hcurrent, haccepted⟩
    rw [hok] at hrefused
    cases hrefused
  · intro h σ b
    cases hfencing : b.fencing (.ok current) now request.toCapabilityRequest with
    | error refusal => exact ⟨refusal, rfl⟩
    | ok _ =>
      exfalso
      cases hstore : b.hasStore with
      | false => simp [RealityBoundary.fencing, hrun, hstore] at hfencing
      | true =>
        obtain ⟨run, hcurrent, haccepted⟩ := (fencing_eq_ok hstore hrun).mp hfencing
        rw [h run hcurrent] at haccepted
        cases haccepted

/-- The classification leaves the lease facts of a request alone. -/
theorem validateFencing_classified (c : EffectAuthority.Classification) (run : Option Run) :
    validateFencing (RealityBoundary.classifiedRequest request c).toCapabilityRequest run now =
      validateFencing request.toCapabilityRequest run now := by
  have hmetadata : (RealityBoundary.classifiedRequest request c).metadata.get "lease_owner" =
      request.metadata.get "lease_owner" := by
    simp only [RealityBoundary.classifiedRequest, Fields.get]
    split
    · rw [Fields.get?_put_of_ne _ _ (by decide)]
    · rw [Fields.get?_put_of_ne _ _ (by decide), Fields.get?_put_of_ne _ _ (by decide)]
  have howner : extractLeaseOwner (RealityBoundary.classifiedRequest request c).toCapabilityRequest =
      extractLeaseOwner request.toCapabilityRequest := by
    unfold extractLeaseOwner
    rw [hmetadata]
    rfl
  unfold validateFencing
  rw [howner]
  rfl

/-- A refusal of the fencing gate ends the execution before its provider. -/
theorem rejected_of_fencedOut (hrun : request.runId = some runId)
    (h : FencedOut current now request) : Rejected current now request := by
  intro σ ρ π b r hread htime
  rcases RealityBoundary.execute_cases (b := b) (r := r) request with
    ⟨a, records, st, provider, decision, hgates, -⟩ | hrejected
  · exfalso
    have hgated := RealityBoundary.gates_eq_ok hgates
    have hnamed : (RealityBoundary.classifiedRequest request a.classification).runId =
        some runId := hrun
    obtain ⟨refusal, hrefused⟩ := h σ b
    have hpassed := hgated.fencing
    rw [hread, htime, hgated.classified] at hpassed
    cases hstore : b.hasStore with
    | false => simp [RealityBoundary.fencing, hnamed, hstore] at hpassed
    | true =>
      obtain ⟨run, hcurrent, haccepted⟩ := (fencing_eq_ok hstore hnamed).mp hpassed
      rw [validateFencing_classified] at haccepted
      rw [(fencing_eq_ok hstore hrun).mpr ⟨run, hcurrent, haccepted⟩] at hrefused
      cases hrefused
  · exact hrejected

/-- What the gate refuses of a request, in terms of the lease that it presents. -/
theorem validateFencing_eq_false {run : Run} (hrun : request.runId = some runId) :
    (validateFencing request.toCapabilityRequest (some run) now).1 = false ↔
      Fences run (extractLeaseOwner request.toCapabilityRequest, request.leaseGeneration) now := by
  rw [← Bool.not_eq_true, validateFencing_eq_true hrun, Fences, not_or, not_and_or, not_and_or,
    not_and_or, Bool.not_eq_false, Classical.not_imp]
  simp only [not_forall, not_lt, exists_prop, ne_eq]

end

/-! ## What the factory writes -/

namespace InvocationFactory

variable {f : InvocationFactory} {digest : Json → String}

/-- The factory has no store, or reads the runs of one. -/
def Reads (f : InvocationFactory) (stored : String → Option Run) : Prop :=
  ∀ getRun, f.store = some getRun → getRun = fun id => .ok (stored id)

theorem Reads.freshRun {stored : String → Option Run} (hstore : f.Reads stored)
    (runId : Option String) :
    f.freshRun runId = .ok (if f.store.isNone then none else runId.bind stored) := by
  cases runId with
  | none => simp [InvocationFactory.freshRun]
  | some runId =>
    cases hsome : f.store with
    | none => simp [InvocationFactory.freshRun, hsome]
    | some getRun => simp [InvocationFactory.freshRun, hsome, hstore getRun hsome]

theorem normalizeEffect_eq_ok {request normalized : InvocationRequest}
    {contract : Option CapabilityContract}
    (h : normalizeEffect request contract = .ok normalized) :
    normalized.runId = request.runId ∧ normalized.leaseOwner = request.leaseOwner ∧
      normalized.leaseGeneration = request.leaseGeneration ∧
      normalized.metadata.get "lease_owner" = request.metadata.get "lease_owner" := by
  unfold normalizeEffect at h
  cases contract with
  | none =>
    obtain rfl := Except.ok.inj h
    exact ⟨rfl, rfl, rfl, rfl⟩
  | some contract =>
    obtain ⟨known, -, h⟩ := Result.bind_eq_ok.mp h
    dsimp only at h
    split at h
    · obtain rfl := Result.pure_eq_ok.mp h
      refine ⟨rfl, rfl, rfl, ?_⟩
      unfold Fields.get
      rw [Fields.get?_put_of_ne _ _ (by decide)]
    · obtain rfl := Result.pure_eq_ok.mp h
      exact ⟨rfl, rfl, rfl, rfl⟩

/-- A normalized request carries the lease of the stored run where there is one. -/
theorem normalizeLease_eq_ok {stored : String → Option Run} (hstore : f.Reads stored)
    {request normalized : InvocationRequest} (h : f.normalizeLease request = .ok normalized) :
    normalized = match if f.store.isNone then none else (given request.runId).bind stored with
      | none => request
      | some run =>
        { request with leaseGeneration := run.leaseGeneration, leaseOwner := run.leaseOwner } := by
  unfold normalizeLease at h
  cases hgiven : given request.runId with
  | none =>
    rw [hgiven] at h
    simp only [Option.bind_none, ite_self]
    exact (Except.ok.inj h).symm
  | some runId =>
    simp only [hgiven, hstore.freshRun, Option.bind_some] at h ⊢
    cases hrun : if f.store.isNone then none else stored runId with
    | none =>
      simp only [hrun] at h
      exact (Except.ok.inj h).symm
    | some run =>
      simp only [hrun] at h
      exact (Except.ok.inj h).symm

end InvocationFactory

namespace Preparation

variable {f : InvocationFactory} {digest : Json → String} {p : Preparation}
  {stored : String → Option Run} {runId owner : String} {generation : Int}
  {request : InvocationRequest}

/-- The lease that the prepared request presents; a holder that was read is among it. -/
theorem presents_of_request (hstore : f.Reads stored)
    (hclaims : p.Claims runId owner generation) (h : p.request f digest = .ok request) :
    request.runId = some runId ∧
      (extractLeaseOwner request.toCapabilityRequest, request.leaseGeneration) =
        p.presents (p.readRun f stored) owner generation ∧
      ∀ run holder, p.readRun f stored = some run → run.leaseOwner = some holder →
        (request.leaseOwner, request.leaseGeneration) = (some holder, run.leaseGeneration) := by
  cases p with
  | built args =>
    obtain ⟨hrun, howner, hgeneration⟩ := hclaims
    obtain ⟨fresh, hfresh, hlease⟩ := InvocationFactory.lease_of_build h
    have hnamed := (InvocationFactory.identity_of_build h).runId
    rw [hstore.freshRun] at hfresh
    obtain rfl := Except.ok.inj hfresh
    rw [howner, hgeneration] at hlease
    refine ⟨hnamed.trans hrun, ?_, ?_⟩
    · simp only [readRun]
      cases hread : if f.store.isNone then none else args.runId.bind stored with
      | none =>
        rw [hread] at hlease
        obtain ⟨hpresented, hnumber⟩ := Prod.mk.inj hlease
        simp only [presents, extractLeaseOwner, hpresented, hnumber, Option.getD_some]
      | some run =>
        rw [hread] at hlease
        obtain ⟨hpresented, hnumber⟩ := Prod.mk.inj hlease
        cases hholder : run.leaseOwner with
        | none =>
          rw [hholder] at hpresented
          simp [presents, extractLeaseOwner, hpresented, hnumber, fallbackOwner, hholder]
        | some holder =>
          rw [hholder] at hpresented
          simp [presents, extractLeaseOwner, hpresented, hnumber, hholder]
    · intro run holder hread hholder
      have hread' : (if f.store.isNone then none else args.runId.bind stored) = some run := hread
      rw [hlease, hread', InvocationFactory.presentedLease, hholder]
      rfl
  | normalized original contract =>
    obtain ⟨hrun, howner, hgeneration⟩ := hclaims
    obtain ⟨classified, heffect, hlease⟩ := Result.bind_eq_ok.mp h
    obtain ⟨hrun', howner', hgeneration', hmetadata⟩ := InvocationFactory.normalizeEffect_eq_ok heffect
    have hnormalized := InvocationFactory.normalizeLease_eq_ok hstore hlease
    rw [hrun'] at hnormalized
    refine ⟨?_, ?_, ?_⟩
    · rw [hnormalized]
      split
      · exact hrun'.trans hrun
      · exact hrun
    · simp only [readRun]
      cases hread : if f.store.isNone then none else (given original.runId).bind stored with
      | none =>
        rw [hread] at hnormalized
        subst hnormalized
        simp only [presents, extractLeaseOwner, howner', howner, hgeneration', hgeneration]
      | some run =>
        rw [hread] at hnormalized
        subst hnormalized
        cases hholder : run.leaseOwner with
        | none =>
          simp only [presents, extractLeaseOwner, hholder, hmetadata, fallbackOwner]
          cases original.metadata.get "lease_owner" <;> rfl
        | some holder => simp [presents, extractLeaseOwner, hholder]
    · intro run holder hread hholder
      have hread' : (if f.store.isNone then none else (given original.runId).bind stored) = some run :=
        hread
      rw [hnormalized, hread', ← hholder]

end Preparation

/-- For every store and every history of it between the preparation of a request and its
execution: the gate refuses a worker that does not hold the lease, and preparing the request
has not replaced its claim by the holder's, exactly when the claim survives.  What the gate
refuses, `execute` rejects. -/
theorem lease_claim_survives_iff {σ ι : Type} (getRun : σ → String → Option Run)
    (step : σ → ι → σ) (start : σ) (history : List ι) (f : InvocationFactory)
    (hstore : f.Reads (getRun start)) (digest : Json → String) (p : Preparation)
    (runId owner : String) (generation : Int) (hclaims : p.Claims runId owner generation)
    (request : InvocationRequest) (hrequest : p.request f digest = .ok request) (now : Time) :
    let read := p.readRun f (getRun start)
    let current := getRun (run step start history) runId
    (((¬ ∃ run, current = some run ∧ Leased run owner generation) →
          FencedOut current now request) ∧
        KeepsClaim read request owner generation ↔
      ClaimSurvives p read current owner generation now) ∧
    (FencedOut current now request → Rejected current now request) := by
  intro read current
  obtain ⟨hrun, hpresents, hreplaced⟩ := p.presents_of_request hstore hclaims hrequest
  refine ⟨?_, rejected_of_fencedOut hrun⟩
  have hkeeps : KeepsClaim read request owner generation ↔
      ∀ run, read = some run → run.leaseOwner = none ∨ Leased run owner generation := by
    constructor
    · intro h run hread
      cases hholder : run.leaseOwner with
      | none => exact .inl rfl
      | some holder =>
        by_contra hneither
        have hother : ¬ Leased run owner generation := fun hleased => hneither (.inr hleased)
        exact h run holder hread hholder hother (hreplaced run holder hread hholder)
    · intro h run holder hread hholder hother
      rcases h run hread with hnobody | hleased
      · rw [hholder] at hnobody
        cases hnobody
      · exact absurd hleased hother
  have hfenced : FencedOut current now request ↔
      ∀ run, current = some run → Fences run (p.presents read owner generation) now := by
    rw [fencedOut_iff hrun]
    refine forall₂_congr (fun run _ => ?_)
    rw [validateFencing_eq_false hrun, hpresents]
  rw [hkeeps, hfenced, ClaimSurvives, and_comm]
  refine and_congr_right (fun _ => ?_)
  constructor
  · intro h run hcurrent
    by_cases hleased : Leased run owner generation
    · exact .inl hleased
    · refine .inr (h ?_ run hcurrent)
      rintro ⟨run', hcurrent', hleased'⟩
      rw [hcurrent] at hcurrent'
      exact hleased (Option.some.inj hcurrent' ▸ hleased')
  · intro h hnot run hcurrent
    exact (h run hcurrent).resolve_left (fun hleased => hnot ⟨run, hcurrent, hleased⟩)

/-! ## A worker that has lost its lease -/

/-- The table after some of the calls by which the lease goes from one worker to another. -/
def leaseTable (n : Nat) : SqliteStore :=
  run (SqliteStore.leaseStep (fun _ => "")) unleasedTable (handover.take n)

def leaseFactory (n : Nat) : InvocationFactory where
  store := some (fun id => .ok ((leaseTable n).getRun id))
  contractRegistry := {}

/-- The first worker builds a request under its lease. -/
def firstWorker : BuildArguments where
  capability := "observe.logs"
  runId := some "run_1"
  leaseOwner := some "worker_a"
  leaseGeneration := some 1

/-- A request that is built while the lease is held is fenced off once it is taken over. -/
theorem lease_claim_survives_handover :
    ∃ request, (leaseFactory 1).build (fun _ => "") firstWorker = .ok request ∧
      FencedOut ((leaseTable 3).getRun "run_1") 5 request := by
  obtain ⟨request, hrequest⟩ := Result.exists_of_isOk
    (x := (leaseFactory 1).build (fun _ => "") firstWorker) (by decide)
  refine ⟨request, hrequest, ?_⟩
  have hsurvives := lease_claim_survives_iff SqliteStore.getRun
    (SqliteStore.leaseStep (fun _ => "")) (leaseTable 1) (handover.drop 1) (leaseFactory 1)
    (fun getRun h => (Option.some.inj h).symm)
    (fun _ => "") (.built firstWorker) "run_1" "worker_a" 1 ⟨rfl, rfl, rfl⟩ request hrequest 5
  refine (hsurvives.1.mpr ⟨?_, ?_⟩).1 ?_
  · intro run hread
    refine .inr ?_
    obtain rfl := Option.some.inj hread
    decide
  · intro run hcurrent
    refine .inr ⟨.inl ?_, .inl ?_⟩ <;> obtain rfl := Option.some.inj hcurrent
    · decide
    · decide
  · rintro ⟨run, hcurrent, hleased⟩
    obtain rfl := Option.some.inj hcurrent
    revert hleased
    decide

/-- The first worker builds its request after the lease was taken over. -/
def launderedRequest : InvocationRequest :=
  ((leaseFactory 3).build (fun _ => "") firstWorker).toOption.getD default

/-- The request of a worker that has lost its lease comes to the provider. -/
theorem stale_claim_laundered :
    ¬ ∀ (digest : Json → String) (start : SqliteStore) (calls : List (Clock × LeaseCall))
      (f : InvocationFactory) (p : Preparation) (runId owner : String) (generation : Int)
      (request : InvocationRequest) (now : Time),
      f.Reads start.getRun → p.Claims runId owner generation →
      p.request f digest = .ok request →
      (¬ ∃ lease, (run (SqliteStore.leaseStep digest) start calls).getRun runId = some lease ∧
        Leased lease owner generation) →
      Rejected ((run (SqliteStore.leaseStep digest) start calls).getRun runId) now request := by
  intro h
  have hrejected := h (fun _ => "") (leaseTable 3) [] (leaseFactory 3) (.built firstWorker) "run_1"
    "worker_a" 1 launderedRequest 5 (fun getRun h => (Option.some.inj h).symm) ⟨rfl, rfl, rfl⟩ rfl (by
      rintro ⟨lease, hcurrent, hleased⟩
      obtain rfl := Option.some.inj hcurrent
      revert hleased
      decide)
  have hnone := (hrejected MemoryStore Unit Unit RealityBoundary.observing
    { RealityBoundary.agreeing with getRun := .ok ((leaseTable 3).getRun "run_1"), fencedAt := 5 }
    rfl rfl).1
  revert hnone
  decide

end PortableRuntime
