import PortableRuntime.Core.Execute
import PortableRuntime.Workflows.ProcedureReads

/-!
# The refreshes of the assessment

`execute` resolves the qualification facts once, judges the request by them, and resolves
them again before the reality exit.  Other clients write to the store at the awaits between.
The digest that is compared covers the references and what they resolve to.  The gates also
read the Work, the Run, the grants that the store lists and the clock.
-/

namespace PortableRuntime

/-- What the digest of an assessment is taken over. -/
structure ResolvedFacts (ρ : Type) where
  refs : List Json := []
  proofs : QualificationProofs := {}
  otherProofs : ρ

/-- The reads of the store that an assessment and its gates make.  Whatever way references
are resolved and digested, and whatever proofs the procedure is given of what they resolve to. -/
structure Qualification (σ ρ : Type) where
  getWork : σ → String → Result (Option Work)
  getRun : σ → String → Result (Option Run)
  listAuthorizations : σ → Result (List AuthorizationGrant)
  resolveRefs : σ → Option Work → Option Run → InvocationRequest → Time → Result (ResolvedFacts ρ)
  digest : ResolvedFacts ρ → String
  procedureProofs : QualificationProofs → ρ → Procedure.Proofs

/-- The store and the clock at one reading. -/
structure Reading (σ : Type) where
  store : σ
  now : Time

/-- The readings of one execution.  Between two of them the execution awaits the policy
engine, then the health of the providers and the router, or writes its own records.  Other
clients may have written anything meanwhile, so that the stores need have nothing in common. -/
structure Readings (σ : Type) where
  /-- `AssessmentContext.resolve`, before the policy engine. -/
  resolved : Reading σ
  /-- The authorization check and the procedure gate. -/
  judged : σ
  /-- `refresh_matches` after routing. -/
  refreshed : Reading σ
  /-- `refresh_matches` before the reality exit. -/
  last : Reading σ

namespace Qualification

open RealityBoundary EffectAuthority

variable {σ ρ π : Type} (q : Qualification σ ρ)

def work (st : σ) (request : InvocationRequest) : Result (Option Work) :=
  (given request.workId).elim (.ok none) (q.getWork st)

def run (st : σ) (request : InvocationRequest) : Result (Option Run) :=
  (given request.runId).elim (.ok none) (q.getRun st)

/-- What `AssessmentContext.resolve` reads. -/
def read (reading : Reading σ) (request : InvocationRequest) :
    Result (Option Work × Option Run × ResolvedFacts ρ) := do
  let work ← q.work reading.store request
  let run ← q.run reading.store request
  let facts ← q.resolveRefs reading.store work run request reading.now
  return (work, run, facts)

/-- `AssessmentContext.resolve`: Work and Run are kept beside the digest, not under it. -/
def resolve (reading : Reading σ) (request : InvocationRequest) : Result (Assessment ρ) :=
  (q.read reading request).map (fun (work, run, facts) =>
    { work, run, proofs := facts.proofs, otherProofs := facts.otherProofs,
      digest := q.digest facts })

/-- `AssessmentContext.refresh_matches`. -/
def refreshMatches (first : Assessment ρ) (reading : Reading σ) (request : InvocationRequest) :
    Result Bool :=
  (q.resolve reading request).map (fun fresh => fresh.digest = first.digest)

def grantListing (st : σ) : GrantListing :=
  (q.listAuthorizations st).mapError (fun e => s!"authorization store failure: {e.message}")

/-- The call of `check_procedure`, without waivers and hand-offs. -/
def procedureCall (input : ProcedureInput ρ) : Procedure.ProcedureCall where
  work := .work input.work
  run := .run input.run
  profile := input.profile.text
  proofs := q.procedureProofs input.proofs input.otherProofs
  namedProofs := input.grants.elim .empty
    (fun grants => Dict.ofPairs [("grants", .items (grants.map .grant))])
  now := input.now
  clock := input.now

def checkProcedure (input : ProcedureInput ρ) : Result ProcedureStatuses :=
  (Procedure.checkProcedure (q.procedureCall input)).map (fun out =>
    .statuses (out.map (fun s => (s.obligation.text, s.status.text))))

/-- The gates' own reads of the store. -/
def judging (r : Answers σ ρ π) (st : σ) : Answers σ ρ π :=
  { r with
    policyListing := q.grantListing st
    authorizationListing := q.grantListing st
    procedureListing := (q.listAuthorizations st).map some
    checkProcedure := q.checkProcedure }

/-- The answers of an execution whose store reads are these, for the request as its gates see
it. -/
def answers (r : Answers σ ρ π) (i : Readings σ) (seen : InvocationRequest) : Answers σ ρ π :=
  let first := q.resolve i.resolved seen
  { q.judging r i.judged with
    assessment := first
    refreshed := first.bind (fun a => q.refreshMatches a i.refreshed seen)
    stored := i.refreshed.store
    finallyRefreshed := first.bind (fun a => q.refreshMatches a i.last seen) }

/-- The two gates as they would be evaluated at one reading. -/
def reevaluating (r : Answers σ ρ π) (reading : Reading σ) : Answers σ ρ π :=
  { q.judging r reading.store with authorizedAt := reading.now, procedureAt := reading.now }

/-- Authorization check and procedure gate, evaluated anew on a store, let the request pass. -/
structure StillPasses (b : RealityBoundary σ) (r : Answers σ ρ π) (c : Classification)
    (seen : InvocationRequest) (reading : Reading σ) (fresh : Assessment ρ) : Prop where
  resolved : q.resolve reading seen = .ok fresh
  authorization : (b.authorization (q.reevaluating r reading) seen c.contract (some fresh)).1 = true
  procedure : procedureApplies seen c.effective = true → ∃ reason,
    b.procedure (q.reevaluating r reading) seen c.contract (some fresh) = .ok (false, reason)

/-- Both gates have let the request pass by the first assessment, and the last refresh has
matched. -/
structure Passed (b : RealityBoundary σ) (r : Answers σ ρ π) (c : Classification)
    (seen : InvocationRequest) (i : Readings σ) (first : Assessment ρ) : Prop where
  authorization : (b.authorization (q.judging r i.judged) seen c.contract (some first)).1 = true
  procedure : procedureApplies seen c.effective = true → ∃ reason,
    b.procedure (q.judging r i.judged) seen c.contract (some first) = .ok (false, reason)
  unchanged : q.refreshMatches first i.last seen = .ok true

/-- The grants under the digest, or else those that the store lists. -/
def readGrants (first : Assessment ρ) (st : σ) : Result (List AuthorizationGrant) :=
  (snapshotGrants (some first.proofs)).elim (q.listAuthorizations st) .ok

/-- What the procedure gate hands to the procedure. -/
structure Asks (b : RealityBoundary σ) (contract : CapabilityContract) (seen : InvocationRequest)
    (first : Assessment ρ) (reading : Reading σ) (input : ProcedureInput ρ) : Prop where
  work : first.work = some input.work
  run : first.run = some input.run
  profile : effectiveProcedureProfile (b.contractProfile seen contract)
    [input.work.metadata.get "procedure_profile", input.run.metadata.get "procedure_profile",
     seen.metadata.get "procedure_profile"] = .ok input.profile
  proofs : input.proofs = first.proofs
  otherProofs : input.otherProofs = first.otherProofs
  grants : ∃ grants, q.readGrants first reading.store = .ok grants ∧ input.grants = some grants
  now : input.now = reading.now

def Reads (first : Assessment ρ) (st : σ) (grant : AuthorizationGrant) : Prop :=
  ∃ grants, q.readGrants first st = .ok grants ∧ grant ∈ grants

/-- The grant is still read, as it was, and the clock stands within its window. -/
def StillInForce (first : Assessment ρ) (reading : Reading σ) (grant : AuthorizationGrant) :
    Prop :=
  q.Reads first reading.store grant ∧ outsideWindow grant reading.now = false

/-- The facts that the gates read beside the digest are at the last refresh what they were when
the gates let the request pass. -/
structure FactsKept (b : RealityBoundary σ) (r : Answers σ ρ π) (c : Classification)
    (seen : InvocationRequest) (i : Readings σ) (first : Assessment ρ) : Prop where
  /-- The grants can be read. -/
  listing : ∃ grants, q.readGrants first i.last.store = .ok grants
  /-- One of the grants that covered the action is in force. -/
  authorized : authorizationLevel c.contract
      (b.authority.effectRegistry.resolve seen.capability) = .required →
    ∃ actor grant, seen.extractActor = some actor ∧ q.Reads first i.judged grant ∧
      grant.granteeRef = actor ∧
      isAuthorizedFor (b.authority.canonicalAction seen c.contract actor) grant r.authorizedAt =
        true ∧
      q.StillInForce first i.last grant
  /-- The Work has the metadata, the kind, the inputs and the artifacts of the first reading. -/
  work : procedureApplies seen c.effective = true → ∀ work, first.work = some work →
    ∃ work', q.work i.last.store seen = .ok (some work') ∧ work'.metadata = work.metadata ∧
      work'.kind = work.kind ∧ work'.inputs = work.inputs ∧ work'.artifactRefs = work.artifactRefs
  /-- The Run has the metadata and the status of the first reading. -/
  run : procedureApplies seen c.effective = true → ∀ run, first.run = some run →
    ∃ run', q.run i.last.store seen = .ok (some run') ∧ run'.metadata = run.metadata ∧
      run'.status = run.status
  /-- Where the profile asks for an authorization, one of the valid grants, with the id that the
  metadata hint at, is in force. -/
  granted : procedureApplies seen c.effective = true → ∀ work run profile,
    first.work = some work → first.run = some run →
    effectiveProcedureProfile (b.contractProfile seen c.contract)
      [work.metadata.get "procedure_profile", run.metadata.get "procedure_profile",
       seen.metadata.get "procedure_profile"] = .ok profile → profile ≠ .minimal →
    ∃ grant, q.Reads first i.judged grant ∧ validateGrant grant r.procedureAt = [] ∧
      Procedure.hintMet (Procedure.combinedMeta (.work work) (.run run)) [grant] = true ∧
      q.StillInForce first i.last grant

/-- No two of the facts that one execution resolves share a digest. -/
def DigestTells (i : Readings σ) (seen : InvocationRequest) : Prop :=
  ∀ first last, q.read i.resolved seen = .ok first → q.read i.last seen = .ok last →
    q.digest first.2.2 = q.digest last.2.2 → first.2.2 = last.2.2

variable {q} {b : RealityBoundary σ} {r : Answers σ ρ π} {i : Readings σ} {c : Classification}
  {request seen : InvocationRequest}

/-! ### What a reading tells -/

theorem read_eq_ok {reading : Reading σ} {work : Option Work} {run : Option Run}
    {facts : ResolvedFacts ρ} (h : q.read reading seen = .ok (work, run, facts)) :
    q.work reading.store seen = .ok work ∧ q.run reading.store seen = .ok run := by
  unfold read at h
  obtain ⟨readWork, hwork, h⟩ := Result.bind_eq_ok.mp h
  obtain ⟨readRun, hrun, h⟩ := Result.bind_eq_ok.mp h
  obtain ⟨resolved, -, h⟩ := Result.bind_eq_ok.mp h
  obtain ⟨rfl, rfl, rfl⟩ := Prod.mk.inj (Result.pure_eq_ok.mp h)
  exact ⟨hwork, hrun⟩

/-- A refresh that matches has resolved the same facts, beside another Work and Run. -/
theorem refreshed_facts (htells : q.DigestTells i seen) {first : Assessment ρ}
    (hfirst : q.resolve i.resolved seen = .ok first)
    (hmatches : q.refreshMatches first i.last seen = .ok true) :
    ∃ work run, q.work i.last.store seen = .ok work ∧ q.run i.last.store seen = .ok run ∧
      q.resolve i.last seen = .ok { first with work, run } := by
  obtain ⟨⟨work₀, run₀, facts₀⟩, hread₀, rfl⟩ := Result.map_eq_ok.mp hfirst
  obtain ⟨fresh, hfresh, hdigest⟩ := Result.map_eq_ok.mp hmatches
  obtain ⟨⟨work, run, facts⟩, hread, rfl⟩ := Result.map_eq_ok.mp hfresh
  have hsame : facts₀ = facts :=
    htells _ _ hread₀ hread (of_decide_eq_true hdigest).symm
  obtain ⟨hwork, hrun⟩ := read_eq_ok hread
  refine ⟨work, run, hwork, hrun, ?_⟩
  rw [resolve, hread, hsame]
  rfl

theorem passed_of_invoked (hstore : b.hasStore = true)
    (hclassify : b.authority.classify request = some c) {provider : π}
    (hinvoked : provider ∈ (b.execute (q.answers r i (classifiedRequest request c)) request).invocations) :
    ∃ first, q.resolve i.resolved (classifiedRequest request c) = .ok first ∧
      q.Passed b r c (classifiedRequest request c) i first := by
  rcases execute_cases (b := b) (r := q.answers r i (classifiedRequest request c)) request with
    ⟨a, records, st, found, decision, hgates, hprecommit, hlookup, hdispatch, -⟩ | ⟨hnone, -⟩
  · have hgated := gates_eq_ok hgates
    have hdispatched := dispatched_of_stages hprecommit hlookup hdispatch
    have hcontract : a.classification = c :=
      Option.some.inj (hgated.contract.symm.trans hclassify)
    have hqualified := hgated.qualification
    rw [if_pos hstore] at hqualified
    obtain ⟨first, hfirst, hassessment⟩ := hqualified
    have hauthorized := hgated.authorization
    have hprocedure := hgated.procedure
    rw [hgated.classified, hcontract, hassessment] at hauthorized hprocedure
    have hlast := hdispatched.unchanged (by rw [hassessment]; rfl)
    have hfirst : q.resolve i.resolved (classifiedRequest request c) = .ok first := hfirst
    refine ⟨first, hfirst, hauthorized, hprocedure, ?_⟩
    simp only [answers, hfirst] at hlast
    exact hlast
  · rw [hnone] at hinvoked
    cases hinvoked

/-! ### What still holds at the last refresh -/

/-- The grants under the digest are those of the first assessment, so that a covering grant
decides alone: what the request names has been found the first time. -/
theorem authorization_iff {first : Assessment ρ} {work : Option Work} {run : Option Run}
    {reading : Reading σ} {r₀ : Answers σ ρ π}
    (hfirst : (b.authorization r₀ seen c.contract (some first)).1 = true) :
    (b.authorization (q.reevaluating r reading) seen c.contract
        (some { first with work, run })).1 = true ↔
      (authorizationLevel c.contract (b.authority.effectRegistry.resolve seen.capability) = .required →
        ∃ actor, seen.extractActor = some actor ∧ b.authority.Covered seen c.contract actor
          ((snapshotGrants (some first.proofs)).elim (q.grantListing reading.store) .ok)
          reading.now) := by
  have hnow : (b.authorization (q.reevaluating r reading) seen c.contract
        (some { first with work, run })).1 = true ↔ _ :=
    b.authority.checkAuthorization_iff
  rw [hnow]
  constructor
  · rintro hpasses hrequired
    obtain ⟨actor, hnamed, hcovered⟩ := hpasses.resolve_left (not_not_intro hrequired)
    exact ⟨actor, given_eq_some hnamed.actor, hcovered⟩
  · intro hgranted
    by_cases hrequired : authorizationLevel c.contract
        (b.authority.effectRegistry.resolve seen.capability) = .required
    · obtain ⟨actor, hactor, hcovered⟩ := hgranted hrequired
      obtain ⟨named, hnamed, -⟩ := (b.authority.checkAuthorization_iff.mp hfirst).resolve_left
        (not_not_intro hrequired)
      have hsame : named = actor :=
        Option.some.inj ((given_eq_some hnamed.actor).symm.trans hactor)
      subst hsame
      exact Or.inr ⟨named, hnamed, hcovered⟩
    · exact Or.inl hrequired

/-! ### The procedure at the last refresh -/

theorem exempt_procedureCall (input : ProcedureInput ρ) (gate : Procedure.Gate) :
    Procedure.exempt (q.procedureCall input) gate = false := rfl

theorem mergedProofs_get? {input : ProcedureInput ρ} {grants : List AuthorizationGrant}
    (h : input.grants = some grants) (name : String) :
    (q.procedureCall input).mergedProofs.get? name =
      if name = "grants" then some (.items (grants.map .grant))
      else (q.procedureProofs input.proofs input.otherProofs).get? name := by
  have hmerged : (q.procedureCall input).mergedProofs =
      (q.procedureProofs input.proofs input.otherProofs).set "grants"
        (.items (grants.map .grant)) := by
    rw [Procedure.ProcedureCall.mergedProofs, procedureCall, h]
    rfl
  rw [hmerged, Dict.get?_set]

theorem mem_validGrants {input : ProcedureInput ρ} {grants : List AuthorizationGrant}
    (h : input.grants = some grants) {grant : AuthorizationGrant} (hmem : grant ∈ grants)
    (hvalid : validateGrant grant input.now = []) :
    grant ∈ Procedure.validGrants (q.procedureCall input).mergedProofs
      (q.procedureCall input).clock := by
  have hpool : Procedure.pool (Procedure.firstOf (q.procedureCall input).mergedProofs
      Procedure.grantNames) = grants.map .grant := by
    have htruthy : (Procedure.ProofValue.items (grants.map .grant)).truthy = true := by
      cases grants with
      | nil => cases hmem
      | cons first rest => rfl
    rw [Procedure.grantNames, Procedure.firstOf, mergedProofs_get? h, if_pos rfl]
    · dsimp only
      rw [htruthy]
      rfl
    · simp
  refine List.mem_filterMap.mpr ⟨.grant grant, hpool ▸ List.mem_map_of_mem hmem, ?_⟩
  show (if (validateGrant grant input.now).isEmpty = true then some grant else none) = _
  rw [hvalid]
  rfl

theorem procedureBlocked_eq_false {entries : List (String × String)} :
    (procedureBlocked (.statuses entries)).1 = false ↔
      ∀ e ∈ entries, e.2 ∉ ["open", "required", "blocked", "expired", "invalidated"] := by
  unfold procedureBlocked
  dsimp only
  split
  · next hbad =>
    rw [List.isEmpty_iff, List.filter_eq_nil_iff] at hbad
    exact iff_of_true rfl (fun e he hmem => hbad e he (List.contains_iff_mem.mpr hmem))
  · next hbad =>
    refine iff_of_false Bool.noConfusion (fun h => hbad ?_)
    rw [List.isEmpty_iff, List.filter_eq_nil_iff]
    exact fun e he hmem => h e he (List.contains_iff_mem.mp hmem)

/-- The procedure does not block just where every gate is satisfied. -/
theorem not_blocked_iff {input : ProcedureInput ρ} :
    (∃ statuses reason, q.checkProcedure input = .ok statuses ∧
      procedureBlocked statuses = (false, reason)) ↔
    ∃ out, Procedure.checkProcedure (q.procedureCall input) = .ok out ∧
      ∀ s ∈ out, s.status = .satisfied := by
  constructor
  · rintro ⟨statuses, reason, h, hpassed⟩
    obtain ⟨out, hout, rfl⟩ := Result.map_eq_ok.mp h
    refine ⟨out, hout, fun s hs => ?_⟩
    have hblocking := procedureBlocked_eq_false.mp (congrArg Prod.fst hpassed)
    refine (Procedure.status_of_checkProcedure (exempt_procedureCall input) hout s hs).resolve_right
      (fun hmem => ?_)
    exact absurd hmem (hblocking _ (List.mem_map_of_mem hs))
  · rintro ⟨out, hout, hall⟩
    refine ⟨_, _, congrArg _ hout, Prod.ext (procedureBlocked_eq_false.mpr (fun e he => ?_)) rfl⟩
    obtain ⟨s, hs, rfl⟩ := List.mem_map.mp he
    rw [hall s hs]
    show "satisfied" ∉ _
    decide

theorem procedureListing_eq {first : Assessment ρ} {st : σ} :
    (snapshotGrants (some first.proofs)).elim (q.judging r st).procedureListing
      (fun grants => .ok (some grants)) = (q.readGrants first st).map some := by
  rw [readGrants]
  cases snapshotGrants (some first.proofs) with
  | none => rfl
  | some kept => rfl

theorem authorizationListing_eq {first : Assessment ρ} {st : σ} {grants : List AuthorizationGrant} :
    (snapshotGrants (some first.proofs)).elim (q.grantListing st) .ok = .ok grants ↔
      q.readGrants first st = .ok grants := by
  rw [readGrants]
  cases snapshotGrants (some first.proofs) with
  | none => exact mapError_eq_ok
  | some kept => simp only [Option.elim, Except.ok.injEq]

/-- The procedure gate passes just where every gate is satisfied of what it hands on. -/
theorem procedure_iff {contract : CapabilityContract} {first : Assessment ρ} {st : σ} :
    (∃ reason, b.procedure (q.judging r st) seen contract (some first) = .ok (false, reason)) ↔
    ∃ input out, q.Asks b contract seen first ⟨st, r.procedureAt⟩ input ∧
      Procedure.checkProcedure (q.procedureCall input) = .ok out ∧
      ∀ s ∈ out, s.status = .satisfied := by
  constructor
  · rintro ⟨reason, h⟩
    unfold RealityBoundary.procedure at h
    dsimp only at h
    split at h
    · next work run hwork hrun =>
      obtain ⟨profile, hprofile, h⟩ := Result.bind_eq_ok.mp h
      obtain ⟨grants, hgrants, h⟩ := Result.bind_eq_ok.mp h
      obtain ⟨statuses, hstatuses, h⟩ := Result.bind_eq_ok.mp h
      obtain ⟨out, hout, hall⟩ :=
        not_blocked_iff.mp ⟨statuses, reason, hstatuses, Result.pure_eq_ok.mp h⟩
      rw [procedureListing_eq] at hgrants
      obtain ⟨read, hread, rfl⟩ := Result.map_eq_ok.mp hgrants
      let input : ProcedureInput ρ :=
        { work, run, profile, proofs := first.proofs, otherProofs := first.otherProofs,
          grants := some read, now := r.procedureAt }
      have hasks : q.Asks b contract seen first ⟨st, r.procedureAt⟩ input :=
        { work := hwork, run := hrun, profile := hprofile, proofs := rfl, otherProofs := rfl,
          grants := ⟨read, hread, rfl⟩, now := rfl }
      exact ⟨input, out, hasks, hout, hall⟩
    · cases h
  · rintro ⟨input, out, hasks, hout, hall⟩
    obtain ⟨statuses, reason, hstatuses, hblocked⟩ := not_blocked_iff.mpr ⟨out, hout, hall⟩
    obtain ⟨grants, hread, hgrants⟩ := hasks.grants
    have hnow : input.now = r.procedureAt := hasks.now
    have hinput : input = ⟨input.work, input.run, input.profile, first.proofs, first.otherProofs,
        some grants, r.procedureAt⟩ := by
      rw [← hasks.proofs, ← hasks.otherProofs, ← hgrants, ← hnow]
    refine ⟨reason, ?_⟩
    rw [hinput] at hstatuses
    rw [RealityBoundary.procedure, hasks.work, hasks.run]
    dsimp only
    have hlisting : (snapshotGrants (some first.proofs)).elim (q.judging r st).procedureListing
        (fun grants => .ok (some grants)) = .ok (some grants) :=
      procedureListing_eq.trans (congrArg (Except.map some) hread)
    exact Result.bind_eq_ok.mpr ⟨_, hasks.profile, Result.bind_eq_ok.mpr ⟨_, hlisting,
      Result.bind_eq_ok.mpr ⟨statuses, hstatuses, congrArg _ hblocked⟩⟩⟩

/-! ### Facts that are kept -/

/-- What a covered action needs of a grant beside its window does not depend on the time. -/
theorem authorization_of_factsKept {first : Assessment ρ} {work : Option Work} {run : Option Run}
    (hkept : q.FactsKept b r c seen i first)
    (hfirst : (b.authorization (q.judging r i.judged) seen c.contract (some first)).1 = true) :
    (b.authorization (q.reevaluating r i.last) seen c.contract
      (some { first with work, run })).1 = true := by
  rw [authorization_iff hfirst]
  intro hrequired
  obtain ⟨actor, grant, hactor, -, hgrantee, hcovered, ⟨grants, hread, hmem⟩, hwindow⟩ :=
    hkept.authorized hrequired
  rw [isAuthorizedFor, Bool.and_eq_true] at hcovered
  refine ⟨actor, hactor, grants, grant, authorizationListing_eq.mpr hread, hmem, hgrantee, ?_⟩
  rw [isAuthorizedFor, hwindow, hcovered.2]
  rfl

/-- What the procedure is handed at a later reading. -/
def rereadInput (input : ProcedureInput ρ) (work : Work) (run : Run)
    (grants : List AuthorizationGrant) (now : Time) : ProcedureInput ρ :=
  { input with work, run, grants := some grants, now }

section Reread

variable {contract : CapabilityContract} {first : Assessment ρ} {reading last : Reading σ}
  {input : ProcedureInput ρ} {work : Work} {run : Run} {grants : List AuthorizationGrant}

/-- The profile is read of the metadata. -/
theorem asks_reread (hasks : q.Asks b contract seen first reading input)
    (hwork : work.metadata = input.work.metadata) (hrun : run.metadata = input.run.metadata)
    (hread : q.readGrants first last.store = .ok grants) :
    q.Asks b contract seen { first with work := some work, run := some run } last
      (rereadInput input work run grants last.now) where
  work := rfl
  run := rfl
  profile := by
    show effectiveProcedureProfile _ [work.metadata.get _, run.metadata.get _, _] = _
    rw [hwork, hrun]
    exact hasks.profile
  proofs := hasks.proofs
  otherProofs := hasks.otherProofs
  grants := ⟨grants, hread, rfl⟩
  now := rfl

theorem sameButGrants_reread {read : List AuthorizationGrant} (hgrants : input.grants = some read)
    (hsame : Procedure.SameFacts (.work input.work) (.run input.run) (.work work) (.run run))
    (grants : List AuthorizationGrant) (now : Time) :
    Procedure.SameButGrants (q.procedureCall input)
      (q.procedureCall (rereadInput input work run grants now)) where
  profile := rfl
  facts := hsame
  proofs name hname := by
    have hgrants' : (rereadInput input work run grants now).grants = some grants := rfl
    rw [mergedProofs_get? hgrants, mergedProofs_get? hgrants', if_neg hname, if_neg hname]
    rfl
  notExempt := exempt_procedureCall input
  notExempt' := exempt_procedureCall _

theorem profile_ne_minimal
    (hgate : .authorization ∈ Procedure.gatesOf (q.procedureCall input)) :
    input.profile ≠ .minimal := by
  intro hminimal
  have hmem : .authorization ∈
      (Procedure.gatesForProfile input.profile.text).toOption.getD [] := hgate
  rw [hminimal] at hmem
  exact absurd hmem (by decide)

/-- The grant that is in force is one of the valid ones that are handed on. -/
theorem backed_reread {grant : AuthorizationGrant} {now : Time}
    (hsame : Procedure.SameButGrants (q.procedureCall input)
      (q.procedureCall (rereadInput input work run grants now)))
    (hmem : grant ∈ grants) (hvalid : validateGrant grant now = [])
    (hhint : Procedure.hintMet (Procedure.combinedMeta (.work input.work) (.run input.run))
      [grant] = true) :
    Procedure.Backed (q.procedureCall (rereadInput input work run grants now)) .authorization := by
  have hvalid' : grant ∈
      Procedure.validGrants (q.procedureCall (rereadInput input work run grants now)).mergedProofs
        (q.procedureCall (rereadInput input work run grants now)).clock :=
    mem_validGrants rfl hmem hvalid
  rw [Procedure.backed_authorization_iff, Procedure.combined_eq hsame]
  exact ⟨List.ne_nil_of_mem hvalid', Procedure.hintMet_of_mem hhint hvalid'⟩

end Reread

theorem procedure_of_factsKept {first : Assessment ρ} {work : Option Work} {run : Option Run}
    (happlies : procedureApplies seen c.effective = true)
    (hkept : q.FactsKept b r c seen i first)
    (hwork : q.work i.last.store seen = .ok work) (hrun : q.run i.last.store seen = .ok run)
    (hfirst : ∃ reason,
      b.procedure (q.judging r i.judged) seen c.contract (some first) = .ok (false, reason)) :
    ∃ reason, b.procedure (q.reevaluating r i.last) seen c.contract
      (some { first with work, run }) = .ok (false, reason) := by
  obtain ⟨input, out, hasks, hout, hall⟩ := procedure_iff.mp hfirst
  obtain ⟨work', hwork', hworkMetadata, hkind, hinputs, hrefs⟩ :=
    hkept.work happlies input.work hasks.work
  obtain ⟨run', hrun', hrunMetadata, hstatus⟩ := hkept.run happlies input.run hasks.run
  obtain rfl := Except.ok.inj (hwork.symm.trans hwork')
  obtain rfl := Except.ok.inj (hrun.symm.trans hrun')
  obtain ⟨grants, hread⟩ := hkept.listing
  obtain ⟨read, -, hgrants⟩ := hasks.grants
  have hsame : Procedure.SameButGrants (q.procedureCall input)
      (q.procedureCall (rereadInput input work' run' grants i.last.now)) :=
    sameButGrants_reread hgrants
      (Procedure.sameFacts_of_eq hworkMetadata hrunMetadata hkind hinputs hrefs hstatus) grants _
  obtain ⟨out', hout', hall'⟩ := Procedure.checkProcedure_again hsame hout hall (fun hgate => by
    obtain ⟨grant, -, hvalid, hhint, ⟨listed, hlisted, hmem⟩, hwindow⟩ :=
      hkept.granted happlies _ _ _ hasks.work hasks.run hasks.profile (profile_ne_minimal hgate)
    obtain rfl := Except.ok.inj (hlisted.symm.trans hread)
    exact backed_reread hsame hmem
      (validateGrant_eq_nil.mpr ⟨hwindow, (validateGrant_eq_nil.mp hvalid).2⟩) hhint)
  let again : Answers σ ρ π := { r with authorizedAt := i.last.now, procedureAt := i.last.now }
  have hpasses : ∃ reason, b.procedure (q.judging again i.last.store) seen c.contract
      (some { first with work := some work', run := some run' }) = .ok (false, reason) :=
    procedure_iff.mpr ⟨_, out', asks_reread hasks hworkMetadata hrunMetadata hread, hout', hall'⟩
  exact hpasses

/-! ### A grant revoked while the router is awaited -/

/-- Reads and writes of an execution on a store in memory, for a request without references. -/
def unreferring : Qualification MemoryStore Unit where
  getWork st id := .ok (st.getWork id)
  getRun st id := .ok (st.getRun id)
  listAuthorizations st := .ok (st.records .authorization).values
  resolveRefs _ _ _ _ _ := .ok { otherProofs := () }
  digest _ := "facts"
  procedureProofs _ _ := .empty

/-- Only an authorized actor may read. -/
def guardedRead : CapabilityContract :=
  { capability := "records.read", authorizationRequirement := .required }

def guarding : RealityBoundary MemoryStore :=
  { observing with authority := .create (some (.create [guardedRead] none)) none }

def guardedRequest : InvocationRequest :=
  { id := "q1", capability := "records.read", actorRef := some "agent_1",
    subjectVersionRefs := ["v1"] }

def guardedClass : Classification :=
  { contract := guardedRead, effective := .read, sideEffect := false }

def readGrant : AuthorizationGrant :=
  { id := "grant_1", createdAt := 0, principalRef := "owner_1", granteeRef := "agent_1",
    allowedCapabilities := ["records.read"], validFrom := 0, subjectVersionRefs := ["v1"] }

def granted : MemoryStore := (MemoryStore.empty.saveAuthorization 0 readGrant).toOption.getD .empty

def revoked : MemoryStore :=
  (granted.saveAuthorization 1 { readGrant with revokedAt := some 1 }).toOption.getD granted

/-- The grant is there at every reading. -/
def keptGrant : Readings MemoryStore where
  resolved := ⟨granted, 0⟩
  judged := granted
  refreshed := ⟨granted, 2⟩
  last := ⟨granted, 2⟩

/-- The grant is revoked between the authorization check and the refreshes. -/
def lostGrant : Readings MemoryStore :=
  { keptGrant with refreshed := ⟨revoked, 2⟩, last := ⟨revoked, 2⟩ }

theorem guarding_classify : guarding.authority.classify guardedRequest = some guardedClass := by
  decide

/-- An execution invokes its provider on an assessment that still passes both gates at the last
refresh, where the facts that they read beside the digest are kept. -/
theorem stillPasses_of_factsKept (hstore : b.hasStore = true)
    (hclassify : b.authority.classify request = some c)
    (htells : q.DigestTells i (classifiedRequest request c)) {provider : π}
    (hinvoked : provider ∈ (b.execute (q.answers r i (classifiedRequest request c)) request).invocations)
    (hkept : ∀ first, q.resolve i.resolved (classifiedRequest request c) = .ok first →
      q.FactsKept b r c (classifiedRequest request c) i first) :
    ∃ fresh, q.StillPasses b r c (classifiedRequest request c) i.last fresh := by
  obtain ⟨first, hfirst, hpassed⟩ := passed_of_invoked hstore hclassify hinvoked
  obtain ⟨work, run, hwork, hrun, hfresh⟩ := refreshed_facts htells hfirst hpassed.unchanged
  have hfacts := hkept first hfirst
  exact ⟨_, hfresh, authorization_of_factsKept hfacts hpassed.authorization, fun happlies =>
    procedure_of_factsKept happlies hfacts hwork hrun (hpassed.procedure happlies)⟩

/-- A grant that is kept lets the request pass at the last refresh as well. -/
theorem stillPasses_keptGrant :
    ∃ fresh, unreferring.StillPasses guarding agreeing guardedClass
      (classifiedRequest guardedRequest guardedClass) keptGrant.last fresh := by
  have hinvoked : () ∈ (guarding.execute (unreferring.answers agreeing keptGrant
      (classifiedRequest guardedRequest guardedClass)) guardedRequest).invocations := by
    decide
  refine stillPasses_of_factsKept rfl guarding_classify (fun _ _ h h' _ => ?_) hinvoked
    (fun first hfirst => ?_)
  · cases h
    cases h'
    rfl
  · cases hfirst
    have hread (st : MemoryStore) (hst : (st.records .authorization).values = [readGrant]) :
        unreferring.Reads { otherProofs := (), digest := "facts" } st readGrant :=
      ⟨[readGrant], congrArg Except.ok hst, List.mem_singleton_self readGrant⟩
    have hnone : ¬ procedureApplies (classifiedRequest guardedRequest guardedClass)
        guardedClass.effective = true := by decide
    exact
      { listing := ⟨[readGrant], rfl⟩
        authorized := fun _ => ⟨"agent_1", readGrant, rfl, hread granted rfl, rfl, by decide,
          hread granted rfl, by decide⟩
        work := fun happlies => absurd happlies hnone
        run := fun happlies => absurd happlies hnone
        granted := fun happlies => absurd happlies hnone }

/-- The grant is checked once, before the router is awaited.  The digest holds no grant that no
reference names, so that the provider is invoked after the revocation. -/
theorem execute_revoked :
    (guarding.execute (unreferring.answers agreeing lostGrant
      (classifiedRequest guardedRequest guardedClass)) guardedRequest).invocations = [()] ∧
    ¬ ∃ fresh, unreferring.StillPasses guarding agreeing guardedClass
      (classifiedRequest guardedRequest guardedClass) lostGrant.last fresh := by
  refine ⟨by decide, ?_⟩
  rintro ⟨fresh, hpasses⟩
  have hfresh : unreferring.resolve lostGrant.last (classifiedRequest guardedRequest guardedClass) =
      .ok { otherProofs := (), digest := "facts" } := rfl
  obtain rfl := Except.ok.inj (hfresh.symm.trans hpasses.resolved)
  exact absurd hpasses.authorization (by decide)

end Qualification
end PortableRuntime
