import PortableRuntime.Core.Repeatability
import PortableRuntime.Workflows.RecoveryObservation

/-!
# The reconciliation consumer

A call checks that the application is not yet completed, resolves the exact provider and waits for
its answer; only then is the completion written.  Other calls and the registry go on while it waits.
-/

namespace PortableRuntime

inductive RecoveryReconciliationStatus where
  | replayed | completed | unavailable | unknown | conflicted
deriving Repr, DecidableEq, Inhabited

/-- What `reconcile` of a provider returns. -/
structure ReconcileResult extends CapabilityResult where
  providerId : String
  message : String := ""

/-- Non-durable orchestration result for one consumer invocation. -/
structure RecoveryReconciliationResult where
  status : RecoveryReconciliationStatus
  recoveryApplicationRef : String
  recoveryObservationRef : Option String := none
  providerResult : Option ReconcileResult := none
  reason : String := ""

namespace ReconciliationConsumer

open Recovery Governance

/-- The part of a call before its await: it may return or raise early. -/
abbrev Consuming (α : Type) := Except (Result RecoveryReconciliationResult) α

def answer {α : Type} (status : RecoveryReconciliationStatus) (ref reason : String) : Consuming α :=
  .error (.ok { status, recoveryApplicationRef := ref, reason })

def require (holds : Bool) (status : RecoveryReconciliationStatus) (ref reason : String) :
    Consuming Unit :=
  if holds then .ok () else answer status ref reason

def found {α : Type} (value : Option α) (status : RecoveryReconciliationStatus)
    (ref reason : String) : Consuming α :=
  match value with
  | some a => .ok a
  | none => answer status ref reason

/-- `except (TypeError, ValueError)`. -/
def catching {α : Type} (status : RecoveryReconciliationStatus) (ref : String) :
    Result α → Consuming α
  | .ok a => .ok a
  | .error (.typeError message) => answer status ref message
  | .error (.valueError message) => answer status ref message
  | .error e => .error (.error e)

section Consume

variable {π : Type} [DecidableEq π] (digest : Json → String) (now : Time)

/-- `_exact_application`, of the event that was found. -/
def exactReplay (store : DispositionStoreReader) (applicationRef : String) (event : Event) :
    Result Application := do
  let application ← applicationFromEvent digest event
  let replay ← prepareApplicationCommit digest now store application.dispositionRef
  guardValue (replay.replayed && replay.application.id == applicationRef)
    "RecoveryApplication durable identity rebound"
  guardValue (replay.application = application)
    "RecoveryApplication source graph or semantics rebound"
  return application

/-- A durable completion ends the call. -/
def checkCompletion (st : MemoryStore) (applicationRef : String) (application : Application) :
    Consuming Unit :=
  match st.getRecoveryApplicationObservation digest application.id with
  | .error e => answer .conflicted applicationRef e.message
  | .ok none => .ok ()
  | .ok (some existing) =>
    if existing.recoveryApplicationRef ≠ some application.id then
      answer .conflicted applicationRef "application-bound RecoveryObservation rebound"
    else .error (.ok
      { status := .replayed
        recoveryApplicationRef := applicationRef
        recoveryObservationRef := some existing.id
        reason := "application reconciliation responsibility already durably completed" })

/-- What the objects of providers read now. -/
structure ProviderReadings (π : Type) where
  descriptor : π → RegisteredDescriptor
  reconciles : π → Bool

/-- What a call holds while it waits for its provider. -/
structure Exit (π : Type) where
  application : Application
  provider : π
  providerId : String
  provenanceRefs : List String
deriving DecidableEq

/-- `consume` up to its await. -/
def consumeBegin (readings : ProviderReadings π) (st : MemoryStore) (registry : ProviderRegistry π)
    (requestRef : String) : Consuming (Exit π) := do
  let ref := Text.strip requestRef
  require (ref ≠ "") .unavailable requestRef
    "reconciliation consumer requires exact RecoveryApplication ref"
  let event ← found ((st.getEvent ref).filter (fun e => e.id == ref)) .unavailable ref
    "exact durable RecoveryApplication is unavailable"
  let application ← catching .conflicted ref (exactReplay digest now st.recoveryReader ref event)
  require (application.applicationKind = .reconciliationRequest) .unavailable ref
    "RecoveryApplication is not a reconciliation-request responsibility"
  checkCompletion digest st ref application
  let dispatch ← found
    ((st.getEvent application.sourceDispatchRef).filter
      (fun e => e.id == application.sourceDispatchRef)) .conflicted ref
    "exact historical InvocationDispatchCommitted is unavailable"
  let binding ← catching .unavailable ref (providerExecutionBindingFromDispatch digest dispatch)
  let provider ← found (registry.resolveExecutionBinding digest readings.descriptor binding)
    .unavailable ref "exact historical configured-provider execution target is unavailable"
  let providerId := (readings.descriptor provider).id
  require (providerId = application.sourceProviderId) .conflicted ref
    "resolved provider target does not match RecoveryApplication source graph"
  let authority ← catching .unavailable ref
    (reconciliationRepeatabilityAuthorityFromDispatch digest dispatch)
  let eligibility := registry.reconciliationRepeatabilityEligibility digest readings.descriptor
    (some authority) (some binding) application.sourceRequestRef
  require eligibility.eligible .unavailable ref
    (if eligibility.reason = "" then "reconciliation repeatability is ineligible"
      else eligibility.reason)
  return { application, provider, providerId, provenanceRefs := [binding.id, authority.id] }

/-- How a provider answers: `raised` is what no `except Exception` catches, or an object that is no
result. -/
inductive ProviderAnswer where
  | returned (result : Option ReconcileResult)
  | failed (reason : String)
  | raised (e : PyError)

/-- `reconcile_exact_target`, once the provider has answered. -/
def reconcileExactTarget (exit : Exit π) : ProviderAnswer → Result (Option ReconcileResult)
  | .returned result => .ok result
  | .failed reason => .ok (some
      { requestId := exit.application.sourceRequestRef
        providerId := exit.providerId
        status := .unknown
        message := "reconciliation failed: " ++ reason
        error := some [("code", .str "ReconciliationUnavailable"), ("reason", .str reason)] })
  | .raised e => .error e

def reportedStatusFromCapabilityStatus : CapabilityResultStatus → ReportedStatus
  | .succeeded => .succeeded
  | .failed => .failed
  | _ => .unknown

/-- `consume` from its await on. -/
def consumeFinish (st : MemoryStore) (exit : Exit π) (reply : ProviderAnswer) :
    Result RecoveryReconciliationResult × MemoryStore :=
  let application := exit.application
  match reconcileExactTarget exit reply with
  | .error e => (.error e, st)
  | .ok providerResult =>
    let ended (status : RecoveryReconciliationStatus) (observationRef : Option String)
        (reason : String) : Result RecoveryReconciliationResult :=
      .ok { status, recoveryApplicationRef := application.id,
            recoveryObservationRef := observationRef, providerResult, reason }
    if providerResult.any (fun r => r.requestId ≠ application.sourceRequestRef) then
      (ended .conflicted none "provider reconciliation result request identity mismatch", st)
    else if providerResult.any (fun r => r.providerId ≠ application.sourceProviderId) then
      (ended .conflicted none "provider reconciliation result target identity mismatch", st)
    else
      let reported := providerResult.elim ReportedStatus.unknown
        (fun r => reportedStatusFromCapabilityStatus r.status)
      match st.commitRecoveryApplicationObservation digest now
        { recoveryApplicationRef := application.id
          observationSource := "provider-reconcile-exact-target"
          reportedStatus := reported.text
          provenanceRefs := exit.provenanceRefs } with
      | .error (.valueError message) => (ended .conflicted none message, st)
      | .error e =>
        (ended .unknown none
          ("reconciliation result could not be durably completed: " ++ e.message), st)
      | .ok (observation, st') =>
        if observation.recoveryApplicationRef ≠ some application.id then
          (ended .conflicted none "application-bound RecoveryObservation commit rebound", st')
        else
          (ended .completed (some observation.id)
            "reconciliation responsibility durably completed", st')

/-! ## Calls in flight -/

/-- One call of `reconcile`. -/
structure Contact (π : Type) where
  applicationRef : String
  provider : π
  requestId : String

/-- The store, what was done to the registry, the calls at their await, the providers contacted and
the outcomes of the calls. -/
structure Reconciling (π : Type) where
  store : MemoryStore
  registrations : List (ProviderRegistry.Call π)
  waiting : List (Exit π) := []
  contacts : List (Contact π) := []
  outcomes : List (Result RecoveryReconciliationResult) := []

inductive Move (π : Type) where
  | consume (now : Time) (readings : ProviderReadings π) (requestRef : String)
  | resume (now : Time) (i : Nat) (reply : ProviderAnswer)
  | registry (call : ProviderRegistry.Call π)
  | append (event : Event)

def Reconciling.finish (w : Reconciling π) (exit : Exit π) (reply : ProviderAnswer) :
    Reconciling π :=
  let ended := consumeFinish digest now w.store exit reply
  { w with store := ended.2, outcomes := w.outcomes ++ [ended.1] }

/-- A provider without `reconcile` is not contacted, and its call does not wait. -/
def move (w : Reconciling π) : Move π → Reconciling π
  | .consume now readings requestRef =>
    match consumeBegin digest now readings w.store (ProviderRegistry.after digest w.registrations)
      requestRef with
    | .error outcome => { w with outcomes := w.outcomes ++ [outcome] }
    | .ok exit =>
      if readings.reconciles exit.provider then
        { w with
          waiting := w.waiting ++ [exit]
          contacts := w.contacts ++ [{ applicationRef := exit.application.id
                                       provider := exit.provider
                                       requestId := exit.application.sourceRequestRef }] }
      else w.finish digest now exit (.returned none)
  | .resume now i reply =>
    match w.waiting[i]? with
    | none => w
    | some exit => { w with waiting := w.waiting.eraseIdx i }.finish digest now exit reply
  | .registry call => { w with registrations := w.registrations ++ [call] }
  | .append event => { w with store := (w.store.appendEvent event).toOption.getD w.store }

end Consume

/-! ## What ends a call early -/

section Early

variable {digest : Json → String} {now : Time} {α β : Type}

theorem Consuming.bind_eq_ok {x : Consuming α} {f : α → Consuming β} {b : β} :
    (x >>= f) = .ok b ↔ ∃ a, x = .ok a ∧ f a = .ok b := by
  cases x with
  | error e => simp [bind, Except.bind]
  | ok a => simp [bind, Except.bind]

theorem require_eq_ok {holds : Bool} {status : RecoveryReconciliationStatus} {ref reason : String}
    {u : Unit} : require holds status ref reason = .ok u ↔ holds = true := by
  cases holds <;> simp [require, answer]

theorem found_eq_ok {value : Option α} {status : RecoveryReconciliationStatus}
    {ref reason : String} {a : α} : found value status ref reason = .ok a ↔ value = some a := by
  cases value <;> simp [found, answer]

theorem catching_eq_ok {status : RecoveryReconciliationStatus} {ref : String} {x : Result α}
    {a : α} : catching status ref x = .ok a ↔ x = .ok a := by
  cases x with
  | ok b => simp [catching]
  | error e => cases e <;> simp [catching, answer]

theorem exactReplay_eq_ok {store : DispositionStoreReader} {ref : String} {event : Event}
    {application : Application} (hevent : store.getEvent ref = some event) (hid : event.id = ref) :
    exactReplay digest now store ref event = .ok application ↔
      Exact digest now store ref application := by
  rw [exactReplay]
  constructor
  · intro h
    obtain ⟨decoded, hdecoded, h⟩ := Result.bind_eq_ok.mp h
    obtain ⟨plan, hplan, h⟩ := Result.bind_eq_ok.mp h
    obtain ⟨hreplayed, h⟩ := Result.check_eq_ok.mp h
    obtain ⟨hsame, h⟩ := Result.check_eq_ok.mp h
    obtain rfl := Result.pure_eq_ok.mp h
    rw [guardValue_eq_ok, Bool.and_eq_true] at hreplayed
    rw [guardValue_eq_ok] at hsame
    refine ⟨⟨event, hevent, hid, hdecoded⟩, ?_⟩
    rw [hplan, Except.ok.injEq]
    obtain ⟨planned, written, replayed⟩ := plan
    obtain rfl : planned = decoded := of_decide_eq_true hsame
    obtain rfl : replayed = true := hreplayed.1
    obtain rfl : written = none := prepareApplicationCommit_replayed hplan rfl
    rfl
  · intro h
    obtain ⟨event', hevent', -, hdecoded⟩ := h.event
    obtain rfl := Option.some.inj (hevent.symm.trans hevent')
    refine Result.bind_eq_ok.mpr ⟨application, hdecoded, Result.bind_eq_ok.mpr ⟨_, h.replay, ?_⟩⟩
    refine Result.check_eq_ok.mpr ⟨?_, Result.check_eq_ok.mpr
      ⟨guardValue_eq_ok.mpr (decide_eq_true rfl), rfl⟩⟩
    rw [guardValue_eq_ok, Bool.and_eq_true, beq_iff_eq]
    exact ⟨rfl, h.id⟩

end Early

/-! ## What a contact rests on -/

section Contacts

variable {π : Type} [DecidableEq π] {digest : Json → String} {now : Time} {st : MemoryStore}

/-- The application, the recorded binding and authority of its dispatch, and the registration in
force that a contact rests on. -/
structure ExactContact (digest : Json → String) (st : MemoryStore)
    (registrations : List (ProviderRegistry.Call π)) (c : Contact π) : Prop where
  exact : ∃ now application dispatch binding authority contract,
    Exact digest now st.recoveryReader c.applicationRef application ∧
    application.applicationKind = .reconciliationRequest ∧
    st.getEvent application.sourceDispatchRef = some dispatch ∧
    providerExecutionBindingFromDispatch digest dispatch = .ok binding ∧
    reconciliationRepeatabilityAuthorityFromDispatch digest dispatch = .ok authority ∧
    dispatch.payload.get "request_id" = .str c.requestId ∧
    ProviderRegistry.Configures digest registrations c.provider binding contract ∧
    RepeatSafeAs contract authority

/-- The authority of a dispatch names its request. -/
theorem subject_of_authority {event : Event} {authority : ReconciliationRepeatabilityAuthority}
    (h : reconciliationRepeatabilityAuthorityFromDispatch digest event = .ok authority) :
    event.payload.get "request_id" = .str authority.subjectIdentity := by
  rw [reconciliationRepeatabilityAuthorityFromDispatch] at h
  obtain ⟨-, h⟩ := Result.check_eq_ok.mp h
  obtain ⟨raw, -, h⟩ := Result.bind_eq_ok.mp h
  obtain ⟨ref, -, h⟩ := Result.bind_eq_ok.mp h
  obtain ⟨decoded, -, h⟩ := Result.bind_eq_ok.mp h
  obtain ⟨-, h⟩ := Result.check_eq_ok.mp h
  obtain ⟨binding, -, h⟩ := Result.bind_eq_ok.mp h
  obtain ⟨-, h⟩ := Result.check_eq_ok.mp h
  obtain ⟨requestId, hrequest, h⟩ := Result.bind_eq_ok.mp h
  obtain ⟨-, h⟩ := Result.check_eq_ok.mp h
  obtain ⟨hsubject, h⟩ := Result.check_eq_ok.mp h
  obtain rfl := Result.pure_eq_ok.mp h
  rw [orRaise_eq_ok, Option.filter_eq_some_iff] at hrequest
  rw [guardValue_eq_ok, Bool.and_eq_true, decide_eq_true_eq] at hsubject
  rw [hsubject.1]
  exact Json.str_of_asStr? hrequest.1

/-- A call that reaches its await was exact when it left. -/
theorem consumeBegin_eq_ok {readings : ProviderReadings π}
    {registrations : List (ProviderRegistry.Call π)} {requestRef : String} {exit : Exit π}
    (h : consumeBegin digest now readings st (ProviderRegistry.after digest registrations)
      requestRef = .ok exit) :
    ExactContact digest st registrations
      { applicationRef := exit.application.id, provider := exit.provider,
        requestId := exit.application.sourceRequestRef } := by
  rw [consumeBegin, Consuming.bind_eq_ok] at h
  obtain ⟨-, -, h⟩ := h
  obtain ⟨event, hevent, h⟩ := Consuming.bind_eq_ok.mp h
  obtain ⟨application, happlication, h⟩ := Consuming.bind_eq_ok.mp h
  obtain ⟨_, hkind, h⟩ := Consuming.bind_eq_ok.mp h
  obtain ⟨-, -, h⟩ := Consuming.bind_eq_ok.mp h
  obtain ⟨dispatch, hdispatch, h⟩ := Consuming.bind_eq_ok.mp h
  obtain ⟨binding, hbinding, h⟩ := Consuming.bind_eq_ok.mp h
  obtain ⟨provider, hprovider, h⟩ := Consuming.bind_eq_ok.mp h
  obtain ⟨-, -, h⟩ := Consuming.bind_eq_ok.mp h
  obtain ⟨authority, hauthority, h⟩ := Consuming.bind_eq_ok.mp h
  obtain ⟨_, heligible, h⟩ := Consuming.bind_eq_ok.mp h
  obtain rfl := Except.ok.inj h
  rw [found_eq_ok, Option.filter_eq_some_iff, beq_iff_eq] at hevent
  rw [catching_eq_ok, exactReplay_eq_ok hevent.1 hevent.2] at happlication
  rw [require_eq_ok] at hkind heligible
  rw [found_eq_ok, Option.filter_eq_some_iff] at hdispatch
  rw [catching_eq_ok] at hbinding hauthority
  rw [found_eq_ok] at hprovider
  obtain ⟨htarget, hsubject⟩ := ProviderRegistry.exactTarget_of_eligible hprovider heligible
  obtain ⟨contract, hconfigures, hsafe⟩ := ProviderRegistry.configures_of_exactTarget htarget
  refine ⟨now, application, dispatch, binding, authority, contract, ?_, of_decide_eq_true hkind,
    hdispatch.1, hbinding, hauthority, ?_, hconfigures, hsafe⟩
  · show Exact digest now st.recoveryReader application.id application
    rw [happlication.id]
    exact happlication
  · show dispatch.payload.get "request_id" = .str application.sourceRequestRef
    rw [← hsubject]
    exact subject_of_authority hauthority

/-- After the completion a call returns what was recorded. -/
theorem consumeBegin_completed {readings : ProviderReadings π} {registry : ProviderRegistry π}
    {requestRef ref : String} {application : Application} {event : Event}
    (href : Text.strip requestRef = ref) (hexact : Exact digest now st.recoveryReader ref application)
    (hkind : application.applicationKind = .reconciliationRequest)
    (hcompleted : st.HoldsCompletion digest ref event) :
    consumeBegin digest now readings st registry requestRef = .error (.ok
      { status := .replayed
        recoveryApplicationRef := ref
        recoveryObservationRef := some event.id
        reason := "application reconciliation responsibility already durably completed" }) := by
  obtain ⟨observation, hget, hbound, hid⟩ := hcompleted.get
  obtain ⟨-, hstrip, hblank⟩ := hcompleted.2.identity
  obtain ⟨source, hsource, hsourceId, -⟩ := hexact.event
  have hne : ref ≠ "" := by
    rintro rfl
    exact absurd hblank (by decide)
  have hfound : ((st.getEvent ref).filter (fun e => e.id == ref)) = some source := by
    rw [Option.filter_eq_some_iff, beq_iff_eq]
    exact ⟨hsource, hsourceId⟩
  have hreplay : exactReplay digest now st.recoveryReader ref source = .ok application :=
    (exactReplay_eq_ok hsource hsourceId).mpr hexact
  have hcheck : checkCompletion digest st ref application = .error (.ok
      { status := .replayed
        recoveryApplicationRef := ref
        recoveryObservationRef := some event.id
        reason := "application reconciliation responsibility already durably completed" }) := by
    rw [checkCompletion, hexact.id, hget]
    simp [hbound, hid]
  simp only [consumeBegin, href, hfound, require, found, catching, hreplay, hkind, hcheck, hne,
    ne_eq, not_false_eq_true, decide_true, if_true, bind, Except.bind]

end Contacts

/-! ## What a move leaves in the store -/

section Stores

variable {π : Type} {digest : Json → String} {now : Time} {st st' st'' : MemoryStore}

/-- An application that can be completed: exact, and a request to reconcile. -/
def Completable (digest : Json → String) (st : MemoryStore) (ref : String) : Prop :=
  ∃ now application, Exact digest now st.recoveryReader ref application ∧
    application.applicationKind = .reconciliationRequest

/-- Events are only gained, and a completion only of what can be completed. -/
structure Extends (digest : Json → String) (st st' : MemoryStore) : Prop where
  grows : Grows st.recoveryReader st'.recoveryReader
  completions : ∀ ref event, st'.HoldsCompletion digest ref event →
    st.HoldsCompletion digest ref event ∨ Completable digest st' ref

theorem grows_refl (store : DispositionStoreReader) : Grows store store :=
  ⟨rfl, fun _ _ h => h⟩

theorem Completable.grows {ref : String} (hgrows : Grows st.recoveryReader st'.recoveryReader)
    (h : Completable digest st ref) : Completable digest st' ref := by
  obtain ⟨now, application, hexact, hkind⟩ := h
  exact ⟨now, application, hexact.grows hgrows now, hkind⟩

theorem extends_refl (st : MemoryStore) : Extends digest st st :=
  ⟨grows_refl _, fun _ _ h => .inl h⟩

theorem Extends.trans (h : Extends digest st st') (h' : Extends digest st' st'') :
    Extends digest st st'' := by
  refine ⟨⟨h'.grows.reads.trans h.grows.reads, fun id event hget => ?_⟩, fun ref event hholds => ?_⟩
  · exact h'.grows.events _ _ (h.grows.events _ _ hget)
  · rcases h'.completions ref event hholds with hbefore | hnew
    · rcases h.completions ref event hbefore with hfirst | hmiddle
      · exact .inl hfirst
      · exact .inr (hmiddle.grows h'.grows)
    · exact .inr hnew

theorem extends_save {event : Event} (hnew : st.getEvent event.id = none)
    (hcompletes : ∀ ref, Completes digest event ref → Completable digest st ref) :
    Extends digest st (st.save .event event) := by
  have hgrows := MemoryStore.grows_save hnew
  refine ⟨hgrows, fun ref other ⟨hget, hother⟩ => ?_⟩
  rw [MemoryStore.getEvent_save] at hget
  by_cases hid : other.id = event.id
  · rw [if_pos hid] at hget
    obtain rfl := Option.some.inj hget
    exact .inr ((hcompletes ref hother).grows hgrows)
  · rw [if_neg hid] at hget
    exact .inl ⟨hget, hother⟩

/-- The end of a call writes nothing but the completion of its exact application. -/
theorem extends_finish (exit : Exit π) (reply : ProviderAnswer) :
    Extends digest st (consumeFinish digest now st exit reply).2 := by
  unfold consumeFinish
  cases reconcileExactTarget exit reply with
  | error e => exact extends_refl st
  | ok providerResult =>
    simp only
    split
    · exact extends_refl st
    split
    · exact extends_refl st
    split
    · exact extends_refl st
    · exact extends_refl st
    · rename_i observation st' hcommit
      have hextends : Extends digest st st' := by
        obtain ⟨application, event, hexact, hkind, hdecoded, -, rfl | ⟨hnew, rfl, hbound⟩⟩ :=
          MemoryStore.commitApplicationObservation_cases hcommit
        · exact extends_refl _
        · refine extends_save hnew (fun ref ⟨observation', hdecoded', hbound'⟩ => ?_)
          obtain rfl := Except.ok.inj (hdecoded.symm.trans hdecoded')
          obtain rfl := Option.some.inj (hbound.symm.trans hbound')
          exact ⟨now, application, hexact, hkind⟩
      split
      · exact hextends
      · exact hextends

/-- Nobody else may write a completion. -/
theorem extends_append {event : Event} (h : st.appendEvent event = .ok st') :
    Extends digest st st' := by
  have htype : event.type ≠ recoveryObservationEvent := by
    intro htype
    have hrequired : MemoryStore.requiredAuthority event = some (.recoveryObservation,
        "RecoveryObservation events require commit_recovery_observation") := by
      rw [MemoryStore.requiredAuthority, htype]
      rfl
    rw [MemoryStore.appendEvent, MemoryStore.appendEventAs, hrequired] at h
    cases h
  rcases MemoryStore.appendEventAs_eq_ok h with ⟨-, -, -, rfl⟩ | ⟨hnew, rfl⟩
  · exact extends_refl _
  · apply extends_save hnew
    intro ref hreads
    obtain ⟨observation, hdecoded, _⟩ := hreads
    exact absurd (observationFromEvent_facts hdecoded).1 htype

variable [DecidableEq π]

theorem extends_move (w : Reconciling π) (m : Move π) :
    Extends digest w.store (move digest w m).store := by
  cases m with
  | consume now readings requestRef =>
    cases hbegin : consumeBegin digest now readings w.store
        (ProviderRegistry.after digest w.registrations) requestRef with
    | error outcome =>
      simp only [move, hbegin]
      exact extends_refl _
    | ok exit =>
      by_cases hreconciles : readings.reconciles exit.provider = true
      · simp only [move, hbegin, hreconciles, if_true]
        exact extends_refl _
      · simp only [move, hbegin, hreconciles]
        exact extends_finish _ _
  | resume now i reply =>
    cases hwaiting : w.waiting[i]? with
    | none =>
      simp only [move, hwaiting]
      exact extends_refl _
    | some exit =>
      simp only [move, hwaiting]
      exact extends_finish _ _
  | registry call => exact extends_refl _
  | append event =>
    cases happend : w.store.appendEvent event with
    | error e =>
      simp only [move, happend, Except.toOption, Option.getD_none]
      exact extends_refl _
    | ok st' =>
      simp only [move, happend, Except.toOption, Option.getD_some]
      exact extends_append happend

theorem extends_run (w : Reconciling π) (moves : List (Move π)) :
    Extends digest w.store (run (move digest) w moves).store :=
  run_related (I := fun _ => True) (C := fun _ _ => True)
    (R := fun (a b : Reconciling π) => Extends digest a.store b.store)
    (fun a => extends_refl a.store) (fun _ _ _ => Extends.trans) (fun _ _ _ _ => trivial)
    (fun w m _ _ => extends_move w m) trivial along_true

/-- Only a call that begins contacts a provider, and at most one. -/
theorem contacts_move (w : Reconciling π) (m : Move π) :
    (move digest w m).contacts = w.contacts ∨
      ∃ c, (move digest w m).contacts = w.contacts ++ [c] ∧
        ExactContact digest w.store w.registrations c := by
  cases m with
  | consume now readings requestRef =>
    cases hbegin : consumeBegin digest now readings w.store
        (ProviderRegistry.after digest w.registrations) requestRef with
    | error outcome =>
      simp only [move, hbegin]
      exact .inl trivial
    | ok exit =>
      by_cases hreconciles : readings.reconciles exit.provider = true
      · simp only [move, hbegin, hreconciles, if_true]
        exact .inr ⟨_, rfl, consumeBegin_eq_ok hbegin⟩
      · simp only [move, hbegin, hreconciles]
        exact .inl rfl
  | resume now i reply =>
    cases hwaiting : w.waiting[i]? with
    | none =>
      simp only [move, hwaiting]
      exact .inl trivial
    | some exit =>
      simp only [move, hwaiting]
      exact .inl rfl
  | registry call => exact .inl rfl
  | append event => exact .inl rfl

/-- A call after the completion returns its reference and does nothing else. -/
theorem move_completed {w : Reconciling π} {ref requestRef : String} {event : Event}
    {readings : ProviderReadings π} (href : Text.strip requestRef = ref)
    (hcompletable : Completable digest w.store ref)
    (hholds : w.store.HoldsCompletion digest ref event) :
    move digest w (.consume now readings requestRef) =
      { w with outcomes := w.outcomes ++ [.ok
        { status := .replayed
          recoveryApplicationRef := ref
          recoveryObservationRef := some event.id
          reason := "application reconciliation responsibility already durably completed" }] } := by
  obtain ⟨now', application, hexact, hkind⟩ := hcompletable
  rw [move, consumeBegin_completed href (hexact.grows (grows_refl _) now) hkind hholds]

/-- Whatever calls are in flight, whatever the registry configures and whatever the providers
answer: a completion is unique and stays; every contact is with the registration in force of the
recorded binding, under the recorded contract, about the recorded request; and a call after the
completion contacts nobody and returns its reference. -/
theorem reconciliation_consumer_protocol (digest : Json → String) (w : Reconciling π) (ref : String)
    (hstart : ∀ event, w.store.HoldsCompletion digest ref event → Completable digest w.store ref)
    (pre mid : List (Move π)) :
    (∀ event event', (run (move digest) w pre).store.HoldsCompletion digest ref event →
      (run (move digest) w (pre ++ mid)).store.HoldsCompletion digest ref event' → event' = event) ∧
    (∀ event, (run (move digest) w pre).store.HoldsCompletion digest ref event →
      (run (move digest) w (pre ++ mid)).store.HoldsCompletion digest ref event) ∧
    (∀ m, (move digest (run (move digest) w pre) m).contacts =
        (run (move digest) w pre).contacts ∨
      ∃ c, (move digest (run (move digest) w pre) m).contacts =
          (run (move digest) w pre).contacts ++ [c] ∧
        ExactContact digest (run (move digest) w pre).store
          (run (move digest) w pre).registrations c) ∧
    ∀ event, (run (move digest) w pre).store.HoldsCompletion digest ref event →
      ∀ now readings requestRef, Text.strip requestRef = ref →
        move digest (run (move digest) w (pre ++ mid)) (.consume now readings requestRef) =
          { run (move digest) w (pre ++ mid) with
            outcomes := (run (move digest) w (pre ++ mid)).outcomes ++ [.ok
              { status := .replayed
                recoveryApplicationRef := ref
                recoveryObservationRef := some event.id
                reason :=
                  "application reconciliation responsibility already durably completed" }] } := by
  have hkept (event : Event)
      (h : (run (move digest) w pre).store.HoldsCompletion digest ref event) :
      (run (move digest) w (pre ++ mid)).store.HoldsCompletion digest ref event := by
    rw [run_append]
    exact h.grows (extends_run _ mid).grows
  refine ⟨fun event event' h h' => h'.unique (hkept event h), hkept, contacts_move _, ?_⟩
  intro event h now readings requestRef href
  have hall : Extends digest w.store (run (move digest) w (pre ++ mid)).store := extends_run w _
  have hcompletable : Completable digest (run (move digest) w (pre ++ mid)).store ref := by
    rcases hall.completions ref event (hkept event h) with hfirst | hnew
    · exact (hstart event hfirst).grows hall.grows
    · exact hnew
  exact move_completed href hcompletable (hkept event h)

end Stores

/-! ### A query that is answered once -/

section Polled

open MemoryStore

def sameDigest : Json → String := fun _ => "None"

def pollable : Registering Unit where
  provider := ()
  descriptor := { id := "provider_1" }
  configuredExecutionIdentity := some "executor_1"
  authoritativeConfigurationRef := some "config_1"
  reconciliationRepeatability := some
    { reconciliationProtocolIdentity := "query", reconciliationProtocolVersion := "1",
      contractVersion := "1" }
  incarnation := ""

/-- The dispatch of the executed action, with what the registry captured for it. -/
def boundDispatch : Event :=
  let binding : ProviderExecutionBinding :=
    { id := "provider_execution_binding_None", providerId := "provider_1",
      configuredExecutionIdentity := "executor_1", authoritativeConfigurationRef := "config_1",
      descriptorDigest := "None", bindingDigest := "None" }
  let authority : ReconciliationRepeatabilityAuthority :=
    { id := "reconciliation_repeatability_authority_None",
      contractRef := "reconciliation_repeatability_contract_None",
      providerExecutionBindingRef := binding.id, subjectIdentity := "request_1",
      reconciliationProtocolIdentity := "query", reconciliationProtocolVersion := "1",
      contractVersion := "1", contractDigest := "None", authorityDigest := "None" }
  { MemoryStore.dispatched with
    payload := MemoryStore.dispatched.payload ++
      [("provider_execution_binding_ref", .str binding.id),
        ("provider_execution_binding", .obj binding.dump),
        ("reconciliation_repeatability_authority_ref", .str authority.id),
        ("reconciliation_repeatability_authority", .obj authority.dump)] }

def decided : Event :=
  { id := "recovery_disposition_None", createdAt := 0, type := recoveryDispositionEvent,
    subjectRef := "dispatch_None",
    payload := [("schema", .str recoveryDispositionSchema),
      ("semantic_level", .str "recovery-disposition"), ("basis_key", .str "None"),
      ("dispatch_commit_ref", .str "dispatch_None"),
      ("observation_refs", .ofStrings ["observation_1"]), ("outcome_refs", .arr []),
      ("recovery_mode", .str "reconcile"), ("effect_semantics", .str "reconcilable"),
      ("reversibility", .str "unknown"), ("policy_ref", .str "policy_1"),
      ("action", .str "reconcile-again")] }

def reconciliation : Application :=
  { id := "recovery_application_None", dispositionRef := "recovery_disposition_None",
    applicationKind := .reconciliationRequest, sourceDispatchRef := "dispatch_None",
    sourceAttemptRef := "attempt_1", sourceStepRef := "step_1", sourceActionRef := "action_1",
    sourceRequestRef := "request_1", sourceProviderId := "provider_1", sourceRunRef := "run_1",
    sourceWorkRef := "work_1", idempotencyKey := none }

/-- A store in which the reconciliation of the executed action is requested. -/
def requested : MemoryStore :=
  ((((executed .reconcilable).save .event boundDispatch).save .event polled).save .event
    decided).save .event (reconciliation.event 0)

def pollableReadings : ProviderReadings Unit :=
  { descriptor := fun _ => pollable.descriptor, reconciles := fun _ => true }

def awaiting : Reconciling Unit :=
  { store := requested, registrations := [.register pollable] }

def poll : Move Unit := .consume 0 pollableReadings "recovery_application_None"

def reply : ProviderAnswer :=
  .returned (some { requestId := "request_1", providerId := "provider_1", status := .succeeded })

def answered : List (Move Unit) := [poll, .resume 0 0 reply]

def pollExit : Exit Unit :=
  { application := reconciliation, provider := (), providerId := "provider_1",
    provenanceRefs := ["provider_execution_binding_None",
      "reconciliation_repeatability_authority_None"] }

theorem consumeBegin_poll : consumeBegin sameDigest 0 pollableReadings requested
    (ProviderRegistry.after sameDigest [.register pollable]) "recovery_application_None" =
      .ok pollExit := by
  have hexit : (consumeBegin sameDigest 0 pollableReadings requested (ProviderRegistry.after
      sameDigest [.register pollable]) "recovery_application_None").toOption = some pollExit := by
    decide
  cases hbegin : consumeBegin sameDigest 0 pollableReadings requested
      (ProviderRegistry.after sameDigest [.register pollable]) "recovery_application_None" with
  | error e =>
    rw [hbegin] at hexit
    cases hexit
  | ok exit =>
    rw [hbegin] at hexit
    exact congrArg Except.ok (Option.some.inj hexit)

theorem move_poll : move sameDigest awaiting poll =
    { awaiting with
      waiting := [pollExit]
      contacts := [{ applicationRef := "recovery_application_None", provider := ()
                     requestId := "request_1" }] } := by
  simp only [poll, move, awaiting, consumeBegin_poll]
  rfl

theorem run_answered : run (move sameDigest) awaiting answered =
    Reconciling.finish sameDigest 0
      { awaiting with
        contacts := [{ applicationRef := "recovery_application_None", provider := ()
                       requestId := "request_1" }] } pollExit reply := by
  rw [answered, run_cons, move_poll]
  rfl

theorem not_completed_requested (event : Event) :
    ¬ requested.HoldsCompletion sameDigest "recovery_application_None" event := by
  rintro ⟨hget, hcompletes⟩
  rw [hcompletes.identity.1] at hget
  have hnone : requested.getEvent (applicationObservationIdentity sameDigest
      "recovery_application_None") = none := by rfl
  exact absurd (hnone.symm.trans hget) (by simp)

theorem completed_answered : ∃ event,
    (run (move sameDigest) awaiting answered).store.HoldsCompletion sameDigest
      "recovery_application_None" event := by
  rw [run_answered]
  have hread : ((consumeFinish sameDigest 0 requested pollExit
      reply).2.getRecoveryApplicationObservation sameDigest
        "recovery_application_None").toOption.join.isSome = true := by decide
  cases hget : (consumeFinish sameDigest 0 requested pollExit
      reply).2.getRecoveryApplicationObservation sameDigest "recovery_application_None" with
  | error e =>
    rw [hget] at hread
    cases hread
  | ok stored => cases stored with
    | none =>
      rw [hget] at hread
      cases hread
    | some observation => exact MemoryStore.exists_holdsCompletion hget

/-- The provider is asked once; after it is gone a call still returns the completion. -/
theorem reconciliation_consumer_protocol_answered :
    (run (move sameDigest) awaiting answered).contacts.length = 1 ∧
      ∃ event, (run (move sameDigest) awaiting answered).store.HoldsCompletion sameDigest
          "recovery_application_None" event ∧
        (move sameDigest (run (move sameDigest) awaiting
          (answered ++ [.registry (.unregister "provider_1")])) poll).contacts.length = 1 := by
  obtain ⟨-, -, -, hreplay⟩ := reconciliation_consumer_protocol sameDigest awaiting
    "recovery_application_None" (fun event h => absurd h (not_completed_requested event)) answered
    [.registry (.unregister "provider_1")]
  obtain ⟨event, hcompleted⟩ := completed_answered
  refine ⟨by rw [run_answered]; rfl, event, hcompleted, ?_⟩
  rw [poll, hreplay event hcompleted 0 pollableReadings "recovery_application_None" (by decide),
    run_append, run_answered]
  rfl

end Polled

end ReconciliationConsumer
end PortableRuntime
