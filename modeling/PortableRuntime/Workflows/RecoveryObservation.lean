import PortableRuntime.Workflows.RetrySafety

/-!
# Observations that complete an application

A reported fact about a committed dispatch is recorded under the identity of the application that
asked for it.  The graph of the dispatch is read again before anything is written, and an identity
that is taken is replayed or refused.
-/

namespace PortableRuntime
namespace Recovery

/-! ## One observation of one dispatch -/

/-- Caller claim identifying one observation instance of one dispatch. -/
structure ObservationCommitRequest where
  observationInstanceRef : String
  dispatchCommitRef : String
  observationSource : String
  reportedStatus : String
  provenanceRefs : List String

structure PreparedObservationCommit where
  observation : Observation
  event : Event

section Prepare

variable (digest : Json → String) (now : Time) (store : DispositionStoreReader)

def observationId (instanceRef : String) : String :=
  "recovery_observation_" ++ shortDigest (digest (.obj
    [("schema", .str recoveryObservationSchema), ("observation_instance_ref", .str instanceRef)]))

/-- Re-read a committed dispatch graph and build one observation fact. -/
def prepareObservationCommit (request : ObservationCommitRequest) :
    Result PreparedObservationCommit := do
  let instanceRef := Text.strip request.observationInstanceRef
  let dispatchRef := Text.strip request.dispatchCommitRef
  let source := Text.strip request.observationSource
  guardValue (instanceRef ≠ "" && dispatchRef ≠ "" && source ≠ "")
    "recovery observation requires instance, dispatch, and source refs"
  guardValue (reportedStatuses.contains request.reportedStatus)
    "invalid recovery observation reported status"
  let provenance := Text.normalized request.provenanceRefs
  guardValue (provenance.length == request.provenanceRefs.length)
    "recovery observation provenance refs must be non-empty and unique"
  let dispatch ← orRaise ((store.getEvent dispatchRef).filter
      (fun e => e.type == Governance.dispatchCommitEvent))
    "recovery observation requires exact InvocationDispatchCommitted event"
  let payload := dispatch.payload
  guardValue ((payload.get "schema").eqStr Governance.dispatchCommitSchema)
    "recovery observation dispatch schema mismatch"
  guardValue ((payload.get "linearization_domain").eqStr "authoritative-state-store")
    "recovery observation dispatch linearization domain mismatch"
  let identity ← Governance.dispatchCommitIdentityFromPayload digest payload
  guardValue (identity == dispatch.id && dispatch.id == dispatchRef)
    "recovery observation dispatch deterministic identity mismatch"
  let requestRef ← requiredPayloadString payload "request_id"
  let providerId ← requiredPayloadString payload "provider_id"
  let attemptRef ← requiredPayloadString payload "attempt_ref"
  guardValue (dispatch.subjectRef == requestRef)
    "recovery observation dispatch subject binding mismatch"
  let attempt ← orRaise (store.getAttempt attemptRef)
    "recovery observation requires durable StepAttempt"
  let metadata := attempt.metadata
  guardValue ((metadata.get "dispatch_commit_ref").eqStr dispatchRef)
    "recovery observation attempt/dispatch binding mismatch"
  guardValue (attempt.requestRef == some requestRef && attempt.providerId == some providerId)
    "recovery observation attempt request/provider binding mismatch"
  checkEach (fun key => guardValue ((metadata.get key).pyEq (payload.get key))
    s!"recovery observation dispatch {key} binding mismatch") permitDigestKeys
  guardValue ((Json.int attempt.leaseGeneration).pyEq (payload.get "lease_generation"))
    "recovery observation lease generation binding mismatch"
  let step ← orRaise (store.getStep attempt.stepId) "recovery observation requires durable Step"
  let actionRef ← orRaise ((metadata.get "action_ref").asStr?.filter (· ≠ ""))
    "recovery observation requires exact Attempt-to-Action binding"
  let action ← orRaise (store.getAction actionRef) "recovery observation requires durable Action"
  guardValue (action.requestRef == requestRef && action.providerId == providerId)
    "recovery observation Action request/provider binding mismatch"
  guardValue (action.runId == step.runId) "recovery observation Action/Step run binding mismatch"
  let event : Event :=
    { id := observationId digest instanceRef, createdAt := now, type := recoveryObservationEvent,
      subjectRef := dispatchRef,
      payload := [("schema", .str recoveryObservationSchema),
        ("semantic_level", .str "recovery-observation"), ("authoritative_outcome", .bool false),
        ("observation_instance_ref", .str instanceRef), ("dispatch_commit_ref", .str dispatchRef),
        ("action_ref", .str action.id), ("attempt_ref", .str attempt.id),
        ("step_ref", .str step.id), ("request_ref", .str requestRef),
        ("provider_id", .str providerId), ("idempotency_key", .ofOption attempt.idempotencyKey),
        ("observation_source", .str source), ("reported_status", .str request.reportedStatus),
        ("provenance_refs", .ofStrings provenance)] }
  return { observation := ← observationFromEvent digest event, event }

/-! ## The observation of an application -/

/-- Caller supplies only exact application identity and reported observation fact. -/
structure ApplicationObservationCommitRequest where
  recoveryApplicationRef : String
  observationSource : String
  reportedStatus : String
  provenanceRefs : List String

/-- The durable application of a reference, whose source graph still replays. -/
def exactApplication (applicationRef : String) : Result Application := do
  let ref := Text.strip applicationRef
  guardValue (ref ≠ "") "application-bound RecoveryObservation requires recovery_application_ref"
  let event ← orRaise ((store.getEvent ref).filter (fun e => e.id == ref))
    "application-bound RecoveryObservation requires exact durable RecoveryApplication"
  let application ← applicationFromEvent digest event
  let replay ← prepareApplicationCommit digest now store application.dispositionRef
  guardValue (replay.application.id == ref && replay.replayed)
    "application-bound RecoveryObservation source application rebound"
  guardValue (application = replay.application)
    "application-bound RecoveryObservation application semantics rebound"
  guardValue (application.applicationKind = .reconciliationRequest)
    "application-bound RecoveryObservation requires reconciliation-request application kind"
  return application

/-- The fields of an application and of its observation that must agree. -/
def graphPairs (application : Application) (observation : Observation) :
    List (String × String × String) :=
  [("dispatch", application.sourceDispatchRef, observation.dispatchCommitRef),
    ("attempt", application.sourceAttemptRef, observation.attemptRef),
    ("step", application.sourceStepRef, observation.stepRef),
    ("action", application.sourceActionRef, observation.actionRef),
    ("request", application.sourceRequestRef, observation.requestRef),
    ("provider", application.sourceProviderId, observation.providerId)]

def assertApplicationGraph (application : Application) (observation : Observation) :
    Result Unit :=
  let mismatched := ((graphPairs application observation).filter (fun e => e.2.1 ≠ e.2.2)).map
    Prod.fst
  guardValue mismatched.isEmpty
    ("application-bound RecoveryObservation source graph rebound: " ++
      String.intercalate ", " mismatched)

/-- Prepare one deterministic completion observation for one exact application. -/
def prepareApplicationObservationCommit (request : ApplicationObservationCommitRequest) :
    Result PreparedObservationCommit := do
  let application ← exactApplication digest now store request.recoveryApplicationRef
  let source := Text.strip request.observationSource
  guardValue (source ≠ "") "application-bound RecoveryObservation requires observation_source"
  let applicationRef ← requiredString "recovery observation" (.str application.id)
    "recovery_application_ref"
  let generic ← prepareObservationCommit digest now store
    { observationInstanceRef := applicationObservationInstanceRef applicationRef
      dispatchCommitRef := application.sourceDispatchRef
      observationSource := source
      reportedStatus := request.reportedStatus
      provenanceRefs := request.provenanceRefs }
  assertApplicationGraph application generic.observation
  let event : Event :=
    { id := applicationObservationIdentity digest applicationRef, createdAt := now,
      type := generic.event.type, subjectRef := application.id,
      payload := (generic.event.payload.put "observation_role" (.str reconciliationRole)).put
        "recovery_application_ref" (.str application.id) }
  return { observation := ← observationFromEvent digest event, event }

end Prepare

/-! ## What a decoded observation says -/

variable {digest : Json → String} {now later : Time} {store store' : DispositionStoreReader}

theorem observedApplication_eq_some {event : Event} {instanceRef ref : String}
    (h : observedApplication digest event instanceRef = .ok (some ref)) :
    requiredString "recovery observation" (event.payload.get "recovery_application_ref")
        "recovery_application_ref" = .ok ref ∧
      event.id = applicationObservationIdentity digest ref ∧ event.subjectRef = ref := by
  unfold observedApplication at h
  dsimp only at h
  split at h
  · obtain ⟨-, h⟩ := Result.check_eq_ok.mp h
    exact absurd (Result.pure_eq_ok.mp h) (by simp)
  · obtain ⟨found, hfound, h⟩ := Result.bind_eq_ok.mp h
    obtain ⟨-, h⟩ := Result.check_eq_ok.mp h
    obtain ⟨-, h⟩ := Result.check_eq_ok.mp h
    obtain ⟨hidentity, h⟩ := Result.check_eq_ok.mp h
    obtain rfl := Option.some.inj (Result.pure_eq_ok.mp h)
    rw [guardValue_eq_ok, Bool.and_eq_true, beq_iff_eq, beq_iff_eq] at hidentity
    exact ⟨hfound, hidentity⟩

theorem observedApplication_ne_none {event : Event} {instanceRef s : String}
    (hnamed : event.payload.get "recovery_application_ref" = .str s) :
    observedApplication digest event instanceRef ≠ .ok none := by
  intro h
  unfold observedApplication at h
  simp only [hnamed] at h
  obtain ⟨found, -, h⟩ := Result.bind_eq_ok.mp h
  obtain ⟨-, h⟩ := Result.check_eq_ok.mp h
  obtain ⟨-, h⟩ := Result.check_eq_ok.mp h
  obtain ⟨-, h⟩ := Result.check_eq_ok.mp h
  exact absurd (Result.pure_eq_ok.mp h) (by simp)

theorem observationFromEvent_facts {event : Event} {observation : Observation}
    (h : observationFromEvent digest event = .ok observation) :
    event.type = recoveryObservationEvent ∧ observation.id = event.id ∧ ∃ instanceRef,
      observedApplication digest event instanceRef = .ok observation.recoveryApplicationRef := by
  rw [observationFromEvent] at h
  obtain ⟨htype, h⟩ := Result.check_eq_ok.mp h
  obtain ⟨-, h⟩ := Result.check_eq_ok.mp h
  obtain ⟨-, h⟩ := Result.check_eq_ok.mp h
  obtain ⟨-, h⟩ := Result.check_eq_ok.mp h
  obtain ⟨reported, -, h⟩ := Result.bind_eq_ok.mp h
  obtain ⟨-, h⟩ := Result.check_eq_ok.mp h
  obtain ⟨provenance, -, h⟩ := Result.bind_eq_ok.mp h
  obtain ⟨-, h⟩ := Result.check_eq_ok.mp h
  obtain ⟨instanceRef, -, h⟩ := Result.bind_eq_ok.mp h
  obtain ⟨applicationRef, happlication, h⟩ := Result.bind_eq_ok.mp h
  obtain ⟨dispatchRef, -, h⟩ := Result.bind_eq_ok.mp h
  obtain ⟨actionRef, -, h⟩ := Result.bind_eq_ok.mp h
  obtain ⟨attemptRef, -, h⟩ := Result.bind_eq_ok.mp h
  obtain ⟨stepRef, -, h⟩ := Result.bind_eq_ok.mp h
  obtain ⟨requestRef, -, h⟩ := Result.bind_eq_ok.mp h
  obtain ⟨providerId, -, h⟩ := Result.bind_eq_ok.mp h
  obtain ⟨source, -, h⟩ := Result.bind_eq_ok.mp h
  obtain rfl := Result.pure_eq_ok.mp h
  rw [guardValue_eq_ok, beq_iff_eq] at htype
  exact ⟨htype, rfl, instanceRef, happlication⟩

/-- An event that decodes as the completion of one application. -/
def Completes (digest : Json → String) (event : Event) (applicationRef : String) : Prop :=
  ∃ observation, observationFromEvent digest event = .ok observation ∧
    observation.recoveryApplicationRef = some applicationRef

/-- The identity of a completion is that of its application, which is written without blanks
around it. -/
theorem Completes.identity {event : Event} {ref : String} (h : Completes digest event ref) :
    event.id = applicationObservationIdentity digest ref ∧ Text.strip ref = ref ∧
      Text.nonBlank ref = true := by
  obtain ⟨observation, hdecoded, href⟩ := h
  obtain ⟨-, -, instanceRef, hobserved⟩ := observationFromEvent_facts hdecoded
  rw [href] at hobserved
  obtain ⟨hrequired, hid, -⟩ := observedApplication_eq_some hobserved
  obtain ⟨s, -, hblank, rfl⟩ := requiredString_eq_ok.mp hrequired
  exact ⟨hid, Text.strip_strip s, (Text.nonBlank_strip s).trans hblank⟩

/-! ## Exact applications -/

/-- A durable application whose source graph still replays. -/
structure Exact (digest : Json → String) (now : Time) (store : DispositionStoreReader)
    (ref : String) (application : Application) : Prop where
  event : ∃ event, store.getEvent ref = some event ∧ event.id = ref ∧
    applicationFromEvent digest event = .ok application
  replay : prepareApplicationCommit digest now store application.dispositionRef =
    .ok { application, event := none, replayed := true }

theorem applicationFromEvent_id {event : Event} {application : Application}
    (h : applicationFromEvent digest event = .ok application) : application.id = event.id := by
  rw [applicationFromEvent] at h
  obtain ⟨-, h⟩ := Result.check_eq_ok.mp h
  obtain ⟨-, h⟩ := Result.check_eq_ok.mp h
  obtain ⟨-, h⟩ := Result.check_eq_ok.mp h
  obtain ⟨dispositionRef, -, h⟩ := Result.bind_eq_ok.mp h
  obtain ⟨kind, -, h⟩ := Result.bind_eq_ok.mp h
  obtain ⟨-, h⟩ := Result.check_eq_ok.mp h
  obtain ⟨-, h⟩ := Result.check_eq_ok.mp h
  obtain ⟨-, h⟩ := Result.check_eq_ok.mp h
  obtain ⟨-, h⟩ := Result.check_eq_ok.mp h
  obtain ⟨dispatch, -, h⟩ := Result.bind_eq_ok.mp h
  obtain ⟨attempt, -, h⟩ := Result.bind_eq_ok.mp h
  obtain ⟨step, -, h⟩ := Result.bind_eq_ok.mp h
  obtain ⟨action, -, h⟩ := Result.bind_eq_ok.mp h
  obtain ⟨request, -, h⟩ := Result.bind_eq_ok.mp h
  obtain ⟨provider, -, h⟩ := Result.bind_eq_ok.mp h
  obtain ⟨run, -, h⟩ := Result.bind_eq_ok.mp h
  obtain ⟨work, -, h⟩ := Result.bind_eq_ok.mp h
  obtain rfl := Result.pure_eq_ok.mp h
  rfl

theorem Exact.id {ref : String} {application : Application}
    (h : Exact digest now store ref application) : application.id = ref := by
  obtain ⟨event, -, hid, hdecoded⟩ := h.event
  exact (applicationFromEvent_id hdecoded).trans hid

/-- A replay finds the recorded application and writes nothing. -/
theorem prepareApplicationCommit_replayed {dispositionRef : String}
    {plan : PreparedApplicationCommit}
    (h : prepareApplicationCommit digest now store dispositionRef = .ok plan)
    (hreplayed : plan.replayed = true) : plan.event = none := by
  rw [prepareApplicationCommit] at h
  obtain ⟨ref, -, h⟩ := Result.bind_eq_ok.mp h
  obtain ⟨expected, -, h⟩ := Result.bind_eq_ok.mp h
  cases hget : store.getEvent expected.id with
  | some existing =>
    simp only [hget] at h
    obtain ⟨durable, -, h⟩ := Result.bind_eq_ok.mp h
    obtain ⟨-, h⟩ := Result.check_eq_ok.mp h
    obtain rfl := Result.pure_eq_ok.mp h
    rfl
  | none =>
    simp only [hget] at h
    obtain rfl := Result.pure_eq_ok.mp h
    cases hreplayed

/-- An application stays exact while its sources do. -/
theorem Exact.grows {ref : String} {application : Application} (hgrows : Grows store store')
    (later : Time) (h : Exact digest now store ref application) :
    Exact digest later store' ref application := by
  obtain ⟨event, hevent, hid, hdecoded⟩ := h.event
  refine ⟨⟨event, hgrows.events _ _ hevent, hid, hdecoded⟩, ?_⟩
  have hreplay := h.replay
  rw [prepareApplicationCommit, Result.bind_eq_ok] at hreplay ⊢
  obtain ⟨dispositionRef, hdisposition, hreplay⟩ := hreplay
  obtain ⟨expected, hexpected, hreplay⟩ := Result.bind_eq_ok.mp hreplay
  refine ⟨dispositionRef, hdisposition, Result.bind_eq_ok.mpr
    ⟨expected, (hgrows.source dispositionRef).application later hexpected, ?_⟩⟩
  cases hget : store.getEvent expected.id with
  | none =>
    simp only [hget] at hreplay
    exact absurd (Result.pure_eq_ok.mp hreplay) (by simp)
  | some existing =>
    simp only [hget] at hreplay
    simp only [hgrows.events _ _ hget]
    exact hreplay

theorem exactApplication_eq_ok {applicationRef : String} {application : Application} :
    exactApplication digest now store applicationRef = .ok application ↔
      Text.strip applicationRef ≠ "" ∧
        Exact digest now store (Text.strip applicationRef) application ∧
        application.applicationKind = .reconciliationRequest := by
  rw [exactApplication, Result.check_eq_ok, guardValue_eq_ok]
  constructor
  · rintro ⟨hblank, h⟩
    obtain ⟨event, hevent, h⟩ := Result.bind_eq_ok.mp h
    obtain ⟨decoded, hdecoded, h⟩ := Result.bind_eq_ok.mp h
    obtain ⟨plan, hplan, h⟩ := Result.bind_eq_ok.mp h
    obtain ⟨hreplayed, h⟩ := Result.check_eq_ok.mp h
    obtain ⟨hsame, h⟩ := Result.check_eq_ok.mp h
    obtain ⟨hkind, h⟩ := Result.check_eq_ok.mp h
    obtain rfl := Result.pure_eq_ok.mp h
    rw [guardValue_eq_ok, Bool.and_eq_true] at hreplayed
    rw [guardValue_eq_ok] at hsame hkind
    rw [orRaise_eq_ok, Option.filter_eq_some_iff, beq_iff_eq] at hevent
    refine ⟨of_decide_eq_true hblank, ⟨⟨event, hevent.1, hevent.2, hdecoded⟩, ?_⟩,
      of_decide_eq_true hkind⟩
    rw [hplan, Except.ok.injEq]
    obtain ⟨planned, written, replayed⟩ := plan
    obtain rfl : decoded = planned := of_decide_eq_true hsame
    obtain rfl : replayed = true := hreplayed.2
    obtain rfl : written = none := prepareApplicationCommit_replayed hplan rfl
    rfl
  · rintro ⟨hblank, hexact, hkind⟩
    obtain ⟨event, hevent, hid, hdecoded⟩ := hexact.event
    refine ⟨decide_eq_true hblank, Result.bind_eq_ok.mpr ⟨event, ?_, Result.bind_eq_ok.mpr
      ⟨application, hdecoded, Result.bind_eq_ok.mpr ⟨_, hexact.replay, ?_⟩⟩⟩⟩
    · rw [orRaise_eq_ok, Option.filter_eq_some_iff, beq_iff_eq]
      exact ⟨hevent, hid⟩
    · refine Result.check_eq_ok.mpr ⟨?_, Result.check_eq_ok.mpr ⟨?_, Result.check_eq_ok.mpr ⟨?_, rfl⟩⟩⟩
      · rw [guardValue_eq_ok, Bool.and_eq_true, beq_iff_eq]
        exact ⟨hexact.id, rfl⟩
      · exact guardValue_eq_ok.mpr (decide_eq_true rfl)
      · exact guardValue_eq_ok.mpr (decide_eq_true hkind)

/-- What is prepared completes the exact application that was asked for. -/
theorem prepareApplicationObservation_eq_ok {request : ApplicationObservationCommitRequest}
    {prepared : PreparedObservationCommit}
    (h : prepareApplicationObservationCommit digest now store request = .ok prepared) :
    ∃ application, Exact digest now store (Text.strip request.recoveryApplicationRef) application ∧
      application.applicationKind = .reconciliationRequest ∧
      observationFromEvent digest prepared.event = .ok prepared.observation ∧
      prepared.observation.recoveryApplicationRef =
        some (Text.strip request.recoveryApplicationRef) ∧
      prepared.event.id =
        applicationObservationIdentity digest (Text.strip request.recoveryApplicationRef) := by
  rw [prepareApplicationObservationCommit, Result.bind_eq_ok] at h
  obtain ⟨application, happlication, h⟩ := h
  obtain ⟨-, hexact, hkind⟩ := exactApplication_eq_ok.mp happlication
  obtain ⟨-, h⟩ := Result.check_eq_ok.mp h
  obtain ⟨ref, href, h⟩ := Result.bind_eq_ok.mp h
  obtain ⟨generic, -, h⟩ := Result.bind_eq_ok.mp h
  obtain ⟨-, h⟩ := Result.check_eq_ok.mp h
  obtain ⟨observation, hdecoded, h⟩ := Result.bind_eq_ok.mp h
  obtain rfl := Result.pure_eq_ok.mp h
  refine ⟨application, hexact, hkind, hdecoded, ?_⟩
  have hnamed : Fields.get ((generic.event.payload.put "observation_role"
      (.str reconciliationRole)).put "recovery_application_ref" (.str application.id))
        "recovery_application_ref" = .str application.id := by
    rw [Fields.get, Fields.get?_put_self]
    rfl
  obtain ⟨-, -, instanceRef, hobserved⟩ := observationFromEvent_facts hdecoded
  cases hbound : observation.recoveryApplicationRef with
  | none => exact absurd (hbound ▸ hobserved) (observedApplication_ne_none hnamed)
  | some bound =>
    rw [hbound] at hobserved
    obtain ⟨hrequired, hid, hsubject⟩ := observedApplication_eq_some hobserved
    have hbound : application.id = bound := hsubject
    rw [← hbound, hexact.id] at hid
    rw [← hbound, hexact.id]
    exact ⟨rfl, hid⟩

end Recovery

namespace MemoryStore

open Recovery

/-- Commit or replay the completion of one application. -/
def commitRecoveryApplicationObservation (digest : Json → String) (now : Time) (st : MemoryStore)
    (request : ApplicationObservationCommitRequest) : Result (Observation × MemoryStore) := do
  let prepared ← prepareApplicationObservationCommit digest now st.recoveryReader request
  match st.getEvent prepared.event.id with
  | some existing =>
    guardValue (sameEvent existing prepared.event)
      "RecoveryApplicationObservation identity semantics rebound"
    return (← observationFromEvent digest existing, st)
  | none =>
    return (prepared.observation, ← st.appendEventAs (some .recoveryObservation) prepared.event)

def getRecoveryApplicationObservation (digest : Json → String) (st : MemoryStore)
    (applicationRef : String) : Result (Option Observation) := do
  let ref ← requiredString "recovery observation" (.str applicationRef) "recovery_application_ref"
  match st.getEvent (applicationObservationIdentity digest ref) with
  | none => return none
  | some event =>
    let observation ← observationFromEvent digest event
    guardValue (observation.recoveryApplicationRef = some applicationRef)
      "RecoveryApplicationObservation application binding mismatch"
    return some observation

variable {digest : Json → String} {now : Time} {st st' : MemoryStore}

/-- An accepted completion is found under the identity of its exact application, and was there
before or is the only thing written. -/
theorem commitApplicationObservation_cases {request : ApplicationObservationCommitRequest}
    {observation : Observation}
    (h : st.commitRecoveryApplicationObservation digest now request = .ok (observation, st')) :
    ∃ application event,
      Exact digest now st.recoveryReader (Text.strip request.recoveryApplicationRef) application ∧
      application.applicationKind = .reconciliationRequest ∧
      observationFromEvent digest event = .ok observation ∧
      st'.getEvent (applicationObservationIdentity digest
        (Text.strip request.recoveryApplicationRef)) = some event ∧
      (st' = st ∨ st.getEvent event.id = none ∧ st' = st.save .event event ∧
        observation.recoveryApplicationRef = some (Text.strip request.recoveryApplicationRef)) := by
  rw [commitRecoveryApplicationObservation, Result.bind_eq_ok] at h
  obtain ⟨prepared, hprepared, h⟩ := h
  obtain ⟨application, hexact, hkind, hdecoded, hbound, hid⟩ :=
    prepareApplicationObservation_eq_ok hprepared
  cases hget : st.getEvent prepared.event.id with
  | some existing =>
    simp only [hget] at h
    obtain ⟨-, h⟩ := Result.check_eq_ok.mp h
    obtain ⟨decoded, hdecoded, h⟩ := Result.bind_eq_ok.mp h
    obtain ⟨rfl, rfl⟩ := Prod.mk.inj (Result.pure_eq_ok.mp h)
    exact ⟨application, existing, hexact, hkind, hdecoded, hid ▸ hget, .inl rfl⟩
  | none =>
    simp only [hget] at h
    obtain ⟨st'', happend, h⟩ := Result.bind_eq_ok.mp h
    obtain ⟨rfl, rfl⟩ := Prod.mk.inj (Result.pure_eq_ok.mp h)
    rcases appendEventAs_eq_ok happend with ⟨existing, hexisting, -⟩ | ⟨hnone, rfl⟩
    · exact absurd (hget.symm.trans hexisting) (by simp)
    · refine ⟨application, prepared.event, hexact, hkind, hdecoded, ?_, .inr ⟨hnone, rfl, hbound⟩⟩
      rw [← hid, getEvent_save, if_pos rfl]

/-- A store that holds the completion of an application. -/
def HoldsCompletion (digest : Json → String) (st : MemoryStore) (ref : String) (event : Event) : Prop :=
  st.getEvent event.id = some event ∧ Completes digest event ref

theorem HoldsCompletion.unique {ref : String} {event event' : Event} (h : st.HoldsCompletion digest ref event)
    (h' : st.HoldsCompletion digest ref event') : event = event' := by
  have hid : event.id = event'.id := h.2.identity.1.trans h'.2.identity.1.symm
  exact Option.some.inj (h.1.symm.trans (hid ▸ h'.1))

theorem HoldsCompletion.grows {ref : String} {event : Event}
    (hgrows : Grows st.recoveryReader st'.recoveryReader) (h : st.HoldsCompletion digest ref event) :
    st'.HoldsCompletion digest ref event :=
  ⟨hgrows.events _ _ h.1, h.2⟩

/-- What is completed is read back as completed. -/
theorem HoldsCompletion.get {ref : String} {event : Event} (h : st.HoldsCompletion digest ref event) :
    ∃ observation, st.getRecoveryApplicationObservation digest ref = .ok (some observation) ∧
      observation.recoveryApplicationRef = some ref ∧ observation.id = event.id := by
  obtain ⟨hid, hstrip, hblank⟩ := h.2.identity
  obtain ⟨observation, hdecoded, hbound⟩ := h.2
  refine ⟨observation, ?_, hbound, (observationFromEvent_facts hdecoded).2.1⟩
  rw [getRecoveryApplicationObservation, Result.bind_eq_ok]
  refine ⟨ref, requiredString_eq_ok.mpr ⟨ref, rfl, hblank, hstrip⟩, ?_⟩
  simp only [← hid, h.1]
  exact Result.bind_eq_ok.mpr ⟨observation, hdecoded,
    Result.check_eq_ok.mpr ⟨guardValue_eq_ok.mpr (decide_eq_true hbound), rfl⟩⟩

/-- What is read back is held. -/
theorem exists_holdsCompletion {ref : String} {observation : Observation}
    (h : st.getRecoveryApplicationObservation digest ref = .ok (some observation)) :
    ∃ event, st.HoldsCompletion digest ref event := by
  obtain ⟨normal, hnormal, h⟩ := Result.bind_eq_ok.mp h
  cases hget : st.getEvent (applicationObservationIdentity digest normal) with
  | none =>
    simp only [hget] at h
    cases h
  | some event =>
    simp only [hget] at h
    obtain ⟨decoded, hdecoded, h⟩ := Result.bind_eq_ok.mp h
    obtain ⟨hbound, h⟩ := Result.check_eq_ok.mp h
    obtain rfl : decoded = observation := Option.some.inj (Result.pure_eq_ok.mp h)
    have hcompletes : Completes digest event ref :=
      ⟨decoded, hdecoded, of_decide_eq_true (guardValue_eq_ok.mp hbound)⟩
    obtain ⟨hid, hstrip, -⟩ := hcompletes.identity
    obtain ⟨s, hs, -, rfl⟩ := requiredString_eq_ok.mp hnormal
    obtain rfl := Json.str.inj hs
    rw [hstrip] at hget
    exact ⟨event, hid ▸ hget, hcompletes⟩

end MemoryStore
end PortableRuntime
