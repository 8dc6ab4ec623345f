import PortableRuntime.Governance.DispatchCommit

/-!
# Recovery dispositions

A policy decides once, over a basis that is rebuilt from the durable facts, and the decision is
recorded under the identity of its basis.
-/

namespace PortableRuntime

inductive DispatchRecoveryMode where
  | uncommitted | idempotentRetry | reconcile | unknown
deriving Repr, DecidableEq, Inhabited

def DispatchRecoveryMode.text : DispatchRecoveryMode → String
  | .uncommitted => "uncommitted"
  | .idempotentRetry => "idempotent-retry"
  | .reconcile => "reconcile"
  | .unknown => "unknown"

/-- Classify recovery after a durable dispatch commitment. -/
def dispatchRecoveryMode (step : Step) (attempt : StepAttempt) : DispatchRecoveryMode :=
  if !(attempt.metadata.get "dispatch_commit_ref").truthy then .uncommitted
  else match step.effectSemantics with
    | .pure | .idempotent | .deduplicatable => .idempotentRetry
    | .reconcilable => .reconcile
    | .irreversibleOpaque => .unknown

inductive RecoveryDispositionAction where
  | holdUnresolved | reconcileAgain | retryIdempotent | requireManualResolution
  | acceptObjectiveResolution
deriving Repr, DecidableEq, Inhabited

namespace RecoveryDispositionAction

def text : RecoveryDispositionAction → String
  | .holdUnresolved => "hold-unresolved"
  | .reconcileAgain => "reconcile-again"
  | .retryIdempotent => "retry-idempotent"
  | .requireManualResolution => "require-manual-resolution"
  | .acceptObjectiveResolution => "accept-objective-resolution"

/-- `_ALLOWED_ACTIONS`. -/
def all : List RecoveryDispositionAction :=
  [.holdUnresolved, .reconcileAgain, .retryIdempotent, .requireManualResolution,
    .acceptObjectiveResolution]

def ofText? (s : String) : Option RecoveryDispositionAction := all.find? (fun a => a.text == s)

end RecoveryDispositionAction

namespace Recovery

def recoveryDispositionEvent : String := "RecoveryDispositionRecorded"
def recoveryDispositionSchema : String := "recovery-disposition-v1"
def recoveryObservationEvent : String := "RecoveryObservationRecorded"
def recoveryObservationSchema : String := "recovery-observation-v1"

/-- Exact caller-selected fact refs plus one policy identity. -/
structure DispositionCommitRequest where
  dispatchCommitRef : String
  observationRefs : List String
  outcomeRefs : List String
  policyRef : String

/-- The facts that a basis is identified by. -/
structure BasisFacts where
  dispatchCommitRef : String
  observationRefs : List String
  outcomeRefs : List String
  recoveryMode : DispatchRecoveryMode
  effectSemantics : String
  reversibility : String
  policyRef : String

/-- Authoritatively reconstructed, canonical decision basis. -/
structure DispositionBasis extends BasisFacts where
  basisKey : String
  actionRef : String
  attemptRef : String
  stepRef : String
  requestRef : String
  providerId : String
  runRef : String
  workRef : String

/-- One prepared recovery decision for one exact basis identity. -/
structure Disposition extends BasisFacts where
  id : String
  basisKey : String
  action : RecoveryDispositionAction

/-- The reads of the derivation, over those that preparing a verified outcome makes. -/
structure DispositionStoreReader extends VerifiedOutcomeStoreReader where
  getEvent : String → Option Event

/-- `_required_string`, in the words of its owner. -/
def requiredString (owner : String) (value : Json) (label : String) : Result String :=
  match value with
  | .str s => if Text.nonBlank s then .ok (Text.strip s) else raiseValue s!"{owner} requires {label}"
  | _ => raiseValue s!"{owner} requires {label}"

def canonicalRefs (refs : List String) (label : String) (required : Bool) :
    Result (List String) := do
  guardValue (refs.all Text.nonBlank)
    s!"recovery disposition {label} refs must be non-empty strings"
  let canonical := Text.sortedUnique (refs.map Text.strip)
  guardValue (!(required && canonical.isEmpty)) s!"recovery disposition requires {label} refs"
  return canonical

section Disposition

variable (digest : Json → String)

def basisIdentity (facts : BasisFacts) : String :=
  digest (.obj [("schema", .str recoveryDispositionSchema),
    ("dispatch_commit_ref", .str facts.dispatchCommitRef),
    ("observation_refs", .ofStrings facts.observationRefs),
    ("outcome_refs", .ofStrings facts.outcomeRefs),
    ("recovery_mode", .str facts.recoveryMode.text),
    ("effect_semantics", .str facts.effectSemantics),
    ("reversibility", .str facts.reversibility), ("policy_ref", .str facts.policyRef)])

/-! ## The dispatch and its graph -/

structure DispatchGraph where
  dispatch : Event
  attempt : StepAttempt
  step : Step
  action : Action
  run : Run
  work : Work

def permitDigestKeys : List String :=
  ["invocation_permit_digest", "governance_requirement_digest", "governance_snapshot_digest"]

def reconstructDispatchGraph (store : DispositionStoreReader) (dispatchRef : String) :
    Result DispatchGraph := do
  let owner := "recovery disposition"
  let dispatch ← orRaise ((store.getEvent dispatchRef).filter
      (fun e => e.type == Governance.dispatchCommitEvent))
    "recovery disposition requires exact InvocationDispatchCommitted event"
  let payload := dispatch.payload
  guardValue ((payload.get "schema").eqStr Governance.dispatchCommitSchema)
    "recovery disposition dispatch schema mismatch"
  guardValue ((payload.get "linearization_domain").eqStr "authoritative-state-store")
    "recovery disposition dispatch linearization domain mismatch"
  let identity ← Governance.dispatchCommitIdentityFromPayload digest payload
  guardValue (identity == dispatch.id && dispatch.id == dispatchRef)
    "recovery disposition dispatch deterministic identity mismatch"
  let requestRef ← requiredString owner (payload.get "request_id") "dispatch request_ref"
  let providerId ← requiredString owner (payload.get "provider_id") "dispatch provider_id"
  let attemptRef ← requiredString owner (payload.get "attempt_ref") "dispatch attempt_ref"
  guardValue (dispatch.subjectRef == requestRef)
    "recovery disposition dispatch subject binding mismatch"
  let attempt ← orRaise (store.getAttempt attemptRef)
    "recovery disposition requires durable StepAttempt"
  let metadata := attempt.metadata
  guardValue ((metadata.get "dispatch_commit_ref").eqStr dispatchRef)
    "recovery disposition attempt/dispatch binding mismatch"
  guardValue (attempt.requestRef == some requestRef && attempt.providerId == some providerId)
    "recovery disposition attempt request/provider binding mismatch"
  checkEach (fun key => guardValue ((metadata.get key).pyEq (payload.get key))
    s!"recovery disposition dispatch {key} binding mismatch") permitDigestKeys
  guardValue ((Json.int attempt.leaseGeneration).pyEq (payload.get "lease_generation"))
    "recovery disposition lease generation binding mismatch"
  let step ← orRaise (store.getStep attempt.stepId) "recovery disposition requires durable Step"
  let actionRef ← requiredString owner (metadata.get "action_ref") "Attempt-to-Action binding"
  let action ← orRaise (store.getAction actionRef) "recovery disposition requires durable Action"
  guardValue (action.requestRef == requestRef && action.providerId == providerId)
    "recovery disposition Action request/provider binding mismatch"
  guardValue (action.runId == step.runId) "recovery disposition Action/Step run binding mismatch"
  let run ← orRaise ((store.getRun step.runId).filter (fun r => r.id == action.runId))
    "recovery disposition requires exact Run binding"
  let work ← orRaise ((store.getWork run.workId).filter (fun w => action.workId == w.id))
    "recovery disposition requires exact Work binding"
  return { dispatch, attempt, step, action, run, work }

/-! ## Observations -/

inductive ReportedStatus where
  | succeeded | failed | unknown
deriving Repr, DecidableEq, Inhabited

def ReportedStatus.text : ReportedStatus → String
  | .succeeded => "reported-succeeded"
  | .failed => "reported-failed"
  | .unknown => "reported-unknown"

/-- `_REPORTED_STATUSES`. -/
def reportedStatuses : List String := [ReportedStatus.succeeded.text, ReportedStatus.failed.text,
  ReportedStatus.unknown.text]

def reconciliationRole : String := "reconciliation-application-completion"

/-- Durable execution-level fact; never objective or recovery authority. -/
structure Observation where
  id : String
  observationInstanceRef : String
  dispatchCommitRef : String
  actionRef : String
  attemptRef : String
  stepRef : String
  requestRef : String
  providerId : String
  idempotencyKey : Option String
  observationSource : String
  reportedStatus : String
  provenanceRefs : List String
  recoveryApplicationRef : Option String

/-- `_required_string` of an observation: the text as it stands. -/
def requiredPayloadString (payload : Fields) (key : String) : Result String :=
  match payload.get key with
  | .str s => if Text.nonBlank s then .ok s
    else raiseValue s!"recovery observation requires dispatch {key}"
  | _ => raiseValue s!"recovery observation requires dispatch {key}"

def applicationObservationInstanceRef (applicationRef : String) : String :=
  "recovery_application_completion:" ++ applicationRef

def applicationObservationIdentity (applicationRef : String) : String :=
  "recovery_observation_" ++ shortDigest (digest (.obj
    [("schema", .str recoveryObservationSchema), ("semantic_role", .str reconciliationRole),
      ("recovery_application_ref", .str applicationRef)]))

/-- The application an observation completes, if it names one. -/
def observedApplication (event : Event) (instanceRef : String) : Result (Option String) := do
  let payload := event.payload
  match payload.get "recovery_application_ref" with
  | .null =>
    guardValue (payload.get "observation_role" matches .null)
      "legacy RecoveryObservation cannot claim application completion role"
    return none
  | raw =>
    let ref ← requiredString "recovery observation" raw "recovery_application_ref"
    guardValue ((payload.get "observation_role").eqStr reconciliationRole)
      "application-bound RecoveryObservation role mismatch"
    guardValue (instanceRef == applicationObservationInstanceRef ref)
      "application-bound RecoveryObservation instance identity mismatch"
    guardValue (event.id == applicationObservationIdentity digest ref && event.subjectRef == ref)
      "application-bound RecoveryObservation deterministic identity mismatch"
    return some ref

def observationFromEvent (event : Event) : Result Observation := do
  guardValue (event.type == recoveryObservationEvent)
    "event is not a RecoveryObservationRecorded fact"
  let payload := event.payload
  guardValue ((payload.get "schema").eqStr recoveryObservationSchema)
    "unsupported recovery observation schema"
  guardValue ((payload.get "semantic_level").eqStr "recovery-observation")
    "recovery observation semantic level mismatch"
  guardValue (payload.get "authoritative_outcome" matches .bool false)
    "RecoveryObservation cannot claim objective authority"
  guardValue (← (payload.get "reported_status").inSet reportedStatuses)
    "invalid recovery observation reported status"
  let provenance ← orRaise ((stringItems? (payload.getOr "provenance_refs" (.arr []))).filter
      (fun refs => refs.all (· ≠ "")))
    "invalid recovery observation provenance refs"
  let key := payload.get "idempotency_key"
  guardValue ((key matches .null) || key.isStr) "invalid recovery observation idempotency key"
  let instanceRef ← requiredPayloadString payload "observation_instance_ref"
  let applicationRef ← observedApplication digest event instanceRef
  return {
    id := event.id
    observationInstanceRef := instanceRef
    dispatchCommitRef := ← requiredPayloadString payload "dispatch_commit_ref"
    actionRef := ← requiredPayloadString payload "action_ref"
    attemptRef := ← requiredPayloadString payload "attempt_ref"
    stepRef := ← requiredPayloadString payload "step_ref"
    requestRef := ← requiredPayloadString payload "request_ref"
    providerId := ← requiredPayloadString payload "provider_id"
    idempotencyKey := key.asStr?
    observationSource := ← requiredPayloadString payload "observation_source"
    reportedStatus := (payload.get "reported_status").pyStr
    provenanceRefs := provenance
    recoveryApplicationRef := applicationRef }

def validateObservation (store : DispositionStoreReader) (dispatchRef : String)
    (graph : DispatchGraph) (ref : String) : Result Unit := do
  let event ← orRaise ((store.getEvent ref).filter
      (fun e => e.id == ref && e.type == recoveryObservationEvent))
    "recovery disposition requires exact RecoveryObservation fact"
  guardValue (event.subjectRef == dispatchRef)
    "RecoveryObservation is not bound to recovery dispatch"
  let observation ← observationFromEvent digest event
  checkEach (fun (e : String × String × String) => guardValue (e.2.1 == e.2.2)
      s!"RecoveryObservation {e.1} binding mismatch")
    [("dispatch_commit_ref", observation.dispatchCommitRef, dispatchRef),
      ("action_ref", observation.actionRef, graph.action.id),
      ("attempt_ref", observation.attemptRef, graph.attempt.id),
      ("step_ref", observation.stepRef, graph.step.id),
      ("request_ref", observation.requestRef, graph.action.requestRef),
      ("provider_id", observation.providerId, graph.action.providerId)]

/-! ## Confirmed outcomes -/

def validateConfirmedOutcome (now : Time) (store : DispositionStoreReader)
    (graph : DispatchGraph) (ref : String) : Result Unit := do
  let persisted ← orRaise ((store.getRecord ref).filter
      (fun r => r.cls = .outcomeRecord && r.id == ref))
    "recovery disposition requires exact Outcome record"
  guardValue (persisted.lifecycleStatus = .confirmed)
    "recovery disposition Outcome must be confirmed"
  guardValue ((persisted.getattr "action_ref").eqStr graph.action.id)
    "recovery disposition Outcome must bind exact recovery Action"
  let metadata := persisted.metadata
  checkEach (fun (e : String × String) => guardValue ((metadata.get e.1).eqStr e.2)
      s!"recovery disposition Outcome {e.1} binding mismatch")
    [("work_id", graph.work.id), ("run_id", graph.run.id),
      ("request_id", graph.action.requestRef), ("attempt_ref", graph.attempt.id)]
  let scope ← orRaise (metadata.get "verification_scope").asFields?
    "recovery disposition Outcome verification scope is missing"
  let versions ← orRaise ((stringItems? (metadata.get "subject_version_refs")).filter
      (fun refs => refs.all (· ≠ "")))
    "recovery disposition Outcome subject versions are invalid"
  let prepared ← prepareVerifiedOutcomeCommit digest now store.toVerifiedOutcomeStoreReader
    { actionRef := graph.action.id
      evidenceRefs := (stringItems? (persisted.getattr "evidence_refs")).getD []
      expectedWorkId := graph.work.id
      expectedRunId := graph.run.id
      expectedRequestId := graph.action.requestRef
      expectedAttemptRef := graph.attempt.id
      verificationScope := scope
      subjectVersionRefs := versions }
  guardValue (sameVerifiedOutcomeSemantics persisted.dump prepared.outcome.dump)
    "recovery disposition Outcome authority semantics mismatch"
  guardValue (prepared.outcome.id == ref)
    "recovery disposition Outcome deterministic identity mismatch"
  guardValue (prepared.events.all (fun authorityEvent => (store.getEvent authorityEvent.id).any
      (fun event => sameVerifiedOutcomeSemantics event.dump authorityEvent.dump)))
    "recovery disposition Outcome authority event graph incomplete"

/-! ## The basis and its decision -/

def reconstructDispositionBasis (now : Time) (store : DispositionStoreReader)
    (request : DispositionCommitRequest) : Result DispositionBasis := do
  let owner := "recovery disposition"
  let dispatchRef ← requiredString owner (.str request.dispatchCommitRef) "dispatch_commit_ref"
  let policyRef ← requiredString owner (.str request.policyRef) "policy_ref"
  let observationRefs ← canonicalRefs request.observationRefs "observation" true
  let outcomeRefs ← canonicalRefs request.outcomeRefs "outcome" false
  let graph ← reconstructDispatchGraph digest store dispatchRef
  checkEach (validateObservation digest store dispatchRef graph) observationRefs
  checkEach (validateConfirmedOutcome digest now store graph) outcomeRefs
  let recoveryMode := dispatchRecoveryMode graph.step graph.attempt
  guardValue (recoveryMode ≠ .uncommitted)
    "recovery disposition cannot use an uncommitted dispatch"
  let effectSemantics ←
    requiredString owner (.str graph.step.effectSemantics.text) "effect semantics"
  let reversibility ← requiredString owner (.str graph.step.reversibility.text) "reversibility"
  let facts : BasisFacts :=
    { dispatchCommitRef := dispatchRef, observationRefs, outcomeRefs, recoveryMode,
      effectSemantics, reversibility, policyRef }
  return { toBasisFacts := facts
           basisKey := basisIdentity digest facts
           actionRef := graph.action.id
           attemptRef := graph.attempt.id
           stepRef := graph.step.id
           requestRef := graph.action.requestRef
           providerId := graph.action.providerId
           runRef := graph.run.id
           workRef := graph.work.id }

/-- A policy: its answer on a basis, if it can be called, and the action it may declare. -/
structure Policy where
  decide : Option (DispositionBasis → Result Json)
  action : Json := .null

def policyAction (policy : Policy) (basis : DispositionBasis) :
    Result RecoveryDispositionAction := do
  let decider ← orRaise policy.decide "recovery disposition policy must be callable"
  let value ← decider basis
  orRaise (value.asStr?.bind RecoveryDispositionAction.ofText?)
    "recovery disposition policy returned unsupported action"

def dispositionId (basisKey : String) : String := "recovery_disposition_" ++ shortDigest basisKey

structure PreparedDisposition where
  basis : DispositionBasis
  disposition : Disposition
  event : Event

/-- Evaluate the policy once and prepare deterministic decision semantics. -/
def prepareDisposition (now : Time) (basis : DispositionBasis) (policy : Policy) :
    Result PreparedDisposition := do
  let action ← policyAction policy basis
  let disposition : Disposition :=
    { toBasisFacts := basis.toBasisFacts, id := dispositionId basis.basisKey,
      basisKey := basis.basisKey, action }
  let event : Event :=
    { id := disposition.id, createdAt := now, type := recoveryDispositionEvent,
      subjectRef := basis.dispatchCommitRef,
      payload := [("schema", .str recoveryDispositionSchema),
        ("semantic_level", .str "recovery-disposition"), ("basis_key", .str basis.basisKey),
        ("dispatch_commit_ref", .str basis.dispatchCommitRef),
        ("observation_refs", .ofStrings basis.observationRefs),
        ("outcome_refs", .ofStrings basis.outcomeRefs),
        ("recovery_mode", .str basis.recoveryMode.text),
        ("effect_semantics", .str basis.effectSemantics),
        ("reversibility", .str basis.reversibility), ("policy_ref", .str basis.policyRef),
        ("action", .str action.text)] }
  return { basis, disposition, event }

/-! ## The recorded decision -/

/-- The modes that a recorded disposition may have. -/
def durableModes : List DispatchRecoveryMode := [.idempotentRetry, .reconcile, .unknown]

/-- A member of a set of texts, read as what it names. -/
def memberOf {α : Type} (values : List α) (text : α → String) (j : Json) (message : String) :
    Result α := do
  guardValue (← j.inSet (values.map text)) message
  orRaise (j.asStr?.bind (fun s => values.find? (fun v => text v == s))) message

/-- Decode and verify one durable disposition event. -/
def dispositionFromEvent (event : Event) : Result Disposition := do
  let owner := "recovery disposition"
  guardValue (event.type == recoveryDispositionEvent)
    "event is not a RecoveryDispositionRecorded fact"
  let payload := event.payload
  guardValue ((payload.get "schema").eqStr recoveryDispositionSchema)
    "unsupported recovery disposition schema"
  guardValue ((payload.get "semantic_level").eqStr "recovery-disposition")
    "recovery disposition semantic level mismatch"
  let dispatchRef ← requiredString owner (payload.get "dispatch_commit_ref") "dispatch_commit_ref"
  let policyRef ← requiredString owner (payload.get "policy_ref") "policy_ref"
  let rawObservations ← orRaise (stringItems? (payload.get "observation_refs"))
    "invalid recovery disposition observation refs"
  let rawOutcomes ← orRaise (stringItems? (payload.get "outcome_refs"))
    "invalid recovery disposition outcome refs"
  let observationRefs ← canonicalRefs rawObservations "observation" true
  let outcomeRefs ← canonicalRefs rawOutcomes "outcome" false
  guardValue (observationRefs == rawObservations && outcomeRefs == rawOutcomes)
    "recovery disposition refs are not canonical"
  let recoveryMode ← memberOf durableModes DispatchRecoveryMode.text (payload.get "recovery_mode")
    "invalid recovery disposition recovery mode"
  let effectSemantics ← requiredString owner (payload.get "effect_semantics") "effect semantics"
  let reversibility ← requiredString owner (payload.get "reversibility") "reversibility"
  let action ← memberOf RecoveryDispositionAction.all RecoveryDispositionAction.text
    (payload.get "action") "invalid recovery disposition action"
  let facts : BasisFacts :=
    { dispatchCommitRef := dispatchRef, observationRefs, outcomeRefs, recoveryMode,
      effectSemantics, reversibility, policyRef }
  let basisKey := basisIdentity digest facts
  guardValue ((payload.get "basis_key").eqStr basisKey)
    "recovery disposition basis identity mismatch"
  guardValue (event.id == dispositionId basisKey && event.subjectRef == dispatchRef)
    "recovery disposition deterministic identity mismatch"
  return { toBasisFacts := facts, id := event.id, basisKey, action }

/-! ## Commits -/

structure DispositionCommitPlan where
  disposition : Disposition
  event : Option Event
  replayed : Bool

/-- The action that a policy declares, without executing it. -/
def declaredPolicyAction (policy : Policy) : Result (Option RecoveryDispositionAction) :=
  match policy.action with
  | .null => .ok none
  | value => match value.asStr?.bind RecoveryDispositionAction.ofText? with
    | some action => .ok (some action)
    | none => raiseValue "recovery disposition policy declares unsupported action"

/-- Prepare a new disposition or replay an exact durable basis identity. -/
def prepareDispositionCommit (now : Time) (store : DispositionStoreReader)
    (request : DispositionCommitRequest) (policy : Policy) : Result DispositionCommitPlan := do
  let basis ← reconstructDispositionBasis digest now store request
  match store.getEvent (dispositionId basis.basisKey) with
  | some existing =>
    let durable ← dispositionFromEvent digest existing
    guardValue (durable.basisKey == basis.basisKey)
      "RecoveryDisposition deterministic identity rebound"
    let declared ← declaredPolicyAction policy
    guardValue (declared.all (· == durable.action))
      "RecoveryDisposition identity semantics rebound"
    return { disposition := durable, event := none, replayed := true }
  | none =>
    let prepared ← prepareDisposition now basis policy
    return { disposition := prepared.disposition, event := some prepared.event, replayed := false }

end Disposition

end Recovery

namespace MemoryStore

def recoveryReader (st : MemoryStore) : Recovery.DispositionStoreReader where
  toVerifiedOutcomeStoreReader := st.reader
  getEvent := st.getEvent

/-- Atomically commit or replay one exact-basis recovery disposition. -/
def commitRecoveryDisposition (digest : Json → String) (now : Time) (st : MemoryStore)
    (request : Recovery.DispositionCommitRequest) (policy : Recovery.Policy) :
    Result (Recovery.Disposition × MemoryStore) := do
  let plan ← Recovery.prepareDispositionCommit digest now st.recoveryReader request policy
  if plan.replayed then
    return (plan.disposition, st)
  let event ← orRaise plan.event
    "RecoveryDisposition commit plan is missing its durable event"
  return (plan.disposition, ← st.appendEventAs (some .recoveryDisposition) event)

end MemoryStore
end PortableRuntime
