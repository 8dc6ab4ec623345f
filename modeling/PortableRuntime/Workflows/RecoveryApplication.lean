import PortableRuntime.Workflows.RecoveryDisposition

/-!
# Recovery applications

An application is one orchestration intent, derived from one durable disposition whose basis is
rebuilt, and never the authority to execute.
-/

namespace PortableRuntime

inductive RecoveryApplicationKind where
  | hold | reconciliationRequest | retryRequest | manualResolutionHandoff
  | objectiveResolutionAcceptance
deriving Repr, DecidableEq, Inhabited

namespace RecoveryApplicationKind

def text : RecoveryApplicationKind → String
  | .hold => "hold"
  | .reconciliationRequest => "reconciliation-request"
  | .retryRequest => "retry-request"
  | .manualResolutionHandoff => "manual-resolution-handoff"
  | .objectiveResolutionAcceptance => "objective-resolution-acceptance"

/-- `_APPLICATION_KINDS`. -/
def all : List RecoveryApplicationKind :=
  [.hold, .reconciliationRequest, .retryRequest, .manualResolutionHandoff,
    .objectiveResolutionAcceptance]

end RecoveryApplicationKind

/-- `_APPLICATION_KIND_BY_ACTION`. -/
def RecoveryDispositionAction.applicationKind :
    RecoveryDispositionAction → RecoveryApplicationKind
  | .holdUnresolved => .hold
  | .reconcileAgain => .reconciliationRequest
  | .retryIdempotent => .retryRequest
  | .requireManualResolution => .manualResolutionHandoff
  | .acceptObjectiveResolution => .objectiveResolutionAcceptance

namespace Recovery

def recoveryApplicationEvent : String := "RecoveryApplicationRecorded"
def recoveryApplicationSchema : String := "recovery-application-v1"

/-- One durable application intent; never execution authority. -/
structure Application where
  id : String
  dispositionRef : String
  applicationKind : RecoveryApplicationKind
  sourceDispatchRef : String
  sourceAttemptRef : String
  sourceStepRef : String
  sourceActionRef : String
  sourceRequestRef : String
  sourceProviderId : String
  sourceRunRef : String
  sourceWorkRef : String
  idempotencyKey : Option String
deriving DecidableEq

structure PreparedApplicationCommit where
  application : Application
  event : Option Event
  replayed : Bool

section Application

variable (digest : Json → String)

def applicationId (dispositionRef : String) : String :=
  "recovery_application_" ++ digest (.obj [("schema", .str recoveryApplicationSchema),
    ("disposition_ref", .str dispositionRef)])

/-- The disposition, its rebuilt basis and the attempt of an application. -/
def reconstructSource (now : Time) (store : DispositionStoreReader) (dispositionRef : String) :
    Result (Disposition × DispositionBasis × StepAttempt) := do
  let event ← orRaise ((store.getEvent dispositionRef).filter (fun e => e.id == dispositionRef))
    "RecoveryApplication requires exact durable RecoveryDisposition"
  let disposition ← dispositionFromEvent digest event
  let basis ← reconstructDispositionBasis digest now store
    { dispatchCommitRef := disposition.dispatchCommitRef
      observationRefs := disposition.observationRefs
      outcomeRefs := disposition.outcomeRefs
      policyRef := disposition.policyRef }
  guardValue (basis.basisKey == disposition.basisKey)
    "RecoveryApplication source disposition basis rebound"
  let attempt ← orRaise ((store.getAttempt basis.attemptRef).filter
      (fun a => a.id == basis.attemptRef))
    "RecoveryApplication requires exact source StepAttempt"
  return (disposition, basis, attempt)

def prepareApplication (now : Time) (store : DispositionStoreReader) (dispositionRef : String) :
    Result Application := do
  let (disposition, basis, attempt) ← reconstructSource digest now store dispositionRef
  let kind := disposition.action.applicationKind
  let idempotencyKey := if kind = .retryRequest then attempt.idempotencyKey else none
  guardValue (!(kind = .retryRequest && idempotencyKey.all (· == "")))
    "RecoveryApplication retry intent requires source idempotency identity"
  return {
    id := applicationId digest dispositionRef
    dispositionRef
    applicationKind := kind
    sourceDispatchRef := basis.dispatchCommitRef
    sourceAttemptRef := basis.attemptRef
    sourceStepRef := basis.stepRef
    sourceActionRef := basis.actionRef
    sourceRequestRef := basis.requestRef
    sourceProviderId := basis.providerId
    sourceRunRef := basis.runRef
    sourceWorkRef := basis.workRef
    idempotencyKey }

/-- `_event_for`. -/
def Application.event (now : Time) (a : Application) : Event where
  id := a.id
  createdAt := now
  type := recoveryApplicationEvent
  subjectRef := a.dispositionRef
  payload := [("schema", .str recoveryApplicationSchema),
    ("semantic_level", .str "recovery-application"), ("disposition_ref", .str a.dispositionRef),
    ("application_kind", .str a.applicationKind.text),
    ("source_dispatch_ref", .str a.sourceDispatchRef),
    ("source_attempt_ref", .str a.sourceAttemptRef),
    ("source_step_ref", .str a.sourceStepRef), ("source_action_ref", .str a.sourceActionRef),
    ("source_request_ref", .str a.sourceRequestRef),
    ("source_provider_id", .str a.sourceProviderId), ("source_run_ref", .str a.sourceRunRef),
    ("source_work_ref", .str a.sourceWorkRef), ("idempotency_key", .ofOption a.idempotencyKey)]

/-- Decode and verify one durable application event. -/
def applicationFromEvent (event : Event) : Result Application := do
  let owner := "RecoveryApplication"
  guardValue (event.type == recoveryApplicationEvent)
    "event is not a RecoveryApplicationRecorded fact"
  let payload := event.payload
  guardValue ((payload.get "schema").eqStr recoveryApplicationSchema)
    "unsupported RecoveryApplication schema"
  guardValue ((payload.get "semantic_level").eqStr "recovery-application")
    "RecoveryApplication semantic level mismatch"
  let dispositionRef ← requiredString owner (payload.get "disposition_ref") "disposition_ref"
  let kind ← memberOf RecoveryApplicationKind.all RecoveryApplicationKind.text
    (payload.get "application_kind") "invalid RecoveryApplication kind"
  guardValue (event.id == applicationId digest dispositionRef && event.subjectRef == dispositionRef)
    "RecoveryApplication deterministic identity mismatch"
  let key := payload.get "idempotency_key"
  guardValue ((key matches .null) || key.asStr?.any (· ≠ ""))
    "invalid RecoveryApplication idempotency identity"
  guardValue (!(kind = .retryRequest && key matches .null))
    "retry RecoveryApplication requires idempotency identity"
  guardValue (kind = .retryRequest || key matches .null)
    "non-retry RecoveryApplication cannot carry idempotency identity"
  let source (name : String) : Result String := requiredString owner (payload.get name) name
  return {
    id := event.id
    dispositionRef
    applicationKind := kind
    sourceDispatchRef := ← source "source_dispatch_ref"
    sourceAttemptRef := ← source "source_attempt_ref"
    sourceStepRef := ← source "source_step_ref"
    sourceActionRef := ← source "source_action_ref"
    sourceRequestRef := ← source "source_request_ref"
    sourceProviderId := ← source "source_provider_id"
    sourceRunRef := ← source "source_run_ref"
    sourceWorkRef := ← source "source_work_ref"
    idempotencyKey := key.asStr? }

/-- Prepare or replay one exact-disposition durable application intent. -/
def prepareApplicationCommit (now : Time) (store : DispositionStoreReader)
    (dispositionRef : String) : Result PreparedApplicationCommit := do
  let dispositionRef ←
    requiredString "RecoveryApplication" (.str dispositionRef) "disposition_ref"
  let expected ← prepareApplication digest now store dispositionRef
  match store.getEvent expected.id with
  | some existing =>
    let durable ← applicationFromEvent digest existing
    guardValue (durable == expected) "RecoveryApplication identity semantics rebound"
    return { application := durable, event := none, replayed := true }
  | none => return { application := expected, event := some (expected.event now), replayed := false }

end Application

end Recovery

namespace MemoryStore

/-- Atomically commit or replay one exact-disposition application intent. -/
def commitRecoveryApplication (digest : Json → String) (now : Time) (st : MemoryStore)
    (dispositionRef : String) : Result (Recovery.Application × MemoryStore) := do
  let plan ← Recovery.prepareApplicationCommit digest now st.recoveryReader dispositionRef
  if plan.replayed then
    return (plan.application, st)
  let event ← orRaise plan.event
    "RecoveryApplication commit plan is missing its durable event"
  return (plan.application, ← st.appendEventAs (some .recoveryApplication) event)

end MemoryStore
end PortableRuntime
