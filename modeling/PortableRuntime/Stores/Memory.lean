import PortableRuntime.Library.Transaction
import PortableRuntime.Records.VerifiedOutcome

/-!
# The in-memory state store

Every method is a function from a store to a store, or the exception it raises before
it has written anything.  `now` is the wall clock of the call.
-/

namespace PortableRuntime

abbrev Records := (k : Kind) → Dict String (Model k)

structure Lease where
  owner : String
  expiresAt : Time
  generation : Int
deriving Repr, DecidableEq

structure MemoryStore where
  records : Records
  leases : Dict String Lease := Dict.empty

namespace MemoryStore

def empty : MemoryStore := { records := fun _ => Dict.empty }

def exportState (st : MemoryStore) : State := fun k => (st.records k).values

def get (st : MemoryStore) (k : Kind) (id : String) : Option (Model k) := (st.records k).get? id

def getRecord (st : MemoryStore) : String → Option BaseRecord := st.get .record
def getWork (st : MemoryStore) : String → Option Work := st.get .work
def getRun (st : MemoryStore) : String → Option Run := st.get .run
def getEvent (st : MemoryStore) : String → Option Event := st.get .event

/-- Put a value under a key of a bucket. -/
def put (st : MemoryStore) (k : Kind) (id : String) (value : Model k) : MemoryStore :=
  { st with records := Function.update st.records k ((st.records k).set id value) }

/-- `_save`: no validation. -/
def save (st : MemoryStore) (k : Kind) (value : Model k) : MemoryStore :=
  st.put k (k.identifier value) value

/-! ## Checked writes -/

def terminalWrite : (k : Kind) → Model k → Bool
  | .run, (v : Run) => v.status = .succeeded
  | .work, (v : Work) => v.status = .completed
  | _, _ => false

/-- Outside `commit_terminal` no terminal status can be written. -/
def rejectUnprovenTerminalWrite (k : Kind) (value : Model k) : Result Unit :=
  guardValue (!terminalWrite k value) "terminal completion requires CompletionAuthority proof commit"

def validateCandidateWrite (now : Time) (st : MemoryStore) (k : Kind) (value : Model k) :
    Result Unit :=
  assertValidCandidateWrite now st.exportState k value

/-- Run every normal state mutation through the graph commit gate. -/
def saveChecked (now : Time) (st : MemoryStore) (k : Kind) (value : Model k) :
    Result MemoryStore := do
  rejectUnprovenTerminalWrite k value
  st.validateCandidateWrite now k value
  return st.save k value

def validateRecordWriteSemantics (st : MemoryStore) (value : BaseRecord) : Result Unit := do
  let existing := st.getRecord value.id
  let errors := validateRecordWrite value existing ++ validateCanonicalWrite value
  guardValue errors.isEmpty (Text.join "; " errors)
  assertSemanticMutationAuthorized value existing st.exportState

def saveRecord (now : Time) (st : MemoryStore) (value : BaseRecord) : Result MemoryStore := do
  st.validateRecordWriteSemantics value
  st.validateCandidateWrite now .record value
  return st.save .record value

def saveRelation (now : Time) (st : MemoryStore) (value : RecordRelation) :
    Result MemoryStore := do
  let errors := validateRelation value
  guardValue errors.isEmpty (Text.join "; " errors)
  guardValue ((st.get .relation value.id).all (relationUnchanged value))
    (s!"relation {Text.pyRepr value.id} is append-only; semantic edge changes require a " ++
      "Revision authority")
  st.validateCandidateWrite now .relation value
  return st.save .relation value

/-- The errors of a grant that a save refuses. -/
def refusedGrantErrors : List String :=
  ["principal_ref required", "grantee_ref required", "allowed_capabilities"]

def saveAuthorization (now : Time) (st : MemoryStore) (value : AuthorizationGrant) :
    Result MemoryStore := do
  let errors := validateGrant value now
  guardValue (!errors.any (fun e => refusedGrantErrors.any (Text.hasInfix e)))
    (Text.join "; " errors)
  st.validateCandidateWrite now .authorization value
  return st.save .authorization value

def saveAuthorizationUse (now : Time) (st : MemoryStore) (value : AuthorizationUse) :
    Result MemoryStore := do
  guardValue ((st.get .authorizationUse value.id).all (fun e => sameDump e.dump value.dump))
    s!"authorization use {Text.pyRepr value.id} is immutable"
  let grant : AuthorizationGrant ← orRaise (st.get .authorization value.authorizationRef)
    "authorization use references unknown grant"
  guardValue (isAuthorizedFor value.request grant value.authorizedAt)
    "authorization use is not valid at authorized_at"
  st.validateCandidateWrite now .authorizationUse value
  return st.save .authorizationUse value

def saveKnowledgeProjection (now : Time) (st : MemoryStore) (value : KnowledgeProjection) :
    Result MemoryStore := do
  st.validateCandidateWrite now .knowledgeProjection value
  return st.save .knowledgeProjection value

/-! ## The event journal -/

/-- The commit operations whose events nobody else may append. -/
inductive CommitAuthority where
  | outcomeImpact | recoveryObservation | recoveryDisposition | recoveryApplication
  | historicalExperienceUse | providerExecutionBindingDispatch
deriving Repr, DecidableEq, Inhabited

def outcomeImpactAuthorityEventTypes : List String :=
  ["OutcomeImpactJudgmentRecorded", "OutcomeRevalidationDispositionRecorded"]

/-- An attempt to carry execution-binding authority, whatever its shape. -/
def dispatchHasProviderExecutionBindingAuthority (event : Event) : Bool :=
  event.type == "InvocationDispatchCommitted" &&
    (event.payload.has "provider_execution_binding_ref" ||
      event.payload.has "provider_execution_binding")

/-- The authority an event needs, with the message of its refusal. -/
def requiredAuthority (event : Event) : Option (CommitAuthority × String) :=
  if outcomeImpactAuthorityEventTypes.contains event.type then
    some (.outcomeImpact, "Outcome impact authority events require commit_outcome_impact_judgment")
  else if event.type = "RecoveryObservationRecorded" then
    some (.recoveryObservation, "RecoveryObservation events require commit_recovery_observation")
  else if event.type = "RecoveryDispositionRecorded" then
    some (.recoveryDisposition, "RecoveryDisposition events require commit_recovery_disposition")
  else if event.type = "RecoveryApplicationRecorded" then
    some (.recoveryApplication, "RecoveryApplication events require commit_recovery_application")
  else if event.type = "HistoricalExperienceUseRecorded" then
    some (.historicalExperienceUse,
      "HistoricalExperienceUse events require commit_historical_experience_use")
  else if dispatchHasProviderExecutionBindingAuthority event then
    some (.providerExecutionBindingDispatch,
      "provider execution-binding dispatch events require governed dispatch commit")
  else none

/-- Dumps of events that agree in every field but the creation time. -/
def sameEvent (a b : Event) : Bool := (a.dump.pop "created_at").pyEq (b.dump.pop "created_at")

/-- Append an event; `authority` is the commit that is under way, if any. -/
def appendEventAs (authority : Option CommitAuthority) (st : MemoryStore) (value : Event) :
    Result MemoryStore :=
  match (requiredAuthority value).filter (fun r => some r.1 ≠ authority) with
  | some (_, message) => raiseValue message
  | none => match st.getEvent value.id with
    | some existing =>
      if sameEvent existing value then .ok st
      else raiseValue s!"event journal is append-only: refusing to overwrite event {Text.pyRepr value.id}"
    | none => .ok (st.save .event value)

def appendEvent (st : MemoryStore) (value : Event) : Result MemoryStore :=
  st.appendEventAs none value

def saveEvent (st : MemoryStore) (value : Event) : Result MemoryStore := st.appendEvent value

def appendEvents (authority : Option CommitAuthority) :
    MemoryStore → List Event → Result MemoryStore
  | st, [] => .ok st
  | st, event :: rest => do appendEvents authority (← st.appendEventAs authority event) rest

/-- `save_work`, `save_run` and their like, by kind. -/
def saveModel (now : Time) (st : MemoryStore) : (k : Kind) → Model k → Result MemoryStore
  | .event, v => st.saveEvent v
  | .record, v => st.saveRecord now v
  | .relation, v => st.saveRelation now v
  | .authorization, v => st.saveAuthorization now v
  | .authorizationUse, v => st.saveAuthorizationUse now v
  | .knowledgeProjection, v => st.saveKnowledgeProjection now v
  | k, v => st.saveChecked now k v

/-! ## Compare and swap -/

/-- `getattr(value, "version", 0)`. -/
def versionOf : (k : Kind) → Model k → Json
  | .step, (v : Step) => .int v.version
  | .record, (v : BaseRecord) => .int v.version
  | .authorizationUse, _ => .int 0
  | k, v => (k.dump v).getOr "version" (.int 0)

/-- The value is stored under the identity that was asked for, not under its own. -/
def compareAndSwap (now : Time) (st : MemoryStore) (k : Kind) (id : String) (expected : Int)
    (value : Model k) : Result (Bool × MemoryStore) :=
  match st.get k id with
  | none => .ok (false, st)
  | some existing =>
    if !(versionOf k existing).pyEq (.int expected) then .ok (false, st)
    else do
      rejectUnprovenTerminalWrite k value
      st.validateCandidateWrite now k value
      return (true, st.put k id value)

/-! ## Commits -/

/-- Validate and atomically commit a proven Work/Run terminal pair. -/
def commitTerminal (now : Time) (st : MemoryStore) (work : Work) (run : Run)
    (verificationRefs : List String) : Result MemoryStore := do
  guardValue (work.status = .completed && run.status = .succeeded)
    "terminal commit requires completed Work and succeeded Run"
  let refs := Json.ofStrings (verificationRefs.filter Text.nonBlank)
  guardValue ((proofRefs work.metadata).pyEq refs && (proofRefs run.metadata).pyEq refs)
    "terminal commit requires symmetric proof refs on Work and Run"
  let _ ← CompletionAuthority.validateProofInvariant work run verificationRefs st.getRecord
  assertValidTerminalPair now st.exportState work run
  return (st.save .work work).save .run run

def reader (st : MemoryStore) : VerifiedOutcomeStoreReader where
  getAction := st.get .action
  getAttempt := st.get .attempt
  getStep := st.get .step
  getRun := st.get .run
  getWork := st.get .work
  getRecord := st.get .record

/-- A verified outcome that is already stored, with its events. -/
def replayVerifiedOutcome (st : MemoryStore) (prepared : PreparedVerifiedOutcomeCommit)
    (existing : BaseRecord) : Result MemoryStore := do
  guardValue (sameVerifiedOutcomeSemantics existing.dump prepared.outcome.dump)
    "verified-outcome deterministic identity rebound"
  guardValue (prepared.events.all (fun event => (st.getEvent event.id).any
      (fun persisted => sameVerifiedOutcomeSemantics persisted.dump event.dump)))
    "verified-outcome authority event graph incomplete"
  guardValue (existing.cls = .outcomeRecord)
    "verified-outcome identity does not resolve to OutcomeRecord"
  return st

/-- Atomically commit one verification-authorized confirmed Outcome. -/
def commitVerifiedOutcome (digest : Json → String) (now : Time) (st : MemoryStore)
    (request : VerifiedOutcomeCommitRequest) : Result MemoryStore := do
  let prepared ← prepareVerifiedOutcomeCommit digest now st.reader request
  match st.getRecord prepared.outcome.id with
  | some existing => st.replayVerifiedOutcome prepared existing
  | none => (st.save .record prepared.outcome).appendEvents none prepared.events

/-- What a commit of governance events decides from the store it reads. -/
inductive CommitPlan where
  | replayed
  | append (events : List Event)

/-- Atomically append the events a commit prepares, or replay it. -/
def commitEvents (authority : CommitAuthority) (prepare : MemoryStore → Result CommitPlan)
    (st : MemoryStore) : Result MemoryStore := do
  match ← prepare st with
  | .replayed => return st
  | .append events => st.appendEvents (some authority) events

/-- A task judgment to be bound to the experience it used.  `replay` is the check of an
exact replay, `bind` the admission that yields the binding event, and `authorityGraph`
the closing check of the whole graph. -/
structure HistoricalExperienceUse where
  judgment : BaseRecord
  eventId : String
  replay : State → Result Unit
  bind : State → Result Event
  authorityGraph : State → Result Unit

/-- Atomically bind one judgment to exact experience semantics. -/
def commitHistoricalExperienceUse (now : Time) (st : MemoryStore) (use : HistoricalExperienceUse) :
    Result MemoryStore :=
  match st.getEvent use.eventId, st.getRecord use.judgment.id with
  | some _, none =>
    raiseValue "Historical Experience Use authority graph is incomplete: judgment missing"
  | some _, some _ => do
    use.replay st.exportState
    use.authorityGraph st.exportState
    return st
  | none, some _ =>
    raiseValue "retroactive Historical Experience Use backfill onto an existing judgment is closed"
  | none, none => do
    st.validateRecordWriteSemantics use.judgment
    st.validateCandidateWrite now .record use.judgment
    let event ← use.bind st.exportState
    let st' ← (st.save .record use.judgment).appendEventAs (some .historicalExperienceUse) event
    use.authorityGraph st'.exportState
    return st'

/-! ## Import -/

/-- Imported records are read as plain base records. -/
def asImported (incoming : State) : State :=
  Function.update incoming .record (incoming.records.map (fun r => { r with cls := .baseRecord }))

/-- The complete state an import would leave. -/
def importCandidate (current incoming : State) : State :=
  fun k => mergeBucket k (current k) (incoming k)

/-- Authority histories that no import may bring in. -/
def assertImportableEvents (events : List Event) : Result Unit := do
  guardValue (!events.any (fun e => e.type == "HistoricalExperienceUseRecorded"))
    "Historical Experience Use authority import/backfill is closed"
  guardValue (!events.any (fun e => outcomeImpactAuthorityEventTypes.contains e.type))
    ("B3 outcome impact authority history import is unsupported; durable impact authority must " ++
      "be created by commit_outcome_impact_judgment")
  guardValue (!events.any (fun e => e.type == "RecoveryApplicationRecorded"))
    ("P5 RecoveryApplication authority import is unsupported; durable application authority " ++
      "must be created by commit_recovery_application")
  guardValue (!events.any dispatchHasProviderExecutionBindingAuthority)
    ("P5 provider execution-binding dispatch authority import is unsupported; durable " ++
      "execution-binding authority must be created by governed dispatch commit")

def saveAll (st : MemoryStore) (incoming : State) : MemoryStore :=
  { st with
    records := fun k => (st.records k).setAll k.identifier (incoming k) }

def importState (digest : Json → String) (now : Time) (st : MemoryStore) (state : State) :
    Result MemoryStore := do
  let prepared := asImported state
  assertImportableEvents prepared.events
  let candidate := importCandidate st.exportState prepared
  assertValidStateTransition st.exportState candidate prepared
  assertValidStateGraph now candidate
  validateVerifiedOutcomeAuthorityGraph digest now candidate
  return st.saveAll prepared

/-! ## Operations -/

/-- The public mutators.  The plan of an event commit is any function of the store. -/
inductive Op where
  | save (k : Kind) (value : Model k)
  | compareAndSwap (k : Kind) (id : String) (expected : Int) (value : Model k)
  | commitTerminal (work : Work) (run : Run) (verificationRefs : List String)
  | commitVerifiedOutcome (request : VerifiedOutcomeCommitRequest)
  | commitHistoricalExperienceUse (use : HistoricalExperienceUse)
  | commitEvents (authority : CommitAuthority) (prepare : MemoryStore → Result CommitPlan)
  | importState (state : State)

/-- The effect of a call that returns, or the exception it raises. -/
def call (digest : Json → String) (now : Time) (st : MemoryStore) : Op → Result MemoryStore
  | .save k value => st.saveModel now k value
  | .compareAndSwap k id expected value =>
    (st.compareAndSwap now k id expected value).map Prod.snd
  | .commitTerminal work run refs => st.commitTerminal now work run refs
  | .commitVerifiedOutcome request => st.commitVerifiedOutcome digest now request
  | .commitHistoricalExperienceUse use => st.commitHistoricalExperienceUse now use
  | .commitEvents authority prepare => st.commitEvents authority prepare
  | .importState state => st.importState digest now state

/-- A call that raises leaves the store as it was. -/
def step (digest : Json → String) (st : MemoryStore) (o : Time × Op) : MemoryStore :=
  match st.call digest o.1 o.2 with
  | .ok st' => st'
  | .error _ => st

end MemoryStore

end PortableRuntime
