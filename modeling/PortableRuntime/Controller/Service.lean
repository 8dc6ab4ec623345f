import PortableRuntime.Controller.Models
import PortableRuntime.Responsibility.Service

/-!
# The cognitive controller

A call reads the controller's latest state from the event journal and records the next one.
`invoke-capability` records a waiting state before it awaits the provider and a resumed one
after it, from the copy it kept: `apply` ends at the await with the pending invocation, and
`resume` is what runs when the provider has answered.  The events that a call writes before
it raises stay.
-/

namespace PortableRuntime

/-- `new_id`: a name that is not blank. -/
structure FreshId where
  text : String
  nonBlank : Text.nonBlank text = true := by exact Eq.refl true

/-- An invocation that awaits the provider. -/
structure PendingInvocation where
  waiting : ControllerState
  decisionRef : String
  requestRef : String
  stateVersion : Nat
deriving Repr, DecidableEq

/-- A policy selects one decision for a state, or raises. -/
structure ControllerPolicy where
  policyRef : String
  select : ControllerState → Result ControllerDecision

structure ControllerStore where
  events : List ControllerEvent := []
  responsibilities : ResponsibilityStore := .empty

/-- What an accepted decision leaves: a recorded state, or an invocation at its await. -/
inductive ControllerReply where
  | recorded (state : ControllerState)
  | invoked (pending : PendingInvocation)
deriving Repr, DecidableEq

/-- The arguments of `create`. -/
structure ControllerSeed where
  responsibilityRef : Option String := none
  subjectRef : Option String := none
  contextRefs : List String := []
  candidateRefs : List String := []
  openIssueRefs : List String := []
  controllerId : Option String := none

namespace ControllerStore

def append (s : ControllerStore) (now : Time) (subjectRef : String) (record : ControllerRecord) :
    ControllerStore :=
  { s with events := s.events ++ [{ subjectRef, createdAt := now, record }] }

/-- `list_events`, newest first; events of one time stay in the order of their appends. -/
def listEvents (s : ControllerStore) (subjectRef : String) : List ControllerEvent :=
  (s.events.filter (fun e => e.subjectRef = subjectRef)).insertionSort
    (fun a b => b.createdAt ≤ a.createdAt)

/-- The key `(version, updated_at)`. -/
def olderThan (a b : ControllerState) : Bool :=
  a.version < b.version || (a.version = b.version && a.updatedAt < b.updatedAt)

/-- `max` by the key: the first of the greatest. -/
def latest : List ControllerState → Option ControllerState
  | [] => none
  | state :: rest =>
    some (rest.foldl (fun best next => if olderThan best next then next else best) state)

def get (s : ControllerStore) (controllerId : String) : Result (Option ControllerState) := do
  let states ← ((s.listEvents controllerId).filterMap (·.asState)).mapM (·.validate)
  return latest states

def closures (s : ControllerStore) (controllerId : String) : List CognitiveClosure :=
  (s.listEvents controllerId).filterMap (·.asClosure)

def getClosure (s : ControllerStore) (controllerId closureId : String) :
    Option CognitiveClosure :=
  (s.closures controllerId).find? (fun closure => closure.id = closureId)

/-- The latest state of a controller, which has to be there. -/
def require (s : ControllerStore) (controllerId : String) : Result ControllerState := do
  let state ← s.get controllerId
  orRaise state s!"unknown controller state: {controllerId}"

def recordState (s : ControllerStore) (now : Time) (state : ControllerState)
    (computedFrom : Option ControllerState) : ControllerStore :=
  s.append now state.id (.state state computedFrom)

def create (s : ControllerStore) (seed : ControllerSeed) (fresh : FreshId) (now : Time) :
    Result (ControllerStore × ControllerState) := do
  let state : ControllerState :=
    { id := (seed.controllerId.filter (· ≠ "")).getD fresh.text,
      responsibilityRef := seed.responsibilityRef, subjectRef := seed.subjectRef,
      contextRefs := seed.contextRefs, candidateRefs := seed.candidateRefs,
      openIssueRefs := seed.openIssueRefs, createdAt := now, updatedAt := now }
  let existing ← s.get state.id
  guardValue existing.isNone s!"controller state already exists: {state.id}"
  return (s.recordState now state none, state)

/-! ## Decisions -/

def allowed (state : ControllerState) : List ControllerDecisionKind :=
  match state.status with
  | .open =>
    if state.activeClosureRef.isNone then [.invokeCapability, .formClosure, .close, .wait]
    else [.proposeWork, .close, .wait]
  | .waiting =>
    if state.activeClosureRef.isSome && state.workProposalRef.isSome then [.assessRevision]
    else [.reopen]
  | .closed | .reopenRequired => [.reopen]

def refusal (state : ControllerState) (kind : ControllerDecisionKind) : String :=
  if state.status = .open && state.activeClosureRef.isSome then
    "active cognitive closure admits only propose-work, close, or wait; " ++
      "explicit reopen is required before further exploration"
  else if state.status = .waiting && state.workProposalRef.isSome then
    "handed-off Work requires RevisionAssessment before retry, reopen, or close"
  else if state.status = .open then
    s!"open controller state does not admit {kind.text}"
  else
    s!"{state.status.text} controller state does not admit {kind.text}"

def requireCurrent (s : ControllerStore) (decision : ControllerDecision) :
    Result ControllerState := do
  let state ← s.require decision.controllerRef
  guardValue (decision.stateVersion = state.version)
    s!"stale controller decision: expected state version {state.version}, got {decision.stateVersion}"
  guardValue ((allowed state).contains decision.kind) (refusal state decision.kind)
  return state

/-- The copy of a state that `_transition` records. -/
def nextState (state : ControllerState) (decision : ControllerDecision) (now : Time)
    (status : ControllerStatus) (pendingRef : Option String) : ControllerState :=
  { state with
    status, pendingRef, version := state.version + 1, lastDecisionRef := some decision.id,
    updatedAt := now }

/-- `_transition`: record an updated copy of the state. -/
def transition (s : ControllerStore) (now : Time) (state next : ControllerState) :
    ControllerStore × ControllerReply :=
  (s.recordState now next (some state), .recorded next)

def invokeCapability (s : ControllerStore) (state : ControllerState)
    (decision : ControllerDecision) (fresh : FreshId) (now : Time) :
    Result (ControllerStore × ControllerReply) := do
  let _ ← orRaise decision.capability "invoke-capability decision has no capability"
  let waiting := nextState state decision now .waiting (some fresh.text)
  return (s.recordState now waiting (some state),
    .invoked { waiting, decisionRef := decision.id, requestRef := fresh.text,
               stateVersion := state.version })

/-- What runs after the await: the result event, and an updated copy of the waiting state. -/
def resume (s : ControllerStore) (pending : PendingInvocation) (resultRef : String)
    (now : Time) : ControllerStore × ControllerState :=
  let resumed : ControllerState :=
    { pending.waiting with
      status := .open, version := pending.waiting.version + 1, pendingRef := none,
      lastResultRef := some resultRef, updatedAt := now }
  let s := s.append now pending.waiting.id
    (.result pending.decisionRef pending.requestRef pending.stateVersion)
  (s.recordState now resumed (some pending.waiting), resumed)

def formClosure (s : ControllerStore) (state : ControllerState) (decision : ControllerDecision)
    (resultRef : String) (now : Time) : Result (ControllerStore × ControllerReply) := do
  let closure ← orRaise decision.closure "form-closure decision has no closure"
  guardValue (state.responsibilityRef = closure.responsibilityRef)
    "closure responsibility_ref does not match controller state"
  guardValue (state.subjectRef = closure.subjectRef)
    "closure subject_ref does not match controller state"
  guardValue (state.candidateRefs.isEmpty ||
      closure.selectedCandidateRefs.all state.candidateRefs.contains)
    "closure selected_candidate_refs are not current controller candidates"
  let missing := state.openIssueRefs.filter (fun issue => !closure.deferredIssueRefs.contains issue)
  guardValue missing.isEmpty ("closure must explicitly defer every unresolved controller issue: " ++
    Text.join ", " (Text.sorted missing.dedup))
  guardValue (decision.policyRef.isNone || closure.policyRef.isNone ||
    closure.policyRef = decision.policyRef) "closure policy_ref conflicts with controller decision"
  let closure := { closure with policyRef := decision.policyRef.or closure.policyRef }
  let s := s.append now state.id (.closure decision.id closure)
  return s.transition now state
    { nextState state decision now .open none with
      activeClosureRef := some closure.id, lastResultRef := some resultRef }

/-- The proposal a decision and its closure describe. -/
def workProposal (decision : ControllerDecision) (closure : CognitiveClosure)
    (responsibilityRef subjectRef assessmentRef workTitle : String)
    (responsibilityVersion : Int) (fresh : FreshId) (now : Time) : WorkProposal :=
  { id := fresh.text, createdAt := now, idNonblank := fresh.nonBlank, responsibilityRef,
    responsibilityVersion, assessmentRef, subjectRef, workKind := decision.workKind,
    title := workTitle, description := decision.workDescription,
    requestedCapabilities :=
      if decision.requestedCapabilities.isEmpty then closure.requestedCapabilities
      else decision.requestedCapabilities,
    expectedResult :=
      if decision.expectedResult = "" then Text.join "; " closure.acceptanceCriteria
      else decision.expectedResult,
    stopConditions :=
      if decision.stopConditions.isEmpty then closure.stopConditions else decision.stopConditions,
    escalationConditions :=
      if decision.escalationConditions.isEmpty then closure.escalationConditions
      else decision.escalationConditions,
    effectClass := closure.effectClass }

def proposeWork (s : ControllerStore) (state : ControllerState) (decision : ControllerDecision)
    (fresh : FreshId) (now : Time) : Result (ControllerStore × ControllerReply) := do
  let responsibilityRef ← orRaise state.responsibilityRef
    "propose-work requires controller responsibility_ref"
  let subjectRef ← orRaise state.subjectRef "propose-work requires controller subject_ref"
  let assessmentRef ← orRaise decision.assessmentRef "propose-work decision is incomplete"
  let workTitle ← orRaise decision.workTitle "propose-work decision is incomplete"
  let closureRef ← orRaise (decision.closureRef.filter (some · = state.activeClosureRef))
    "propose-work must reference the active cognitive closure"
  let closure ← orRaise (s.getClosure state.id closureRef)
    "active cognitive closure is unavailable"
  let effect ← orRaise (ProposalEffectClass.ofText? decision.effectClass)
    s!"{Text.pyRepr decision.effectClass} is not a valid EffectClass"
  guardValue (effect = closure.effectClass)
    "work effect_class exceeds or differs from cognitive closure"
  guardValue (decision.requestedCapabilities.all closure.requestedCapabilities.contains)
    "work requests capabilities outside cognitive closure"
  let definition ← s.responsibilities.currentDefinition responsibilityRef
  let proposal := workProposal decision closure responsibilityRef subjectRef assessmentRef workTitle
    definition.version fresh now
  let (saved, responsibilities) ← s.responsibilities.propose proposal now
  let s := { s with responsibilities }
  let s := s.append now state.id
    (.workProposal decision.id closure.id saved.id responsibilityRef)
  return s.transition now state
    { nextState state decision now .waiting (some saved.id) with
      workProposalRef := some saved.id, lastResultRef := some saved.id }

/-- The status a revision leads to, and what the controller then waits for. -/
def revisionStatus (revision : RevisionAssessment) : ControllerStatus × Option String :=
  match revision.recommendedDisposition with
  | .close => (.closed, none)
  | .reviseWork | .reopenCognition | .acquireEvidence => (.reopenRequired, none)
  | _ => (.waiting, some revision.id)

def assessRevision (s : ControllerStore) (state : ControllerState) (decision : ControllerDecision)
    (now : Time) : Result (ControllerStore × ControllerReply) := do
  let revision ← orRaise decision.revision "assess-revision decision has no revision"
  let activeClosureRef ← orRaise state.activeClosureRef
    "revision requires an active cognitive closure"
  let workProposalRef ← orRaise state.workProposalRef
    "revision requires a handed-off WorkProposal"
  guardValue (revision.closureRef = activeClosureRef)
    "revision does not refer to the active cognitive closure"
  let work ← orRaise (s.responsibilities.works.get? revision.workRef)
    "revision work_ref does not identify a durable Work"
  guardValue ((Fields.get work.metadata "responsibility_proposal_ref").eqStr workProposalRef)
    "revision Work does not descend from the current WorkProposal"
  guardValue (decision.policyRef.isNone || revision.policyRef.isNone ||
    revision.policyRef = decision.policyRef) "revision policy_ref conflicts with controller decision"
  let revision := { revision with policyRef := decision.policyRef.or revision.policyRef }
  let s := s.append now state.id (.revision decision.id revision)
  let (status, pendingRef) := revisionStatus revision
  return s.transition now state
    { nextState state decision now status pendingRef with
      lastRevisionRef := some revision.id, lastResultRef := some revision.id }

/-- A selected decision, once it is recorded. -/
def perform (s : ControllerStore) (state : ControllerState) (decision : ControllerDecision)
    (fresh : FreshId) (now : Time) : Result (ControllerStore × ControllerReply) :=
  match decision.kind with
  | .invokeCapability => s.invokeCapability state decision fresh now
  | .formClosure => s.formClosure state decision fresh.text now
  | .proposeWork => s.proposeWork state decision fresh now
  | .assessRevision => s.assessRevision state decision now
  | .close => .ok (s.transition now state (nextState state decision now .closed none))
  | .reopen => .ok (s.transition now state
      { nextState state decision now .open none with
        activeClosureRef := none, workProposalRef := none })
  | .wait => .ok (s.transition now state (nextState state decision now .waiting (some decision.id)))

def apply (s : ControllerStore) (decision : ControllerDecision) (fresh : FreshId) (now : Time) :
    ControllerStore × Result ControllerReply :=
  match s.requireCurrent decision with
  | .error e => (s, .error e)
  | .ok state =>
    let s := s.append now decision.controllerRef (.decision decision)
    match s.perform state decision fresh now with
    | .error e => (s, .error e)
    | .ok (s', reply) => (s', .ok reply)

/-- The decision that a policy selects, under the policy's name. -/
def select (s : ControllerStore) (controllerId : String) (policy : ControllerPolicy) :
    Result ControllerDecision := do
  let state ← s.require controllerId
  let policyRef := Text.strip policy.policyRef
  guardValue (policyRef ≠ "") "controller policy_ref cannot be blank"
  let decision ← policy.select state
  guardValue (decision.controllerRef = state.id)
    "controller policy selected a decision for another controller"
  guardValue (decision.stateVersion = state.version)
    s!"controller policy selected stale state version {decision.stateVersion}; current version is {state.version}"
  return { decision with policyRef := some policyRef }

def step (s : ControllerStore) (controllerId : String) (policy : ControllerPolicy)
    (fresh : FreshId) (now : Time) : ControllerStore × Result ControllerReply :=
  match s.select controllerId policy with
  | .error e => (s, .error e)
  | .ok decision => s.apply decision fresh now

def reopenRequired (s : ControllerStore) (controllerId reason : String) (now : Time) :
    Result (ControllerStore × ControllerState) := do
  let state ← s.require controllerId
  let s := s.append now state.id (.reopenRequired reason state.version)
  let next : ControllerState :=
    { state with
      status := .reopenRequired, version := state.version + 1, pendingRef := none,
      updatedAt := now }
  return (s.recordState now next (some state), next)

end ControllerStore
end PortableRuntime
