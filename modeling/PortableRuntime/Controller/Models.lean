import PortableRuntime.Responsibility.Models

/-!
# Cognitive-control objects

A controller state is copied with updates and validated only when it is read back, so a
state that its validator refuses can be recorded: `ControllerState.validate` is a check and
not a field.  Decisions are validated when they are built, and what that says of a
decision's payload is kept as fields.
-/

namespace PortableRuntime

inductive ControllerStatus where
  | open | waiting | closed | reopenRequired
deriving Repr, DecidableEq, Inhabited

def ControllerStatus.text : ControllerStatus → String
  | .open => "open"
  | .waiting => "waiting"
  | .closed => "closed"
  | .reopenRequired => "reopen-required"

inductive ControllerDecisionKind where
  | invokeCapability | formClosure | proposeWork | assessRevision | close | reopen | wait
deriving Repr, DecidableEq, Inhabited

def ControllerDecisionKind.text : ControllerDecisionKind → String
  | .invokeCapability => "invoke-capability"
  | .formClosure => "form-closure"
  | .proposeWork => "propose-work"
  | .assessRevision => "assess-revision"
  | .close => "close"
  | .reopen => "reopen"
  | .wait => "wait"

structure ControllerState where
  id : String
  responsibilityRef : Option String := none
  subjectRef : Option String := none
  contextRefs : List String := []
  candidateRefs : List String := []
  openIssueRefs : List String := []
  status : ControllerStatus := .open
  version : Nat := 0
  pendingRef : Option String := none
  activeClosureRef : Option String := none
  workProposalRef : Option String := none
  lastRevisionRef : Option String := none
  lastDecisionRef : Option String := none
  lastResultRef : Option String := none
  createdAt : Time
  updatedAt : Time
deriving Repr, DecidableEq

/-- `model_validate` of a recorded state. -/
def ControllerState.validate (state : ControllerState) : Result ControllerState := do
  guardValue (state.status ≠ .waiting || state.pendingRef.any (· ≠ ""))
    "waiting controller state requires pending_ref"
  guardValue (state.status = .waiting || state.pendingRef.isNone)
    "only waiting controller state may carry pending_ref"
  return state

structure CognitiveClosure where
  id : String
  controllerRef : String
  controllerStateVersion : Nat
  responsibilityRef : Option String := none
  subjectRef : Option String := none
  selectedCandidateRefs : List String := []
  deferredIssueRefs : List String := []
  acceptanceCriteria : List String
  stopConditions : List String := []
  escalationConditions : List String := []
  requestedCapabilities : List String := []
  effectClass : ProposalEffectClass := .readOnly
  policyRef : Option String := none
  criteriaGiven : acceptanceCriteria ≠ [] := by decide
deriving Repr, DecidableEq

inductive RevisionDisposition where
  | retryRun | reviseWork | reopenCognition | acquireEvidence | requestAuthorization
  | reconcileEffect | wait | close
deriving Repr, DecidableEq, Inhabited

structure RevisionAssessment where
  id : String
  controllerRef : String
  controllerStateVersion : Nat
  workRef : String
  closureRef : String
  recommendedDisposition : RevisionDisposition
  policyRef : Option String := none
deriving Repr, DecidableEq

def ProposalEffectClass.ofText? (text : String) : Option ProposalEffectClass :=
  [readOnly, internalReversible, externalEffect].find? (fun effect => effect.text = text)

structure ControllerDecision where
  id : String
  controllerRef : String
  stateVersion : Nat
  kind : ControllerDecisionKind
  policyRef : Option String := none
  capability : Option String := none
  closure : Option CognitiveClosure := none
  closureRef : Option String := none
  assessmentRef : Option String := none
  workKind : String := "generic-task"
  workTitle : Option String := none
  workDescription : String := ""
  requestedCapabilities : List String := []
  expectedResult : String := ""
  stopConditions : List String := []
  escalationConditions : List String := []
  effectClass : String := "read-only"
  revision : Option RevisionAssessment := none
  capabilityGiven : kind = .invokeCapability → Text.nonBlank (capability.getD "") = true := by
    decide
  closureBound : kind = .formClosure → closure.any (fun c =>
    c.controllerRef = controllerRef && c.controllerStateVersion = stateVersion) = true := by decide
  proposalComplete : kind = .proposeWork → (Text.nonBlank (closureRef.getD "") &&
    Text.nonBlank (assessmentRef.getD "") && Text.nonBlank (workTitle.getD "") &&
    (ProposalEffectClass.ofText? effectClass).isSome) = true := by decide
  revisionBound : kind = .assessRevision → revision.any (fun r =>
    r.controllerRef = controllerRef && r.controllerStateVersion = stateVersion) = true := by decide
deriving Repr

/-- What the controller writes to the event journal.  `computedFrom` is the state of which a
recorded state is an updated copy; no operation reads it. -/
inductive ControllerRecord where
  | state (state : ControllerState) (computedFrom : Option ControllerState)
  | decision (decision : ControllerDecision)
  | result (decisionRef requestRef : String) (stateVersion : Nat)
  | closure (decisionRef : String) (closure : CognitiveClosure)
  | workProposal (decisionRef closureRef proposalRef responsibilityRef : String)
  | revision (decisionRef : String) (revision : RevisionAssessment)
  | reopenRequired (reason : String) (fromVersion : Nat)

structure ControllerEvent where
  subjectRef : String
  createdAt : Time
  record : ControllerRecord

def ControllerEvent.asState (event : ControllerEvent) : Option ControllerState :=
  match event.record with
  | .state state _ => some state
  | _ => none

def ControllerEvent.asClosure (event : ControllerEvent) : Option CognitiveClosure :=
  match event.record with
  | .closure _ closure => some closure
  | _ => none

end PortableRuntime
