import Mathlib.Data.List.Lex
import Mathlib.Data.String.Basic
import PortableRuntime.Library.Dict
import PortableRuntime.Python.FrozenSet

/-!
# Distinction governance

The pure operations on a governance configuration.  Authority checks and freshness lookups
are functions that the callers bring, other for every operation if they want.
-/

namespace PortableRuntime

namespace Governance

def qualifications : List String := ["candidate", "qualified", "disqualified"]

def activations : List String := ["active", "suspended"]

def applyReviewDischargeOp : String := "apply_review_discharge"
def decideQualification : String := "decide_qualification"
def applyQualification : String := "apply_qualification_transition"
def decideActivation : String := "decide_activation"
def applyActivation : String := "apply_activation_transition"
def stateApplyOperations : List String := [applyQualification, applyActivation]

abbrev Partition := List FrozenSet

structure DistinctionState where
  qualification : String
  activation : String
  scope : FrozenSet
  partition : Partition
  version : Int := 0
deriving DecidableEq

structure BlockingCondition where
  contextNames : FrozenSet := .empty
  scopeAny : FrozenSet := .empty
  scopeAll : FrozenSet := .empty
deriving DecidableEq

/-- A resource target; a dimension that is `none` is a wildcard. -/
structure GovernanceAuthorityTarget where
  kind : String
  schemeId : String
  resourceRef : String
  scope : Option FrozenSet := none
  partition : Option Partition := none
  operationalAnchor : Option String := none
deriving DecidableEq

structure AuthorityRequest where
  actor : String
  operation : String
  target : GovernanceAuthorityTarget
  context : String
deriving DecidableEq

abbrev AuthorityCheck := AuthorityRequest → Bool

/-- `freshness(basis)`. -/
abbrev FreshnessAnchorLookup := String → Option String

structure ReviewObligation where
  id : String
  target : String
  triggerRef : String
  basisRefs : List String
  context : String
  blocking : Bool := true
  blockingCondition : Option BlockingCondition := none
  closureRequirements : FrozenSet := .empty
  invalidatesDecisions : FrozenSet := .empty
deriving DecidableEq

structure GovernanceDecision where
  id : String
  actor : String
  operation : String
  target : String
  context : String
  reviewRefs : List String
  disposition : String
  expectedStateAnchor : String
  basisAnchors : List (String × String)
  scopeSnapshot : FrozenSet
  partitionSnapshot : Partition
  closureFacts : FrozenSet := .empty
  requiredQualification : Option String := none
  requiredActivation : Option String := none
  superseded : Bool := false
deriving DecidableEq

structure GovernedApplication where
  id : String
  actor : String
  operation : String
  schemeId : String
  target : String
  decisionRef : String
  context : String
  newQualification : Option String := none
  newActivation : Option String := none
  reviewObligationId : Option String := none
deriving DecidableEq

structure ApplicationReceipt where
  application : GovernedApplication
  effectKind : String
  preAnchor : String
  postAnchor : String
deriving DecidableEq

structure GovernanceRuntime where
  obligations : Dict String ReviewObligation := .empty
  decisions : Dict String GovernanceDecision := .empty
  applications : Dict String ApplicationReceipt := .empty

structure GovernanceConfiguration where
  states : Dict String DistinctionState := .empty
  runtime : GovernanceRuntime := {}

/-! ## Anchors -/

def canonicalPartition (partition : Partition) : List (List String) :=
  (partition.map (·.items)).insertionSort (· ≤ ·)

def stateAnchor (state : DistinctionState) : String :=
  "v=" ++ toString state.version ++ "|q=" ++ state.qualification ++ "|a=" ++ state.activation ++
    "|scope=" ++ Text.join "," state.scope.items ++ "|partition=" ++
    Text.pyReprTuple ((canonicalPartition state.partition).map
      (fun cell => Text.pyReprTuple (cell.map Text.pyRepr)))

def obligationsAnchor (obligations : Dict String ReviewObligation) : String :=
  Text.join "|" (Text.sorted obligations.keys)

/-! ## Authority -/

def projectionAuthorityTarget (schemeId : String) (scope : FrozenSet) (partition : Partition)
    (operationalAnchor : String) : GovernanceAuthorityTarget :=
  { kind := "distinction_projection", schemeId, resourceRef := "distinction:" ++ schemeId,
    scope := some scope, partition := some partition,
    operationalAnchor := some operationalAnchor }

def decisionTarget (decision : GovernanceDecision) : GovernanceAuthorityTarget :=
  projectionAuthorityTarget decision.target decision.scopeSnapshot decision.partitionSnapshot
    decision.expectedStateAnchor

def decisionAuthorityRequest (decision : GovernanceDecision) : AuthorityRequest :=
  { actor := decision.actor, operation := decision.operation, target := decisionTarget decision,
    context := decision.context }

def applicationAuthorityRequest (application : GovernedApplication)
    (decision : GovernanceDecision) : AuthorityRequest :=
  { actor := application.actor, operation := application.operation,
    target := decisionTarget decision, context := application.context }

def reviewDischargeAuthorityRequest (application : GovernedApplication)
    (obligation : ReviewObligation) (state : DistinctionState) : AuthorityRequest :=
  { actor := application.actor, operation := application.operation,
    target :=
      { kind := "review_obligation", schemeId := obligation.target,
        resourceRef := "review_obligation:" ++ obligation.id, scope := some state.scope,
        partition := some state.partition, operationalAnchor := some (stateAnchor state) },
    context := application.context }

/-! ## Admissible states -/

/-- Cells that are not empty and do not meet, and whose union is the scope. -/
def partitionMatchesScope (partition : Partition) (scope : FrozenSet) : Bool :=
  if scope.isEmpty then partition.isEmpty
  else !partition.isEmpty && partition.all (fun cell => !cell.isEmpty) &&
    decide ((partition.flatMap (·.items)).Nodup) &&
    Text.sorted (partition.flatMap (·.items)) == scope.items

def stateAdmissible (state : DistinctionState) : Bool :=
  qualifications.contains state.qualification && activations.contains state.activation &&
  partitionMatchesScope state.partition state.scope &&
  !(state.activation == "active" && (state.qualification != "qualified" || state.scope.isEmpty)) &&
  !(state.qualification == "disqualified" && state.activation != "suspended") &&
  (!state.scope.isEmpty || state.activation == "suspended")

def stateAdmissibleFor (schemeId : String) (state : DistinctionState) : Bool :=
  schemeId != "" && stateAdmissible state

def globalStateAdmissible (config : GovernanceConfiguration) : Bool :=
  config.states.entries.all (fun e => stateAdmissibleFor e.1 e.2)

/-! ## Obligations -/

def obligationKey (obligation : ReviewObligation) : String × String × List String × String :=
  (obligation.target, obligation.triggerRef, Text.sortedUnique obligation.basisRefs,
    obligation.context)

/-- An open obligation has the key of this one. -/
def keyOpen (runtime : GovernanceRuntime) (obligation : ReviewObligation) : Bool :=
  runtime.obligations.values.any (fun existing =>
    obligationKey existing == obligationKey obligation)

def openObligation (runtime : GovernanceRuntime) (obligation : ReviewObligation) :
    Option GovernanceRuntime :=
  if keyOpen runtime obligation then none
  else some { runtime with obligations := runtime.obligations.set obligation.id obligation }

def openAll (runtime : GovernanceRuntime) (obligations : List ReviewObligation) :
    GovernanceRuntime :=
  obligations.foldl (fun runtime o => (openObligation runtime o).getD runtime) runtime

def commitEventOpening (config : GovernanceConfiguration) (obligations : List ReviewObligation)
    (eventKey : String) (processedEventKeys : List String) :
    Option (GovernanceConfiguration × List String) :=
  if processedEventKeys.contains eventKey then none
  else if obligations.any (fun o => o.triggerRef != eventKey) then none
  else some ({ config with runtime := openAll config.runtime obligations },
    processedEventKeys.insert eventKey)

/-! ## Decisions -/

def decisionRecorded (decision : GovernanceDecision) (config : GovernanceConfiguration) : Bool :=
  config.runtime.decisions.get? decision.id == some decision

def relevantBasisUnchanged (decision : GovernanceDecision) (freshness : FreshnessAnchorLookup) :
    Bool :=
  decision.basisAnchors.all (fun basis => freshness basis.1 == some basis.2)

def noInvalidatingReview (decision : GovernanceDecision) (config : GovernanceConfiguration) :
    Bool :=
  !config.runtime.obligations.values.any (fun o => o.invalidatesDecisions.contains decision.id)

def commonDecisionFreshness (decision : GovernanceDecision) (config : GovernanceConfiguration)
    (freshness : FreshnessAnchorLookup) : Bool :=
  decisionRecorded decision config && !decision.superseded &&
    relevantBasisUnchanged decision freshness && noInvalidatingReview decision config

/-- The scope and partition that a decision was made for. -/
def snapshotMatches (decision : GovernanceDecision) (state : DistinctionState) : Bool :=
  state.scope == decision.scopeSnapshot &&
    canonicalPartition state.partition == canonicalPartition decision.partitionSnapshot

def decisionFreshForApplication (decision : GovernanceDecision) (config : GovernanceConfiguration)
    (freshness : FreshnessAnchorLookup) : Bool :=
  match config.states.get? decision.target with
  | none => false
  | some state =>
    commonDecisionFreshness decision config freshness &&
      stateAnchor state == decision.expectedStateAnchor && snapshotMatches decision state

def reviewDecisionInputMatches (decision : GovernanceDecision) (config : GovernanceConfiguration) :
    Bool :=
  !decision.reviewRefs.isEmpty && decision.reviewRefs.all (fun ref =>
    match config.runtime.obligations.get? ref with
    | none => false
    | some o => o.target == decision.target && o.context == decision.context &&
        o.basisRefs.all (decision.basisAnchors.map Prod.fst).contains)

def decisionRecordAdmissible (config : GovernanceConfiguration) (decision : GovernanceDecision)
    (authority : AuthorityCheck) : Bool :=
  match config.runtime.decisions.get? decision.id with
  | some existing => existing == decision
  | none => (config.states.get? decision.target).isSome &&
      authority (decisionAuthorityRequest decision) && reviewDecisionInputMatches decision config

def recordDecision (config : GovernanceConfiguration) (decision : GovernanceDecision)
    (authority : AuthorityCheck) : Option GovernanceConfiguration :=
  if !decisionRecordAdmissible config decision authority then none
  else match config.runtime.decisions.get? decision.id with
    | some _ => some config
    | none => some { config with runtime := { config.runtime with
        decisions := config.runtime.decisions.set decision.id decision } }

/-! ## State applications -/

def precondition (application : GovernedApplication) (config : GovernanceConfiguration) : Bool :=
  application.id != "" && application.operation != "" && application.target != "" &&
    application.schemeId != "" && (config.runtime.applications.get? application.id).isNone &&
    (config.states.get? application.schemeId).isSome &&
    (application.operation != applyReviewDischargeOp ||
      application.reviewObligationId.any (· != ""))

def candidateStateEffect (application : GovernedApplication) (state : DistinctionState) :
    DistinctionState :=
  { state with
    qualification := application.newQualification.getD state.qualification,
    activation := application.newActivation.getD state.activation,
    version := state.version + 1 }

def dispositionEffective (decision : GovernanceDecision) : Bool :=
  ["no_change", "transition_required"].contains decision.disposition

def linked (application : GovernedApplication) (decision : GovernanceDecision) : Bool :=
  application.decisionRef == decision.id && application.schemeId == decision.target &&
  if application.operation = applyReviewDischargeOp then dispositionEffective decision
  else (decision.operation == decideQualification && application.operation == applyQualification) ||
    (decision.operation == decideActivation && application.operation == applyActivation)

def effectMatchesDecision (decision : GovernanceDecision) (state : DistinctionState) : Bool :=
  decision.requiredQualification.all (state.qualification == ·) &&
    decision.requiredActivation.all (state.activation == ·)

def applicationAdmissible (config : GovernanceConfiguration) (application : GovernedApplication)
    (authority : AuthorityCheck) (freshness : FreshnessAnchorLookup) : Bool :=
  stateApplyOperations.contains application.operation &&
  application.target == application.schemeId &&
  match config.runtime.decisions.get? application.decisionRef with
  | none => false
  | some decision =>
    authority (applicationAuthorityRequest application decision) && linked application decision &&
    decisionFreshForApplication decision config freshness && precondition application config &&
    match config.states.get? application.schemeId with
    | none => false
    | some current =>
      stateAdmissibleFor application.schemeId (candidateStateEffect application current) &&
        decision.disposition == "transition_required" &&
        effectMatchesDecision decision (candidateStateEffect application current)

def stateReceipt (application : GovernedApplication) (current : DistinctionState) :
    ApplicationReceipt :=
  { application, effectKind := "state", preAnchor := stateAnchor current,
    postAnchor := stateAnchor (candidateStateEffect application current) }

def applyStateTransition (config : GovernanceConfiguration) (application : GovernedApplication)
    (authority : AuthorityCheck) (freshness : FreshnessAnchorLookup) :
    Option GovernanceConfiguration :=
  if !applicationAdmissible config application authority freshness then none
  else do
    let current ← config.states.get? application.schemeId
    return {
      states := config.states.set application.schemeId (candidateStateEffect application current),
      runtime := { config.runtime with
        applications := config.runtime.applications.set application.id
          (stateReceipt application current) } }

/-! ## Review discharges -/

def closureAdmissible (decision : GovernanceDecision) (obligation : ReviewObligation)
    (config : GovernanceConfiguration) (freshness : FreshnessAnchorLookup) : Bool :=
  decisionRecorded decision config &&
  config.runtime.obligations.get? obligation.id == some obligation &&
  decision.reviewRefs.contains obligation.id && decision.target == obligation.target &&
  decision.context == obligation.context && dispositionEffective decision &&
  match config.states.get? decision.target with
  | none => false
  | some state => snapshotMatches decision state && relevantBasisUnchanged decision freshness &&
      obligation.closureRequirements.isSubset decision.closureFacts

def requiredTransitionRealized (decision : GovernanceDecision)
    (stateApplication : GovernedApplication) (config : GovernanceConfiguration) : Bool :=
  match config.states.get? decision.target,
    config.runtime.applications.get? stateApplication.id with
  | some state, some receipt =>
    decision.disposition == "transition_required" && receipt.application == stateApplication &&
      stateApplication.decisionRef == decision.id && linked stateApplication decision &&
      receipt.effectKind == "state" && receipt.preAnchor == decision.expectedStateAnchor &&
      receipt.postAnchor == stateAnchor state && effectMatchesDecision decision state &&
      stateAdmissibleFor decision.target state
  | _, _ => false

def decisionFreshForDischarge (decision : GovernanceDecision) (config : GovernanceConfiguration)
    (freshness : FreshnessAnchorLookup) (stateApplication : Option GovernedApplication) : Bool :=
  match config.states.get? decision.target with
  | none => false
  | some state =>
    commonDecisionFreshness decision config freshness &&
    if decision.disposition = "no_change" then
      stateAnchor state == decision.expectedStateAnchor && snapshotMatches decision state
    else decision.disposition == "transition_required" &&
      stateApplication.any (fun a => requiredTransitionRealized decision a config)

def dischargeAdmissible (config : GovernanceConfiguration) (application : GovernedApplication)
    (authority : AuthorityCheck) (freshness : FreshnessAnchorLookup)
    (stateApplication : Option GovernedApplication) : Bool :=
  application.operation == applyReviewDischargeOp &&
  match config.runtime.decisions.get? application.decisionRef,
    application.reviewObligationId.bind config.runtime.obligations.get? with
  | some decision, some obligation =>
    application.target == "review_obligation:" ++ obligation.id &&
    (match config.states.get? decision.target with
      | none => false
      | some state => authority (reviewDischargeAuthorityRequest application obligation state)) &&
    precondition application config && linked application decision &&
    closureAdmissible decision obligation config freshness &&
    decisionFreshForDischarge decision config freshness stateApplication &&
    if decision.disposition = "no_change" then stateApplication.isNone
    else decision.disposition == "transition_required" && stateApplication.isSome
  | _, _ => false

def dischargeReceipt (application : GovernedApplication)
    (obligations remaining : Dict String ReviewObligation) : ApplicationReceipt :=
  { application, effectKind := "review_discharge", preAnchor := obligationsAnchor obligations,
    postAnchor := obligationsAnchor remaining }

def applyReviewDischarge (config : GovernanceConfiguration) (application : GovernedApplication)
    (authority : AuthorityCheck) (freshness : FreshnessAnchorLookup)
    (stateApplication : Option GovernedApplication) : Option GovernanceConfiguration :=
  if !dischargeAdmissible config application authority freshness stateApplication then none
  else do
    let obligationId ← application.reviewObligationId
    let remaining := config.runtime.obligations.erase obligationId
    return { config with runtime := { config.runtime with
      obligations := remaining,
      applications := config.runtime.applications.set application.id
        (dischargeReceipt application config.runtime.obligations remaining) } }

end Governance
end PortableRuntime
