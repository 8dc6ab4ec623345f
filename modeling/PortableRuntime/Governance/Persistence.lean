import PortableRuntime.Governance.Canonical

/-!
# Durable governance

The sidecar tables and the journal of governance events of one store.  An operation changes
both in one transaction, so one that raises leaves the store as it was.
-/

namespace PortableRuntime
namespace Governance

structure GovernanceStore where
  states : Dict String DistinctionState := .empty
  obligations : Dict String ReviewObligation := .empty
  decisions : Dict String GovernanceDecision := .empty
  applications : Dict String ApplicationReceipt := .empty
  history : Dict EventId GovernanceEvent := .empty

namespace GovernanceStore

/-- `_configuration()`, and the snapshot that a lifecycle client takes. -/
def configuration (s : GovernanceStore) : GovernanceConfiguration :=
  { states := s.states,
    runtime :=
      { obligations := s.obligations, decisions := s.decisions, applications := s.applications } }

/-- `append_event`: the same event again is no event. -/
def appendHistoryEvent (s : GovernanceStore) (event : GovernanceEvent) :
    Result GovernanceStore :=
  match s.history.get? event.id with
  | some existing =>
    if existing = event then .ok s
    else raiseValue
      s!"event journal is append-only: refusing to overwrite event {Text.pyRepr event.id.text}"
  | none => .ok { s with history := s.history.set event.id event }

def seedState (s : GovernanceStore) (schemeId : String) (state : DistinctionState) :
    Result GovernanceStore := do
  guardValue (stateAdmissibleFor schemeId state) "cannot seed an inadmissible distinction state"
  match s.states.get? schemeId with
  | some existing =>
    guardValue (existing = state) (s!"distinction state {Text.pyRepr schemeId} already exists; " ++
      "governed transitions require an application receipt")
    return s
  | none =>
    let s := { s with states := s.states.set schemeId state }
    s.appendHistoryEvent (.stateSeeded schemeId state)

/-- Whether an obligation is new; one that is open stays as it is. -/
def validateNewObligation (s : GovernanceStore) (obligation : ReviewObligation) : Result Bool :=
  match s.obligations.get? obligation.id with
  | some existing =>
    if existing = obligation then .ok false
    else raiseValue s!"review obligation {Text.pyRepr obligation.id} cannot be rebound"
  | none => do
    guardValue (!keyOpen s.configuration.runtime obligation)
      "equivalent review obligation is already open for this event instance"
    return true

/-- Put the row of an obligation and append its event. -/
def materialize (s : GovernanceStore) (obligation : ReviewObligation) : Result GovernanceStore :=
  { s with obligations := s.obligations.set obligation.id obligation }.appendHistoryEvent
    (.reviewOpened obligation)

def openObligation (s : GovernanceStore) (obligation : ReviewObligation) :
    Result GovernanceStore := do
  if ← s.validateNewObligation obligation then s.materialize obligation
  else return s

def processedEventObligationIds (s : GovernanceStore) (eventRef : String) :
    Result (Option (List String)) :=
  match s.history.get? (GovernanceEvent.eventProcessed eventRef []).id with
  | some (.eventProcessed key obligationIds) => do
    guardValue (key = eventRef) "processed event marker identity is inconsistent"
    return some obligationIds
  | _ => return none

/-- Every obligation of an event is new, and no two have one key. -/
def validateEventObligations (s : GovernanceStore) :
    List (String × String × List String × String) → List ReviewObligation → Result Unit
  | _, [] => return ()
  | requestedKeys, obligation :: rest => do
    guardValue (!requestedKeys.contains (obligationKey obligation))
      "event projects duplicate review responsibility"
    let new ← s.validateNewObligation obligation
    guardValue new "unprocessed event references an already-materialized obligation"
    s.validateEventObligations (obligationKey obligation :: requestedKeys) rest

def commitEventObligations (s : GovernanceStore) (eventRef : String)
    (obligations : List ReviewObligation) : Result (List String × GovernanceStore) := do
  guardValue (eventRef ≠ "") "event instance key must be non-empty"
  guardValue (obligations.all (·.triggerRef = eventRef))
    "review obligation trigger does not match event instance"
  match ← s.processedEventObligationIds eventRef with
  | some existing => return (existing, s)
  | none =>
    s.validateEventObligations [] obligations
    let s ← obligations.foldlM materialize s
    let ids := obligations.map (·.id)
    let s ← s.appendHistoryEvent (.eventProcessed eventRef ids)
    return (ids, s)

def recordDecision (s : GovernanceStore) (decision : GovernanceDecision) :
    Result GovernanceStore :=
  match s.decisions.get? decision.id with
  | some existing =>
    if existing = decision then .ok s
    else raiseValue s!"governance decision {Text.pyRepr decision.id} cannot be rebound"
  | none => do
    guardValue (s.states.get? decision.target).isSome
      "governance decision references unknown target state"
    guardValue (reviewDecisionInputMatches decision s.configuration)
      "governance decision does not match its open review inputs"
    let s := { s with decisions := s.decisions.set decision.id decision }
    s.appendHistoryEvent (.decisionRecorded decision)

def requireFreshApplicationId (s : GovernanceStore) (applicationId : String) : Result Unit :=
  guardValue (s.applications.get? applicationId).isNone
    (s!"governed application {Text.pyRepr applicationId} is immutable and cannot be replayed " ++
      "or rebound")

def recheckFreshness (decision : GovernanceDecision) (freshness : Option FreshnessAnchorLookup) :
    Result Unit :=
  guardValue (freshness.all (relevantBasisUnchanged decision))
    "governance decision basis changed before durable commit"

def commitStateApplication (s : GovernanceStore) (schemeId : String)
    (nextState : DistinctionState) (receipt : ApplicationReceipt)
    (freshness : Option FreshnessAnchorLookup) : Result GovernanceStore := do
  let application := receipt.application
  s.requireFreshApplicationId application.id
  let current ← orRaise (s.states.get? schemeId)
    "state application references unknown distinction state"
  let decision ← orRaise (s.decisions.get? application.decisionRef)
    "state application references unknown governance decision"
  recheckFreshness decision freshness
  guardValue (receipt.effectKind == "state" && application.schemeId == schemeId &&
      application.target == schemeId && decision.target == schemeId &&
      linked application decision)
    "state application responsibility linkage is invalid"
  guardValue (receipt.preAnchor = stateAnchor current)
    "state application pre-anchor does not match persisted state"
  guardValue (receipt.preAnchor = decision.expectedStateAnchor)
    "state application does not start from the decision basis state"
  guardValue (candidateStateEffect application current = nextState)
    "state application next state is not its declared candidate effect"
  guardValue (stateAdmissibleFor schemeId nextState && effectMatchesDecision decision nextState)
    "state application candidate violates governed state invariants"
  guardValue (receipt.postAnchor = stateAnchor nextState)
    "state application post-anchor does not match next state"
  let s := { s with
    states := s.states.set schemeId nextState,
    applications := s.applications.set application.id receipt }
  s.appendHistoryEvent (.applicationCommitted receipt (some nextState))

def commitReviewDischarge (s : GovernanceStore) (obligationId : String)
    (receipt : ApplicationReceipt) (freshness : Option FreshnessAnchorLookup) :
    Result GovernanceStore := do
  let application := receipt.application
  s.requireFreshApplicationId application.id
  let obligation ← orRaise (s.obligations.get? obligationId)
    "review discharge references unknown obligation"
  let decision ← orRaise (s.decisions.get? application.decisionRef)
    "review discharge references unknown governance decision"
  recheckFreshness decision freshness
  guardValue (receipt.effectKind == "review_discharge" &&
      application.operation == applyReviewDischargeOp &&
      application.reviewObligationId == some obligationId &&
      application.target == "review_obligation:" ++ obligationId &&
      application.schemeId == decision.target && decision.reviewRefs.contains obligationId &&
      obligation.target == decision.target && obligation.context == decision.context &&
      linked application decision)
    "review discharge responsibility linkage is invalid"
  guardValue (receipt.preAnchor = obligationsAnchor s.obligations)
    "review discharge pre-anchor does not match open obligations"
  guardValue (receipt.postAnchor = obligationsAnchor (s.obligations.erase obligationId))
    "review discharge post-anchor does not match remaining obligations"
  let s := { s with
    obligations := s.obligations.erase obligationId,
    applications := s.applications.set application.id receipt }
  s.appendHistoryEvent (.applicationCommitted receipt none)

/-- The sidecar that a replay of the events gives. -/
def rebuildProjectionFromCanonicalHistory (s : GovernanceStore) (events : List GovernanceEvent) :
    Result GovernanceStore := do
  let (config, _) ← reconstructGovernanceHistory events
  return {
    states := .ofPairs config.states.entries,
    obligations := .ofPairs (config.runtime.obligations.values.map (fun v => (v.id, v))),
    decisions := .ofPairs (config.runtime.decisions.values.map (fun v => (v.id, v))),
    applications :=
      .ofPairs (config.runtime.applications.values.map (fun v => (v.application.id, v))),
    history := s.history }

end GovernanceStore

inductive PersistenceCall where
  | seedState (schemeId : String) (state : DistinctionState)
  | openObligation (obligation : ReviewObligation)
  | commitEventObligations (eventRef : String) (obligations : List ReviewObligation)
  | recordDecision (decision : GovernanceDecision)
  | commitStateApplication (schemeId : String) (nextState : DistinctionState)
      (receipt : ApplicationReceipt) (freshness : Option FreshnessAnchorLookup)
  | commitReviewDischarge (obligationId : String) (receipt : ApplicationReceipt)
      (freshness : Option FreshnessAnchorLookup)

namespace PersistenceCall

def perform (s : GovernanceStore) : PersistenceCall → Result GovernanceStore
  | .seedState schemeId state => s.seedState schemeId state
  | .openObligation obligation => s.openObligation obligation
  | .commitEventObligations eventRef obligations =>
    Prod.snd <$> s.commitEventObligations eventRef obligations
  | .recordDecision decision => s.recordDecision decision
  | .commitStateApplication schemeId nextState receipt freshness =>
    s.commitStateApplication schemeId nextState receipt freshness
  | .commitReviewDischarge obligationId receipt freshness =>
    s.commitReviewDischarge obligationId receipt freshness

def step (s : GovernanceStore) (call : PersistenceCall) : GovernanceStore :=
  match call.perform s with
  | .ok s' => s'
  | .error _ => s

end PersistenceCall
end Governance
end PortableRuntime
