import PortableRuntime.Governance.Distinction
import PortableRuntime.Python.Json

/-!
# Canonical governance history

Governance events carry the objects that they record.  The id of an event is made of its
kind and the id of its object; the digest in it is read as the id.
-/

namespace PortableRuntime
namespace Governance

inductive GovernanceEvent where
  | stateSeeded (schemeId : String) (state : DistinctionState)
  | reviewOpened (obligation : ReviewObligation)
  | decisionRecorded (decision : GovernanceDecision)
  | applicationCommitted (receipt : ApplicationReceipt) (nextState : Option DistinctionState)
  | eventProcessed (eventRef : String) (obligationIds : List String)
deriving DecidableEq

/-- `_event_id(prefix, identity)`. -/
abbrev EventId := String × String

def EventId.text (id : EventId) : String := "gov_" ++ id.1 ++ "_" ++ id.2

def GovernanceEvent.id : GovernanceEvent → EventId
  | .stateSeeded schemeId _ => ("state", schemeId)
  | .reviewOpened obligation => ("review", obligation.id)
  | .decisionRecorded decision => ("decision", decision.id)
  | .applicationCommitted receipt _ => ("application", receipt.application.id)
  | .eventProcessed eventRef _ => ("processed", eventRef)

/-- What a replay has read so far. -/
structure Replay where
  states : Dict String DistinctionState := .empty
  obligations : Dict String ReviewObligation := .empty
  decisions : Dict String GovernanceDecision := .empty
  applications : Dict String ApplicationReceipt := .empty
  discharged : List String := []
  processed : Dict String (List String) := .empty

/-- Bind a value to an identity, unless another one is bound to it. -/
def bindIdentity {α : Type} [DecidableEq α] (d : Dict String α) (identity : String) (value : α)
    (message : String) : Result (Dict String α) := do
  guardValue ((d.get? identity).all (· = value)) message
  return d.set identity value

/-- The state of a scheme, unless a version at least as great has been read. -/
def Replay.readState (r : Replay) (schemeId : String) (state : DistinctionState) :
    Result Replay := do
  guardValue (stateAdmissibleFor schemeId state)
    "canonical governance history contains inadmissible state"
  if (r.states.get? schemeId).all (fun current => current.version < state.version) then
    return { r with states := r.states.set schemeId state }
  else return r

def Replay.read (r : Replay) : GovernanceEvent → Result Replay
  | .stateSeeded schemeId state => r.readState schemeId state
  | .reviewOpened obligation => do
    let obligations ← bindIdentity r.obligations obligation.id obligation
      "canonical history rebinds review obligation identity"
    return { r with obligations }
  | .decisionRecorded decision => do
    let decisions ← bindIdentity r.decisions decision.id decision
      "canonical history rebinds governance decision identity"
    return { r with decisions }
  | .applicationCommitted receipt nextState => do
    let applications ← bindIdentity r.applications receipt.application.id receipt
      "canonical history rebinds governed application identity"
    let discharged :=
      if receipt.effectKind = "review_discharge" then
        r.discharged ++ (receipt.application.reviewObligationId.filter (· ≠ "")).toList
      else r.discharged
    let r := { r with applications, discharged }
    match nextState with
    | some state => r.readState receipt.application.schemeId state
    | none => return r
  | .eventProcessed eventRef obligationIds => do
    let processed ← bindIdentity r.processed eventRef obligationIds
      "canonical history rebinds processed event identity"
    return { r with processed }

def Replay.configuration (r : Replay) : GovernanceConfiguration :=
  { states := r.states,
    runtime :=
      { obligations := r.discharged.foldl Dict.erase r.obligations,
        decisions := r.decisions, applications := r.applications } }

def reconstructGovernanceHistory (events : List GovernanceEvent) :
    Result (GovernanceConfiguration × Dict String (List String)) := do
  let r ← events.foldlM Replay.read {}
  guardValue (globalStateAdmissible r.configuration)
    "canonical governance history reconstructs inadmissible state"
  return (r.configuration, r.processed)

end Governance
end PortableRuntime
