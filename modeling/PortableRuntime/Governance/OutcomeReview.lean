import PortableRuntime.Governance.Commit
import PortableRuntime.Governance.OutcomeImpact

/-!
# Reviews of confirmed outcomes

One call observes a confirmed outcome: it judges each dependency and records the judgment before it
goes on, and opens the reviews that the judgments require together with the mark of the event.
Processes may call at the same time, and stop anywhere.
-/

namespace PortableRuntime

/-- `except (ValueError, RuntimeError)`. -/
def PyError.valueOrRuntime : PyError → Bool
  | .typeError _ => false
  | _ => true

namespace ImpactType

/-- `_REVIEW_ACTIONS`. -/
def reviewActions : List ImpactType :=
  [.backgroundRevalidate, .blockNextUse, .requireHumanReview, .reopen]

/-- `_BLOCKING_ACTIONS`. -/
def blockingActions : List ImpactType := [.blockNextUse, .requireHumanReview, .reopen]

/-- `_closure_requirements`. -/
def closureRequirements : ImpactType → FrozenSet
  | .requireHumanReview => .ofList ["basis_checked", "human_reviewed"]
  | .reopen => .ofList ["basis_checked", "reopen_resolved"]
  | _ => .ofList ["basis_checked"]

end ImpactType

namespace Governance

open Recovery

/-! ## Projection -/

inductive ProjectionStatus where
  | notRequired | ready | projectionUnavailable
deriving Repr, DecidableEq, Inhabited

structure ReviewProjection where
  status : ProjectionStatus
  action : ImpactType
  target : String
  blocking : Bool
  obligation : Option ReviewObligation := none

section Project

variable (textDigest : String → String)

/-- `_obligation_id`. -/
def obligationId (eventRef target context : String) : String :=
  "review_" ++
    String.ofList ((textDigest (Text.join "\x1f" [eventRef, target, context])).toList.take 24)

/-- The obligation of a disposition that asks for a review. -/
def reviewObligation (triggerEventRef target context : String) (action : ImpactType)
    (basis : List String) (decisions : Dict String GovernanceDecision) : ReviewObligation :=
  let blocking := ImpactType.blockingActions.contains action
  { id := obligationId textDigest triggerEventRef target context
    target
    triggerRef := triggerEventRef
    basisRefs := basis
    context
    blocking
    blockingCondition := if blocking then some { contextNames := .ofList [context] } else none
    closureRequirements := action.closureRequirements
    invalidatesDecisions := .ofList ((decisions.values.filter
      (fun d => d.target == target && d.context == context)).map (·.id)) }

/-- Project one explicit disposition into the ReviewObligation lifecycle. -/
def projectReviewObligationFromDisposition (persistence : GovernanceStore)
    (triggerEventRef target context : String) (disposition : RevalidationDisposition)
    (basisRefs : List String) : Result ReviewProjection :=
  let action := disposition.action
  let blocking := ImpactType.blockingActions.contains action
  let normalizedBasis := (basisRefs.filter (· ≠ "")).eraseDups
  if normalizedBasis = [] then raiseValue "review projection requires explicit basis refs"
  else if !ImpactType.reviewActions.contains action then
    return { status := .notRequired, action, target, blocking := false }
  else if (persistence.states.get? target).isNone then
    return { status := .projectionUnavailable, action, target, blocking }
  else
    return {
      status := .ready
      action
      target
      blocking
      obligation := some (reviewObligation textDigest triggerEventRef target context action
        normalizedBasis persistence.decisions) }

end Project

/-! ## Observation -/

inductive OutcomeGovernanceImpactStatus where
  | processed | alreadyProcessed | notDeclared | unavailable
deriving Repr, DecidableEq, Inhabited

structure OutcomeGovernanceImpactResult where
  status : OutcomeGovernanceImpactStatus
  eventRef : String
  reason : String
  committedImpacts : List CommittedOutcomeImpact := []
  openedObligations : List ReviewObligation := []
  alreadyProcessedObligationIds : List String := []
  projectionUnavailable : List ReviewProjection := []

/-- The arguments of `observe_outcome_confirmed`, apart from the policies. -/
structure Observed where
  eventRef : String
  dependencies : List OutcomeGovernanceDependency
  context : String
  requestedScope : FrozenSet
  subjectVersionRefs : List String

def Observed.request (args : Observed) (dependency : OutcomeGovernanceDependency) :
    OutcomeImpactCommitRequest :=
  { eventRef := args.eventRef, dependency, context := args.context,
    requestedScope := args.requestedScope, subjectVersionRefs := args.subjectVersionRefs }

structure PolicyResolvers where
  impactPolicyFor : OutcomeGovernanceDependency → Result OutcomeImpactPolicy
  dispositionPolicyFor : OutcomeGovernanceDependency → Result OutcomeDispositionPolicy

/-- The locals of the loop over the dependencies. -/
structure Judging where
  trigger : OutcomeConfirmedTrigger
  remaining : List OutcomeGovernanceDependency
  seenTargets : List (String × String) := []
  committed : List CommittedOutcomeImpact := []
  ready : List ReviewObligation := []
  unavailable : List ReviewProjection := []

/-- How far a call has come. -/
inductive Progress where
  | called
  | unprocessed
  | judging (locals : Judging)
  | returned (result : Result OutcomeGovernanceImpactResult)

def Progress.unavailable (args : Observed) (reason : String)
    (committed : List CommittedOutcomeImpact := []) (projections : List ReviewProjection := []) :
    Progress :=
  .returned (.ok
    { status := .unavailable, eventRef := args.eventRef, reason, committedImpacts := committed,
      projectionUnavailable := projections })

/-- Impacts that ask for no review. -/
def nonGovernanceImpacts : List String := ["no-governance-impact", "recovery-only"]

/-- The basis of a review: each reference where it stands first. -/
def reviewBasis (trigger : OutcomeConfirmedTrigger) (dependency : OutcomeGovernanceDependency)
    (judgmentEventRef dispositionEventRef policyRef : String) : List String :=
  ([trigger.outcome.id, trigger.acceptedEvent.id, judgmentEventRef] ++ dependency.basisRefs ++
    [dispositionEventRef, policyRef]).eraseDups

section Observe

variable (digest : Json → String) (textDigest : String → String)

/-- The end of the loop body, once the judgment of `dependency` is recorded. -/
def projectImpact (persistence : GovernanceStore) (args : Observed) (locals : Judging)
    (dependency : OutcomeGovernanceDependency) (impact : CommittedOutcomeImpact) : Progress :=
  let locals := { locals with committed := locals.committed ++ [impact] }
  if nonGovernanceImpacts.contains impact.judgment.impact then
    if impact.disposition.action ≠ .none ∧ impact.disposition.action ≠ .warn then
      .unavailable args "non-governance-impact-has-review-disposition" locals.committed
    else .judging locals
  else
    let basis := reviewBasis locals.trigger dependency impact.judgmentEventRef
      impact.dispositionEventRef impact.disposition.policyRef
    match projectReviewObligationFromDisposition textDigest persistence args.eventRef
      dependency.schemeId dependency.context impact.disposition basis with
    | .error e => .returned (.error e)
    | .ok projection => match projection.status with
      | .notRequired => .judging locals
      | .projectionUnavailable =>
        .judging { locals with unavailable := locals.unavailable ++ [projection] }
      | .ready => match projection.obligation with
        | none =>
          .unavailable args "ready-review-projection-without-obligation" locals.committed
        | some obligation => .judging { locals with ready := locals.ready ++ [obligation] }

/-- The loop body; the resolvers answer and the judgment is recorded in one piece. -/
def judgeDependency (now : Time) (policies : PolicyResolvers) (store : MemoryStore)
    (persistence : GovernanceStore) (args : Observed) (locals : Judging)
    (dependency : OutcomeGovernanceDependency) (rest : List OutcomeGovernanceDependency) :
    Progress × MemoryStore :=
  let targetKey := (dependency.schemeId, dependency.context)
  if locals.seenTargets.contains targetKey then
    (.unavailable args "duplicate-outcome-governance-target" locals.committed, store)
  else
    let locals :=
      { locals with remaining := rest, seenTargets := locals.seenTargets ++ [targetKey] }
    let committed : Result (CommittedOutcomeImpact × MemoryStore) := do
      let impactPolicy ← policies.impactPolicyFor dependency
      let dispositionPolicy ← policies.dispositionPolicyFor dependency
      store.commitOutcomeImpactJudgment digest now (args.request dependency) impactPolicy
        dispositionPolicy
    match committed with
    | .ok (impact, store) =>
      (projectImpact textDigest persistence args locals dependency impact, store)
    | .error e =>
      if e.valueOrRuntime then
        (.unavailable args s!"impact-commit-unavailable:{e.message}" locals.committed, store)
      else (.returned (.error e), store)

/-! ## Calls in flight -/

structure Attempt where
  args : Observed
  progress : Progress := .called

/-- The store, its governance tables, the calls of every process, and the obligations in the order
in which they were opened. -/
structure Observing where
  store : MemoryStore
  governance : GovernanceStore
  attempts : List Attempt := []
  opened : List ReviewObligation := []

/-- A call goes on to its next durable step; one that is stopped is not advanced again. -/
inductive ObservationMove where
  | observe (args : Observed)
  | advance (now : Time) (i : Nat) (policies : PolicyResolvers)

/-- The last step of a call, which marks the event. -/
def Observing.finish (w : Observing) (args : Observed) (locals : Judging) :
    Progress × Observing :=
  if locals.unavailable ≠ [] then
    (.unavailable args "review-projection-unavailable" locals.committed locals.unavailable, w)
  else match w.governance.commitEventObligations args.eventRef locals.ready with
    | .error e => (.returned (.error e), w)
    | .ok (ids, governance) =>
      -- an event that is marked opens nothing again, whatever the call reports
      let opened :=
        if w.governance.processedEventObligationIds args.eventRef = .ok none then locals.ready
        else []
      (.returned (.ok
        { status := .processed
          eventRef := args.eventRef
          reason := "outcome-governance-impact-projected"
          committedImpacts := locals.committed
          openedObligations := locals.ready.filter (fun o => ids.contains o.id) }),
        { w with governance, opened := w.opened ++ opened })

/-- One call, up to its next durable step. -/
def Observing.advance (w : Observing) (now : Time) (policies : PolicyResolvers) (args : Observed) :
    Progress → Progress × Observing
  | .called => match w.governance.processedEventObligationIds args.eventRef with
    | .error e => (.returned (.error e), w)
    | .ok (some ids) =>
      (.returned (.ok
        { status := .alreadyProcessed
          eventRef := args.eventRef
          reason := "event-instance-already-processed"
          alreadyProcessedObligationIds := ids }), w)
    | .ok none => (.unprocessed, w)
  | .unprocessed =>
    match resolveOutcomeConfirmedTrigger digest now w.store.recoveryReader args.eventRef with
    | .error reason => (.unavailable args s!"authoritative-trigger-{reason}", w)
    | .ok trigger =>
      if args.dependencies = [] then
        (.returned (.ok
          { status := .notDeclared
            eventRef := args.eventRef
            reason := "explicit-outcome-governance-dependency-absent" }), w)
      else (.judging { trigger, remaining := args.dependencies }, w)
  | .judging locals => match locals.remaining with
    | dependency :: rest =>
      let judged := judgeDependency digest textDigest now policies w.store w.governance args locals
        dependency rest
      (judged.1, { w with store := judged.2 })
    | [] => w.finish args locals
  | .returned result => (.returned result, w)

def Observing.step (w : Observing) : ObservationMove → Observing
  | .observe args => { w with attempts := w.attempts ++ [{ args }] }
  | .advance now i policies => match w.attempts[i]? with
    | none => w
    | some attempt =>
      let advanced := w.advance digest textDigest now policies attempt.args attempt.progress
      { advanced.2 with
        attempts := w.attempts.set i { attempt with progress := advanced.1 } }

end Observe
end Governance
end PortableRuntime
