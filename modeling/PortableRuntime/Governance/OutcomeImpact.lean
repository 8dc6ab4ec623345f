import PortableRuntime.Records.Revalidation
import PortableRuntime.Workflows.RecoveryObservation

/-!
# Governance impact of confirmed outcomes

A confirmed Outcome is a trigger only where its whole authority graph replays.  What it means for a
distinction scheme is judged once, over an explicit dependency, and the judgment is recorded with
its disposition under the identity of what was judged; a later call replays the record and asks no
policy.
-/

namespace PortableRuntime
namespace Governance

open Recovery

abbrev OutcomeConfirmedTriggerStore := DispositionStoreReader

/-! ## Triggers -/

/-- Texts with a visible character each, stripped and distinct; at least one. -/
def distinctTexts (j : Json) : Option (List String) :=
  (stringItems? j).bind (fun items =>
    let values := items.map Text.strip
    if items ≠ [] ∧ items.all Text.nonBlank ∧ values.Nodup then some values else none)

/-- `_as_confirmed_outcome`. -/
def asConfirmedOutcome (record : BaseRecord) : Option BaseRecord :=
  (if record.cls = .outcomeRecord then some record
    else if record.recordType = .outcome then (asOutcomeRecord record).toOption
    else none).filter (fun outcome => outcome.lifecycleStatus = .confirmed)

/-- `_commit_request_from_outcome`. -/
def commitRequestFromOutcome (outcome : BaseRecord) : Option VerifiedOutcomeCommitRequest := do
  let metadata := outcome.metadata
  let text (key : String) : Option String := (metadata.get key).asStr?.filter (· ≠ "")
  let workId ← text "work_id"
  let runId ← text "run_id"
  let requestId ← text "request_id"
  let attemptRef ← text "attempt_ref"
  let scope ← (metadata.get "verification_scope").asFields?
  let versions ← distinctTexts (metadata.get "subject_version_refs")
  let evidenceRefs :=
    (((stringItems? (outcome.getattr "evidence_refs")).getD []).filter Text.nonBlank).map Text.strip
  guard (evidenceRefs ≠ [] ∧ evidenceRefs.Nodup)
  return {
    actionRef := (outcome.getattr "action_ref").pyStr
    evidenceRefs
    expectedWorkId := workId
    expectedRunId := runId
    expectedRequestId := requestId
    expectedAttemptRef := attemptRef
    verificationScope := scope
    subjectVersionRefs := versions }

structure OutcomeConfirmedTrigger where
  event : Event
  outcome : BaseRecord
  acceptedEvent : Event

section Resolve

variable (digest : Json → String) (now : Time)

/-- Resolve one journal event into an authoritative trigger, or say why not. -/
def resolveOutcomeConfirmedTrigger (store : OutcomeConfirmedTriggerStore) (eventId : String) :
    Except String OutcomeConfirmedTrigger :=
  match store.getEvent eventId with
  | none => .error "event-missing"
  | some event =>
    if event.type ≠ "OutcomeConfirmed" then .error "wrong-event-type"
    else match (store.getRecord event.subjectRef).bind asConfirmedOutcome with
    | none => .error "confirmed-outcome-missing"
    | some outcome => match commitRequestFromOutcome outcome with
      | none => .error "outcome-binding-incomplete"
      | some request =>
        match prepareVerifiedOutcomeCommit digest now store.toVerifiedOutcomeStoreReader request with
        | .error _ => .error "authority-replay-failed"
        | .ok prepared => match store.getEvent prepared.accepted.id with
          | none => .error "authority-graph-mismatch"
          | some accepted =>
            if prepared.outcome.id = outcome.id && prepared.confirmed.id = event.id &&
                sameVerifiedOutcomeSemantics outcome.dump prepared.outcome.dump &&
                sameVerifiedOutcomeSemantics accepted.dump prepared.accepted.dump &&
                sameVerifiedOutcomeSemantics event.dump prepared.confirmed.dump then
              .ok { event, outcome, acceptedEvent := accepted }
            else .error "authority-graph-mismatch"

end Resolve

/-! ## Applicability -/

inductive ApplicabilityStatus where
  | applicable | unavailable | mismatch
deriving Repr, DecidableEq, Inhabited

def ApplicabilityStatus.text : ApplicabilityStatus → String
  | .applicable => "applicable"
  | .unavailable => "unavailable"
  | .mismatch => "mismatch"

/-- Explicit declaration that one verified Outcome may affect one scheme. -/
structure OutcomeGovernanceDependency where
  outcomeRef : String
  actionRef : String
  schemeId : String
  context : String
  scope : FrozenSet
  subjectVersionRefs : List String
  basisRefs : List String
deriving DecidableEq

structure OutcomeGovernanceApplicability where
  status : ApplicabilityStatus
  outcomeRef : String
  actionRef : String
  schemeId : String
  context : String
  governedScope : FrozenSet
  subjectVersionRefs : List String
  basisRefs : List String
  reason : String

def BaseRecord.actionRef (outcome : BaseRecord) : String := (outcome.getattr "action_ref").pyStr

/-- Resolve explicit Outcome applicability without making an impact judgment. -/
def resolveOutcomeApplicability (outcome : BaseRecord) (dependency : OutcomeGovernanceDependency)
    (context : String) (requestedScope : FrozenSet) (subjectVersionRefs : List String) :
    OutcomeGovernanceApplicability :=
  let result (status : ApplicabilityStatus) (versions : List String) (reason : String) :
      OutcomeGovernanceApplicability :=
    { status, outcomeRef := outcome.id, actionRef := BaseRecord.actionRef outcome,
      schemeId := dependency.schemeId, context, governedScope := requestedScope,
      subjectVersionRefs := versions, basisRefs := dependency.basisRefs, reason }
  if (asConfirmedOutcome outcome).isNone then
    result .unavailable subjectVersionRefs "outcome-not-confirmed"
  else
    let declaredVersions := Text.sortedUnique dependency.subjectVersionRefs
    let requestedVersions := Text.sortedUnique subjectVersionRefs
    let outcomeVersions := distinctTexts (outcome.metadata.get "subject_version_refs")
    let resource :=
      ((outcome.metadata.get "verification_scope").asFields?.bind
        (fun scope => (scope.get "resource").asStr?)).filter Text.nonBlank
    match outcomeVersions, resource with
    | some outcomeVersions, some resource =>
      if !(Text.nonBlank dependency.schemeId && Text.nonBlank dependency.context &&
          !dependency.scope.isEmpty && declaredVersions ≠ [] && dependency.basisRefs ≠ [] &&
          dependency.basisRefs.all Text.nonBlank) then
        result .unavailable requestedVersions "dependency-or-outcome-binding-incomplete"
      else if dependency.outcomeRef ≠ outcome.id || dependency.actionRef ≠ BaseRecord.actionRef outcome ||
          dependency.context ≠ context || !requestedScope.isSubset dependency.scope ||
          !dependency.scope.contains resource || Text.sorted outcomeVersions ≠ declaredVersions ||
          requestedVersions ≠ declaredVersions then
        result .mismatch requestedVersions "explicit-dependency-binding-mismatch"
      else result .applicable requestedVersions "explicit-dependency-matched"
    | _, _ => result .unavailable requestedVersions "dependency-or-outcome-binding-incomplete"

/-! ## Judgments and dispositions -/

/-- `impact` is what the policy says: nothing checks it before it is recorded. -/
structure OutcomeImpactJudgment where
  outcomeRef : String
  triggerEventRef : String
  actionRef : String
  schemeId : String
  context : String
  impact : String
  policyRef : String
  rationaleRefs : List String
  applicabilityBasisRefs : List String

/-- Explicit policy responsibility for interpreting one applicable Outcome. -/
structure OutcomeImpactPolicy where
  policyRef : String
  policyDigest : Json := .null
  judge : BaseRecord → OutcomeGovernanceApplicability → Result (Option (String × List String))

structure OutcomeDispositionPolicy where
  policyRef : String
  policyDigest : Json := .null
  decide : OutcomeImpactJudgment → Result (Option RevalidationDisposition)

/-- What a policy's answer on an applicable outcome amounts to. -/
def judgmentOfAnswer (trigger : OutcomeConfirmedTrigger)
    (applicability : OutcomeGovernanceApplicability) (policyRef : String) :
    Option (String × List String) → Except String OutcomeImpactJudgment
  | none => .error "impact-judgment-unavailable"
  | some (impact, rationaleRefs) =>
    if impact = "unknown" then .error "impact-judgment-unknown"
    else
      let refs := ((rationaleRefs.filter Text.nonBlank).map Text.strip).eraseDups
      if refs = [] then .error "impact-rationale-missing"
      else .ok
        { outcomeRef := trigger.outcome.id
          triggerEventRef := trigger.event.id
          actionRef := BaseRecord.actionRef trigger.outcome
          schemeId := applicability.schemeId
          context := applicability.context
          impact
          policyRef
          rationaleRefs := refs
          applicabilityBasisRefs := applicability.basisRefs }

/-- Evaluate governance meaning without mutating or persisting anything. -/
def evaluateOutcomeImpact (trigger : OutcomeConfirmedTrigger)
    (applicability : OutcomeGovernanceApplicability) (policy : OutcomeImpactPolicy) :
    Result (Except String OutcomeImpactJudgment) :=
  let outcome := trigger.outcome
  if applicability.status ≠ .applicable then return .error "applicability-not-established"
  else if applicability.outcomeRef ≠ outcome.id ||
      applicability.actionRef ≠ BaseRecord.actionRef outcome then
    return .error "applicability-trigger-mismatch"
  else if !Text.nonBlank policy.policyRef then return .error "impact-policy-identity-missing"
  else do
    return judgmentOfAnswer trigger applicability policy.policyRef
      (← policy.judge outcome applicability)

/-! ## Durable judgments -/

def outcomeImpactJudgmentEvent : String := "OutcomeImpactJudgmentRecorded"
def outcomeDispositionEvent : String := "OutcomeRevalidationDispositionRecorded"
def outcomeImpactSchema : String := "outcome-governance-impact-v1"

/-- `_VALID_IMPACTS`. -/
def validImpacts : List String :=
  ["no-governance-impact", "recovery-only", "revalidation-required", "qualification-challenged",
    "unknown"]

structure OutcomeImpactCommitRequest where
  eventRef : String
  dependency : OutcomeGovernanceDependency
  context : String
  requestedScope : FrozenSet
  subjectVersionRefs : List String

structure PreparedOutcomeImpactCommit where
  keyDigest : String
  judgment : OutcomeImpactJudgment
  disposition : RevalidationDisposition
  judgmentEvent : Event
  dispositionEvent : Event
  replayed : Bool

structure CommittedOutcomeImpact where
  keyDigest : String
  judgment : OutcomeImpactJudgment
  disposition : RevalidationDisposition
  judgmentEventRef : String
  dispositionEventRef : String
  replayed : Bool

/-- `_policy_digest`. -/
def policyDigestText (policyDigest : Json) : Json :=
  .ofOption ((policyDigest.asStr?.filter Text.nonBlank).map Text.strip)

/-- What a judgment is about. -/
def impactBindingPayload (eventRef : String) (applicability : OutcomeGovernanceApplicability) :
    Fields :=
  [("schema_version", .str outcomeImpactSchema), ("trigger_event_ref", .str eventRef),
    ("outcome_ref", .str applicability.outcomeRef), ("action_ref", .str applicability.actionRef),
    ("scheme_id", .str applicability.schemeId), ("context", .str applicability.context),
    ("governed_scope", .ofStrings applicability.governedScope.items),
    ("subject_version_refs", .ofStrings (Text.sorted applicability.subjectVersionRefs)),
    ("applicability_basis_refs", .ofStrings (Text.sorted applicability.basisRefs))]

def judgmentEventId (keyDigest : String) : String :=
  "event_outcome_impact_" ++ shortDigest keyDigest

def dispositionEventId (keyDigest : String) : String :=
  "event_outcome_disposition_" ++ shortDigest keyDigest

/-- What both events of a judgment carry. -/
def impactCommon (binding : Fields) (keyDigest : String) : Fields :=
  binding ++ [("semantic_level", .str "governance-impact"), ("binding_digest", .str keyDigest)]

/-- `isinstance(value, str) and value.strip()`. -/
def visibleText (j : Json) : Option String := j.asStr?.filter Text.nonBlank

/-- Read the two events of a durable judgment back. -/
def readImpact (keyDigest eventRef : String) (applicability : OutcomeGovernanceApplicability)
    (judgmentEvent dispositionEvent : Event) : Result PreparedOutcomeImpactCommit := do
  guardValue (judgmentEvent.type == outcomeImpactJudgmentEvent &&
      dispositionEvent.type == outcomeDispositionEvent)
    "outcome impact durable authority event type mismatch"
  let jp := judgmentEvent.payload
  let dp := dispositionEvent.payload
  guardValue ((impactCommon (impactBindingPayload eventRef applicability) keyDigest).all
      (fun f => (jp.get f.1).pyEq f.2 && (dp.get f.1).pyEq f.2))
    "outcome impact durable authority binding mismatch"
  let impact ← memberOf validImpacts id (jp.get "impact")
    "outcome impact durable judgment has invalid impact"
  guardValue (impact ≠ "unknown") "outcome impact durable judgment has invalid impact"
  let incomplete := "outcome impact durable judgment provenance incomplete"
  let impactPolicyRef ← orRaise (visibleText (jp.get "impact_policy_ref")) incomplete
  let rationaleRefs ← orRaise (distinctTexts (jp.get "rationale_refs")) incomplete
  guardValue ((dp.get "judgment_event_ref").eqStr judgmentEvent.id)
    "outcome impact durable disposition judgment binding mismatch"
  let action ← memberOf ImpactType.all ImpactType.text (dp.get "action")
    "outcome impact durable disposition action invalid"
  let incomplete := "outcome impact durable disposition provenance incomplete"
  let dispositionPolicyRef ← orRaise (visibleText (dp.get "disposition_policy_ref")) incomplete
  let dispositionRationale ← orRaise (distinctTexts (dp.get "rationale_refs")) incomplete
  return {
    keyDigest
    judgment :=
      { outcomeRef := applicability.outcomeRef
        triggerEventRef := eventRef
        actionRef := applicability.actionRef
        schemeId := applicability.schemeId
        context := applicability.context
        impact
        policyRef := impactPolicyRef
        rationaleRefs
        applicabilityBasisRefs := Text.sorted applicability.basisRefs }
    disposition :=
      { action, policyRef := dispositionPolicyRef, rationaleRefs := dispositionRationale }
    judgmentEvent
    dispositionEvent
    replayed := true }

/-- Read a durable judgment back, if there is one. -/
def replayExistingImpact (store : OutcomeConfirmedTriggerStore) (keyDigest eventRef : String)
    (applicability : OutcomeGovernanceApplicability) :
    Result (Option PreparedOutcomeImpactCommit) :=
  match store.getEvent (judgmentEventId keyDigest), store.getEvent (dispositionEventId keyDigest) with
  | none, none => return none
  | some judgmentEvent, some dispositionEvent =>
    some <$> readImpact keyDigest eventRef applicability judgmentEvent dispositionEvent
  | _, _ => raiseValue "outcome impact durable authority graph incomplete"

/-- The event that records a judgment. -/
def impactJudgmentRecord (now : Time) (common : Fields) (keyDigest : String)
    (judgment : OutcomeImpactJudgment) (policyDigest : Json) : Event :=
  { id := judgmentEventId keyDigest
    createdAt := now
    type := outcomeImpactJudgmentEvent
    subjectRef := judgment.outcomeRef
    payload := common ++ [("impact", .str judgment.impact),
      ("impact_policy_ref", .str judgment.policyRef),
      ("impact_policy_digest", policyDigestText policyDigest),
      ("rationale_refs", .ofStrings judgment.rationaleRefs)] }

/-- The event that records what to do about a judgment. -/
def impactDispositionRecord (now : Time) (common : Fields) (keyDigest outcomeRef : String)
    (disposition : RevalidationDisposition) (policyDigest : Json) : Event :=
  { id := dispositionEventId keyDigest
    createdAt := now
    type := outcomeDispositionEvent
    subjectRef := outcomeRef
    payload := common ++ [("judgment_event_ref", .str (judgmentEventId keyDigest)),
      ("action", .str disposition.action.text),
      ("disposition_policy_ref", .str disposition.policyRef),
      ("disposition_policy_digest", policyDigestText policyDigest),
      ("rationale_refs", .ofStrings disposition.rationaleRefs)] }

section Commit

variable (digest : Json → String) (now : Time)

/-- Re-read trigger and applicability, and prepare or replay one durable judgment. -/
def prepareOutcomeImpactCommit (store : OutcomeConfirmedTriggerStore)
    (request : OutcomeImpactCommitRequest) (impactPolicy : OutcomeImpactPolicy)
    (dispositionPolicy : OutcomeDispositionPolicy) : Result PreparedOutcomeImpactCommit := do
  let trigger ← orRaise (resolveOutcomeConfirmedTrigger digest now store request.eventRef).toOption
    "outcome impact commit requires authoritative OutcomeConfirmed trigger"
  let applicability := resolveOutcomeApplicability trigger.outcome request.dependency
    request.context request.requestedScope request.subjectVersionRefs
  guardValue (applicability.status = .applicable)
    s!"outcome impact commit requires applicable dependency: {applicability.status.text}"
  let binding := impactBindingPayload request.eventRef applicability
  let keyDigest := digest (.obj binding)
  match ← replayExistingImpact store keyDigest request.eventRef applicability with
  | some replay => return replay
  | none =>
    match ← evaluateOutcomeImpact trigger applicability impactPolicy with
    | .error reason => raiseValue s!"outcome impact judgment unavailable: {reason}"
    | .ok judgment =>
      guardValue (judgment.impact ≠ "unknown") "unknown Outcome impact cannot be durably committed"
      let disposition ← orRaise (← dispositionPolicy.decide judgment)
        "outcome impact disposition unavailable"
      guardValue (disposition.policyRef = dispositionPolicy.policyRef &&
          Text.nonBlank disposition.policyRef)
        "outcome impact disposition policy identity mismatch"
      guardValue (disposition.rationaleRefs ≠ [])
        "outcome impact disposition requires rationale refs"
      let common := impactCommon binding keyDigest
      let judgmentEvent :=
        impactJudgmentRecord now common keyDigest judgment impactPolicy.policyDigest
      let dispositionEvent :=
        impactDispositionRecord now common keyDigest judgment.outcomeRef disposition
          dispositionPolicy.policyDigest
      return { keyDigest, judgment, disposition, judgmentEvent, dispositionEvent, replayed := false }

end Commit

def PreparedOutcomeImpactCommit.committed (p : PreparedOutcomeImpactCommit) :
    CommittedOutcomeImpact :=
  { keyDigest := p.keyDigest
    judgment := p.judgment
    disposition := p.disposition
    judgmentEventRef := p.judgmentEvent.id
    dispositionEventRef := p.dispositionEvent.id
    replayed := p.replayed }

end Governance

namespace MemoryStore

open Governance

/-- Atomically commit or replay one durable Outcome governance judgment. -/
def commitOutcomeImpactJudgment (digest : Json → String) (now : Time) (st : MemoryStore)
    (request : OutcomeImpactCommitRequest) (impactPolicy : OutcomeImpactPolicy)
    (dispositionPolicy : OutcomeDispositionPolicy) : Result (CommittedOutcomeImpact × MemoryStore) := do
  let prepared ←
    prepareOutcomeImpactCommit digest now st.recoveryReader request impactPolicy dispositionPolicy
  if prepared.replayed then
    return (prepared.committed, st)
  return (prepared.committed, ← appendEvents (some .outcomeImpact) st
    [prepared.judgmentEvent, prepared.dispositionEvent])

end MemoryStore
end PortableRuntime
