import PortableRuntime.Protocol.Mutation

/-!
# Verified outcomes

A confirmed Outcome and its two authority events are built deterministically from the
durable execution graph and its proofs.  An import re-derives every confirmed Outcome
and requires its events, and no other authority event.

`digest` stands for the hash of the canonical JSON text.
-/

namespace PortableRuntime

/-- Caller-supplied binding expectations; never an Outcome declaration. -/
structure VerifiedOutcomeCommitRequest where
  actionRef : String
  evidenceRefs : List String
  expectedWorkId : String
  expectedRunId : String
  expectedRequestId : String
  expectedAttemptRef : String
  verificationScope : Fields
  subjectVersionRefs : List String

structure PreparedVerifiedOutcomeCommit where
  outcome : BaseRecord
  accepted : Event
  confirmed : Event

def PreparedVerifiedOutcomeCommit.events (p : PreparedVerifiedOutcomeCommit) : List Event :=
  [p.accepted, p.confirmed]

/-- The reads that preparing a commit makes. -/
structure VerifiedOutcomeStoreReader where
  getAction : String → Option Action
  getAttempt : String → Option StepAttempt
  getStep : String → Option Step
  getRun : String → Option Run
  getWork : String → Option Work
  getRecord : String → Option BaseRecord

def stringList : Json → List String
  | .str s => if Text.nonBlank s then [s] else []
  | .arr items => items.filterMap (fun j => if j.isNonBlankStr then j.asStr? else none)
  | _ => []

/-- Dumps that agree in every field but the creation time. -/
def sameVerifiedOutcomeSemantics (left right : Fields) : Bool :=
  (left.pop "created_at").pyEq (right.pop "created_at")

section Prepare

variable (digest : Json → String) (now : Time)

/-- The facts that identify a verified outcome. -/
def bindingPayload (action : Action) (attempt : StepAttempt) (work : Work) (run : Run)
    (evidenceRefs subjectVersions : List String) (scope : Fields) (result : ObjectiveResult) :
    Json :=
  .obj [("action_ref", .str action.id), ("evidence_refs", .ofStrings evidenceRefs),
    ("work_id", .str work.id), ("run_id", .str run.id), ("request_id", .str action.requestRef),
    ("attempt_ref", .str attempt.id), ("verification_scope", .obj scope),
    ("subject_version_refs", .ofStrings subjectVersions),
    ("objective_result", .str result.text)]

def shortDigest (bindingDigest : String) : String := String.ofList (bindingDigest.toList.take 32)

/-- The artifacts that the proofs of an outcome name. -/
def proofArtifactRefs (proofs : List BaseRecord) : List String :=
  Text.sortedUnique (proofs.flatMap (fun r => stringList (r.metadata.get "artifact_refs")))

/-- The confirmed Outcome of a verified binding. -/
def verifiedOutcome (action : Action) (attempt : StepAttempt) (work : Work) (run : Run)
    (evidenceRefs subjectVersions : List String) (scope : Fields) (result : ObjectiveResult)
    (proofs : List BaseRecord) : BaseRecord :=
  let bindingDigest :=
    digest (bindingPayload action attempt work run evidenceRefs subjectVersions scope result)
  { cls := .outcomeRecord, id := "outcome_verified_" ++ shortDigest bindingDigest,
    recordType := .outcome, createdAt := now, lifecycleStatus := .confirmed,
    metadata := [("objective_result", .str result.text), ("work_id", .str work.id),
      ("run_id", .str run.id), ("request_id", .str action.requestRef),
      ("attempt_ref", .str attempt.id), ("verification_scope", .obj scope),
      ("subject_version_refs", .ofStrings subjectVersions),
      ("obligation_refs", .ofStrings (Text.sortedUnique
        (proofs.flatMap (fun r => stringList (r.metadata.get "obligation_refs"))))),
      ("verifier_provenance", .arr ((proofs.map (fun r => r.metadata.get "verifier_provenance")).filter
        (fun j => j.asFields?.isSome))),
      ("verification_binding_digest", .str bindingDigest)],
    fields := [("action_ref", .str action.id),
      ("artifact_refs", .ofStrings (proofArtifactRefs proofs)),
      ("evidence_refs", .ofStrings evidenceRefs)] }

def authorityEvent (idPrefix type : String) (bindingDigest outcomeId actionId : String)
    (evidenceRefs : List String) (result : ObjectiveResult) : Event where
  id := idPrefix ++ shortDigest bindingDigest
  createdAt := now
  type := type
  subjectRef := outcomeId
  payload := [("semantic_level", .str "objective-verification"),
    ("authoritative_outcome", .bool true), ("objective_result", .str result.text),
    ("outcome_ref", .str outcomeId), ("action_ref", .str actionId),
    ("verification_refs", .ofStrings evidenceRefs),
    ("verification_binding_digest", .str bindingDigest)]

/-- Re-read and validate the durable graph, then build the authority facts. -/
def prepareVerifiedOutcomeCommit (store : VerifiedOutcomeStoreReader)
    (request : VerifiedOutcomeCommitRequest) : Result PreparedVerifiedOutcomeCommit := do
  let evidenceRefs :=
    Text.sortedUnique ((request.evidenceRefs.filter Text.nonBlank).map Text.strip)
  let subjectVersions :=
    Text.sortedUnique ((request.subjectVersionRefs.filter Text.nonBlank).map Text.strip)
  guardValue (!evidenceRefs.isEmpty) "verified-outcome commit requires evidence refs"
  guardValue (evidenceRefs.length == request.evidenceRefs.length)
    "verified-outcome evidence refs must be non-empty and unique"
  guardValue (!subjectVersions.isEmpty) "verified-outcome commit requires subject version refs"
  let action ← orRaise (store.getAction request.actionRef)
    "verified-outcome commit requires durable Action and Attempt"
  let attempt ← orRaise (store.getAttempt request.expectedAttemptRef)
    "verified-outcome commit requires durable Action and Attempt"
  let step ← orRaise (store.getStep attempt.stepId)
    "verified-outcome commit requires complete Step/Run/Work graph"
  let run ← orRaise (store.getRun request.expectedRunId)
    "verified-outcome commit requires complete Step/Run/Work graph"
  let work ← orRaise (store.getWork request.expectedWorkId)
    "verified-outcome commit requires complete Step/Run/Work graph"
  let validated ← validateBinding
    { work, run, scope := request.verificationScope, subjectVersionRefs := some subjectVersions,
      execution := some
        { action, step, attempt, requestId := request.expectedRequestId,
          attemptRef := request.expectedAttemptRef },
      requireVerifierProvenance := true } evidenceRefs store.getRecord
  let proofs := (validated.records.map EvidenceArtifact.record).insertionSort (fun a b => a.id ≤ b.id)
  let result := validated.objectiveResult
  let bindingDigest := digest (bindingPayload action attempt work run evidenceRefs subjectVersions
    request.verificationScope result)
  let outcome := verifiedOutcome digest now action attempt work run evidenceRefs subjectVersions
    request.verificationScope result proofs
  return {
    outcome
    accepted := authorityEvent now "event_objective_verification_" "ObjectiveVerificationAccepted"
      bindingDigest outcome.id action.id evidenceRefs result
    confirmed := authorityEvent now "event_outcome_confirmed_" "OutcomeConfirmed"
      bindingDigest outcome.id action.id evidenceRefs result }

/-! ## Replay of imported outcomes -/

def historyError {α : Type} (message : String) : Result α :=
  raiseValue ("incompatible confirmed-outcome authority history: " ++ message)

/-- A bucket by identity; an absent or repeated identity is refused. -/
def parseBucket (k : Kind) (values : List (Model k)) : Result (Dict String (Model k)) := do
  let ids := values.map k.identifier
  if ids.contains "" then historyError s!"candidate {k.text} requires string id"
  else if ¬ ids.Nodup then historyError s!"duplicate candidate {k.text} id"
  else return State.byId values

/-- Missing fields of an Outcome take the defaults of its class. -/
def asOutcomeRecord (record : BaseRecord) : Result BaseRecord :=
  let strings (name : String) : Option Json := match Fields.get? name record.fields with
    | none => some (.arr [])
    | some (.arr items) => if items.all Json.isStr then some (.arr items) else none
    | some _ => none
  let actionRef : Option Json := match Fields.get? "action_ref" record.fields with
    | none => some (.str "")
    | some (.str s) => some (.str s)
    | some _ => none
  match actionRef, strings "artifact_refs", strings "evidence_refs" with
  | some a, some artifacts, some evidence =>
    .ok { record with cls := .outcomeRecord, fields :=
      ((record.fields.put "action_ref" a).put "artifact_refs" artifacts).put "evidence_refs" evidence }
  | _, _, _ => raiseValue "invalid OutcomeRecord"

def parseRecord (record : BaseRecord) : Result BaseRecord :=
  match record.recordType with
  | .evidenceArtifact => match evidenceArtifact? record with
    | some _ => .ok record
    | none => raiseValue "invalid EvidenceArtifact"
  | .outcome => asOutcomeRecord record
  | _ => .ok record

def verifiedOutcomeCandidateReader (candidate : State) :
    Result (VerifiedOutcomeStoreReader × Dict String BaseRecord × Dict String Event) := do
  let actions ← parseBucket .action (candidate .action)
  let attempts ← parseBucket .attempt (candidate .attempt)
  let steps ← parseBucket .step (candidate .step)
  let runs ← parseBucket .run (candidate .run)
  let works ← parseBucket .work (candidate .work)
  let parsed ← candidate.records.mapM parseRecord
  if ¬ (parsed.map BaseRecord.id).Nodup then historyError "duplicate candidate record id"
  let records : Dict String BaseRecord := State.byId (k := .record) parsed
  let events ← parseBucket .event (candidate .event)
  return ({ getAction := actions.get?, getAttempt := attempts.get?, getStep := steps.get?,
            getRun := runs.get?, getWork := works.get?, getRecord := records.get? },
          records, events)

def requiredMetadataString (metadata : Fields) (key : String) : Result String :=
  match metadata.get key with
  | .str s => if Text.nonBlank s then .ok s
    else historyError s!"confirmed Outcome requires metadata.{key}"
  | _ => historyError s!"confirmed Outcome requires metadata.{key}"

/-- The items of a list of texts. -/
def stringItems? : Json → Option (List String)
  | .arr items => if items.all Json.isStr then some (items.map Json.pyStr) else none
  | _ => none

/-- The claims needed to re-run the derivation of an imported Outcome. -/
def reconstructVerifiedOutcomeCommitRequest (candidate : VerifiedOutcomeStoreReader)
    (imported : BaseRecord) : Result VerifiedOutcomeCommitRequest := do
  let metadata := imported.metadata
  let scope ← orRaise (metadata.get "verification_scope").asFields?
    "incompatible confirmed-outcome authority history: confirmed Outcome verification_scope required"
  let versions ← orRaise (stringItems? (metadata.get "subject_version_refs"))
    "incompatible confirmed-outcome authority history: confirmed Outcome subject_version_refs required"
  let action ← orRaise (candidate.getAction (imported.getattr "action_ref").pyStr)
    "incompatible confirmed-outcome authority history: confirmed Outcome references missing Action"
  return {
    actionRef := action.id
    evidenceRefs := (stringItems? (imported.getattr "evidence_refs")).getD []
    expectedWorkId := ← requiredMetadataString metadata "work_id"
    expectedRunId := ← requiredMetadataString metadata "run_id"
    expectedRequestId := ← requiredMetadataString metadata "request_id"
    expectedAttemptRef := ← requiredMetadataString metadata "attempt_ref"
    verificationScope := scope
    subjectVersionRefs := versions }

/-- One confirmed Outcome with its events, re-derived; the identities of the events. -/
def replayOutcome (reader : VerifiedOutcomeStoreReader) (events : Dict String Event)
    (imported : BaseRecord) : Result (List String) := do
  let request ← reconstructVerifiedOutcomeCommitRequest reader imported
  let prepared ← prepareVerifiedOutcomeCommit digest now reader request
  if !(imported.id == prepared.outcome.id &&
      sameVerifiedOutcomeSemantics imported.dump prepared.outcome.dump) then
    historyError "imported confirmed Outcome does not match deterministic verification replay"
  for expected in prepared.events do
    match events.get? expected.id with
    | none => historyError "required authority event missing"
    | some event =>
      if !sameVerifiedOutcomeSemantics event.dump expected.dump then
        historyError "imported authority event does not match deterministic verification replay"
  return prepared.events.map (fun e => e.id)

def authorityEventTypes : List String := ["ObjectiveVerificationAccepted", "OutcomeConfirmed"]

/-- Re-derive every confirmed Outcome and enforce bidirectional event closure. -/
def validateVerifiedOutcomeAuthorityGraph (candidate : State) : Result Unit := do
  let (reader, records, events) ← verifiedOutcomeCandidateReader candidate
  let confirmed := records.values.filter
    (fun r => r.recordType = .outcome && r.lifecycleStatus = .confirmed)
  let expected ← confirmed.mapM (replayOutcome digest now reader events)
  guardValue ((events.values.filter (fun e => authorityEventTypes.contains e.type)).all
      (fun e => expected.flatten.contains e.id))
    ("incompatible confirmed-outcome authority history: orphan or non-deterministic " ++
      "authority event")

end Prepare

end PortableRuntime
