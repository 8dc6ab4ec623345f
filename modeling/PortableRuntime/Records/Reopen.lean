import PortableRuntime.Library.FirstWins
import PortableRuntime.Library.Worklist
import PortableRuntime.Records.Authorization
import PortableRuntime.Records.Relations

/-!
# Reopen packages

The assembler collects what the relations of a store lead to from a Work and from the record that
is assessed, and gives each record that it collects a disposition.  The source fills the
dispositions in the same two loops as the lists of references; here they are loops of their own.
-/

namespace PortableRuntime

inductive RevisionScope where
  | execution | decision | representation | inputs | goal | authorization | evidenceAcquisition
  | verification | problemDefinition | other
deriving Repr, DecidableEq, Inhabited

inductive HandoffDisposition where
  | carryForward | reconsider | invalidated | unresolved | contextOnly
deriving Repr, DecidableEq, Inhabited

/-- Explicit responsibility handoff for a historical reopen observation. -/
structure HandoffEnvelope where
  subjectRefs : List String := []
  goalRefs : List String := []
  constraintRefs : List String := []
  assumptionRefs : List String := []
  evidenceRefs : List String := []
  observationRefs : List String := []
  currentAssertionRefs : List String := []
  unknownRefs : List String := []
  counterevidenceRefs : List String := []
  stillQualifiedCandidateRefs : List String := []
  authorizationRefs : List String := []
  closureRefs : List String := []
  invalidationRefs : List String := []
  reopenConditionRefs : List String := []
  dispositions : Dict String HandoffDisposition := .empty
  extra : Fields := []

/-- Portable historical package carrying old responsibility structure. -/
structure ReopenPackage where
  originalWorkRef : String
  targetRecordRef : String
  currentConclusionRefs : List String := []
  scope : Fields := []
  assumptions : List String := []
  evidenceRefs : List String := []
  counterevidenceRefs : List String := []
  unknownScopes : List String := []
  stillQualifiedCandidateRefs : List String := []
  rejectedCandidateRefs : List String := []
  acceptanceCriteria : List String := []
  constraints : Fields := []
  inputs : List String := []
  artifactRefs : List String := []
  reopenReason : String := ""
  revisionScope : RevisionScope := .other
  environmentVersions : Dict String String := .empty
  authorizationContext : Fields := []
  failureHistoryRefs : List String := []
  handoff : HandoffEnvelope := {}

/-- Historical record-level reopen observation, not a Work admission object. -/
structure ReopenAssessment where
  recordRef : String := ""
  targetRef : Option String := none
  revisionScope : RevisionScope := .other
  reason : String := ""
  handoff : Option HandoffEnvelope := none

/-! ## The store -/

/-- What the assembler asks of its store; `none` where the store has no such method. -/
structure ReopenStore where
  listRelations : Option (List RecordRelation) := none
  getRecord : Option (String → Option BaseRecord) := none
  getAuthorization : Option (String → Option AuthorizationGrant) := none

inductive ReopenNode where
  | record (r : BaseRecord)
  | grant (g : AuthorizationGrant)

namespace ReopenStore

def relations (s : ReopenStore) : List RecordRelation := s.listRelations.getD []

/-- The store with its relations listed as `relations`. -/
def listing (s : ReopenStore) (relations : List RecordRelation) : ReopenStore :=
  { s with listRelations := some relations }

def record? (s : ReopenStore) (ref : String) : Option BaseRecord := s.getRecord.bind (· ref)

def grant? (s : ReopenStore) (ref : String) : Option AuthorizationGrant :=
  s.getAuthorization.bind (· ref)

/-- The record under a reference, or else the grant. -/
def candidate? (s : ReopenStore) (ref : String) : Option ReopenNode :=
  match s.record? ref with
  | some r => some (.record r)
  | none => (s.grant? ref).map .grant

end ReopenStore

/-! ## What a record or a grant says -/

namespace Json

/-- The pairs of `dict(items)`, from item `n` on. -/
def pairs (n : Nat) : List Json → Result (List (Json × Json))
  | [] => .ok []
  | item :: rest => do
    let parts ← match item.iterate with
      | .ok parts => .ok parts
      | .error _ => .error (.typeError
          s!"cannot convert dictionary update sequence element #{n} to a sequence")
    match parts with
    | [.arr _, _] => .error (.typeError "unhashable type: 'list'")
    | [.obj _, _] => .error (.typeError "unhashable type: 'dict'")
    | [key, value] => return (key, value) :: (← pairs (n + 1) rest)
    | _ => raiseValue (s!"dictionary update sequence element #{n} has length {parts.length}; " ++
        "2 is required")

/-- The items of `dict(j)`, with a later one of a key in place of an earlier one. -/
def asDict : Json → Result (List (Json × Json))
  | .obj fields => .ok (fields.map (fun f => (.str f.1, f.2)))
  | j => do pairs 0 (← j.iterate)

end Json

namespace ReopenNode

/-- `str(getattr(value, "record_type", "") or value.__class__.__name__)`. -/
def recordType : ReopenNode → String
  | .record r => r.recordType.text
  | .grant g =>
    let declared := g.extra.get "record_type"
    if declared.truthy then declared.pyStr else "AuthorizationGrant"

/-- `str(getattr(record, "lifecycle_status", "") or "")`. -/
def lifecycle : ReopenNode → String
  | .record r => r.lifecycleStatus.text
  | .grant g =>
    let declared := g.extra.get "lifecycle_status"
    if declared.truthy then declared.pyStr else ""

/-- The texts of a field, which is a list of strings in a record and anything in a grant. -/
def texts (field : String) (own : BaseRecord → List String) : ReopenNode → Result (List String)
  | .record r => .ok ((own r).filter Text.nonBlank)
  | .grant g => do
    let items ← (Json.pyOr (g.extra.get field) (.arr [])).iterate
    return (items.map Json.pyStr).filter Text.nonBlank

def assumptions : ReopenNode → Result (List String) := texts "assumptions" (·.assumptions)

def unknownScopes : ReopenNode → Result (List String) := texts "unknown_scopes" (·.unknownScopes)

def invalidationConditions : ReopenNode → Result (List String) :=
  texts "invalidation_conditions" (·.invalidationConditions)

def environmentVersions : ReopenNode → Result (List (Json × Json))
  | .record r => .ok (r.environmentVersions.map (fun e => (.str e.1, .str e.2)))
  | .grant g => (Json.pyOr (g.extra.get "environment_versions") (.obj [])).asDict

def scope? : ReopenNode → Option Fields
  | .record r => some r.scope
  | .grant g => (g.extra.get "scope").asFields?

/-- The disposition before any relation is looked at. -/
def disposition (node : ReopenNode) : HandoffDisposition :=
  if ["rejected", "deprecated", "archived", "superseded"].contains node.lifecycle then .invalidated
  else .carryForward

end ReopenNode

namespace ReopenAssembler

/-! ## What is collected -/

/-- The far ends of the relations that meet `current`. -/
def neighbours (relations : List RecordRelation) (current : String) : List String :=
  relations.filterMap (fun rel =>
    if rel.subjectRef ≠ current ∧ rel.objectRef ≠ current then none
    else if rel.subjectRef = current then some rel.objectRef else some rel.subjectRef)

/-- `assessment.record_ref or original_work.id`. -/
def targetRef (assessment : ReopenAssessment) (originalWork : Work) : String :=
  if assessment.recordRef = "" then originalWork.id else assessment.recordRef

def starts (assessment : ReopenAssessment) (originalWork : Work) : List String :=
  [originalWork.id, targetRef assessment originalWork]

/-- The `while` loop, with more rounds than it can take. -/
def searched (store : ReopenStore) (assessment : ReopenAssessment) (originalWork : Work) :
    Worklist String ReopenNode :=
  Worklist.search (neighbours store.relations) store.candidate? (2 + 2 * store.relations.length)
    (Worklist.start (starts assessment originalWork))

def recordsAndRelations (store : Option ReopenStore) (assessment : ReopenAssessment)
    (originalWork : Work) : Dict String ReopenNode × List RecordRelation :=
  match store with
  | none => (.empty, [])
  | some store =>
    let records := (searched store assessment originalWork).found
    match store.record? assessment.recordRef with
    | some target => (records.set assessment.recordRef (.record target), store.relations)
    | none => (records, store.relations)

/-! ## The dispositions -/

def disposeRecord (dispositions : Dict String HandoffDisposition) (entry : String × ReopenNode) :
    Dict String HandoffDisposition :=
  dispositions.set entry.1 entry.2.disposition

def disposeRelation (records : Dict String ReopenNode)
    (dispositions : Dict String HandoffDisposition) (rel : RecordRelation) :
    Dict String HandoffDisposition :=
  if rel.subjectRef ∉ records.keys ∧ rel.objectRef ∉ records.keys then dispositions
  else match rel.relationType with
  | .contradicts => [rel.subjectRef, rel.objectRef].foldl (fun dispositions ref =>
      if ref ∈ records.keys then dispositions.set ref .invalidated else dispositions) dispositions
  | .requiresRevalidation =>
    if rel.subjectRef ∈ records.keys then dispositions.set rel.subjectRef .reconsider
    else dispositions
  | _ => dispositions

def dispose (records : Dict String ReopenNode) (relations : List RecordRelation) :
    Dict String HandoffDisposition :=
  relations.foldl (disposeRelation records) (records.entries.foldl disposeRecord .empty)

/-! ## The references -/

/-- The lists that the two loops fill. -/
structure Gathered where
  evidenceRefs : List String := []
  observationRefs : List String := []
  assertionRefs : List String := []
  goalRefs : List String := []
  constraintRefs : List String := []
  authorizationRefs : List String := []
  candidateRefs : List String := []
  rejectedRefs : List String := []
  counterevidenceRefs : List String := []
  assumptions : List String := []
  unknownScopes : List String := []
  reopenConditionRefs : List String := []
  invalidationRefs : List String := []
  closureRefs : List String := []
  environmentVersions : List (Json × Json) := []
  scope : Fields := []

def addType (g : Gathered) (ref recordType : String) : Gathered :=
  if recordType = "EvidenceArtifact" then { g with evidenceRefs := g.evidenceRefs ++ [ref] }
  else if recordType = "Observation" then { g with observationRefs := g.observationRefs ++ [ref] }
  else if recordType = "Assertion" then { g with assertionRefs := g.assertionRefs ++ [ref] }
  else if recordType = "Goal" then { g with goalRefs := g.goalRefs ++ [ref] }
  else if recordType = "Constraint" then { g with constraintRefs := g.constraintRefs ++ [ref] }
  else if recordType = "AuthorizationGrant" then
    { g with authorizationRefs := g.authorizationRefs ++ [ref] }
  else g

def addLifecycle (g : Gathered) (ref lifecycle : String) : Gathered :=
  let one (names : List String) := if names.contains lifecycle then [ref] else []
  { g with
    candidateRefs := g.candidateRefs ++ one ["candidate"]
    rejectedRefs := g.rejectedRefs ++ one ["rejected", "deprecated", "archived"]
    closureRefs := g.closureRefs ++ one ["verified", "accepted", "confirmed", "official"] }

def addRecord (g : Gathered) (entry : String × ReopenNode) : Result Gathered := do
  let (ref, record) := entry
  let g := addLifecycle (addType g ref record.recordType) ref record.lifecycle
  let g := { g with assumptions := g.assumptions ++ (← record.assumptions) }
  let g := { g with unknownScopes := g.unknownScopes ++ (← record.unknownScopes) }
  let g := { g with
    reopenConditionRefs := g.reopenConditionRefs ++ (← record.invalidationConditions) }
  let g := { g with
    environmentVersions := g.environmentVersions ++ (← record.environmentVersions) }
  return { g with scope := if g.scope.isEmpty then record.scope?.getD [] else g.scope }

def addRelation (records : Dict String ReopenNode) (g : Gathered) (rel : RecordRelation) :
    Gathered :=
  let collected := [rel.subjectRef, rel.objectRef].filter (· ∈ records.keys)
  if collected.isEmpty then g
  else match rel.relationType with
  | .authorizes => { g with authorizationRefs := g.authorizationRefs ++ collected }
  | .contradicts => { g with counterevidenceRefs := g.counterevidenceRefs ++ collected }
  | .requiresRevalidation => { g with invalidationRefs := g.invalidationRefs ++ [rel.id] }
  | .supports => { g with
      assertionRefs := g.assertionRefs ++ collected.filter (fun ref =>
        (records.get? ref).any (·.recordType = "Assertion")) }
  | _ => g

/-- `list(dict.fromkeys(values))`. -/
def unique (values : List String) : List String := keepFirst id [] values

/-- A value of `dict[str, str]`. -/
def stringValue : Json → Result String
  | .str s => .ok s
  | .datetime t => .ok (Json.datetime t).pyStr
  | _ => raiseValue "environment_versions: Input should be a valid string"

/-- The merged versions; only the last value of a key is looked at. -/
def versionTexts (versions : List (Json × Json)) : Result (Dict String String) := do
  let named ← versions.mapM (fun e => return (← stringValue e.1, e.2))
  let texts ← (Dict.ofPairs named).entries.mapM (fun e => return (e.1, ← stringValue e.2))
  return .ofPairs texts

def assemble (store : Option ReopenStore) (assessment : ReopenAssessment) (originalWork : Work)
    (handoff : Option HandoffEnvelope) : Result ReopenPackage := do
  let (records, relations) := recordsAndRelations store assessment originalWork
  guardValue (store.isSome || handoff.isSome || assessment.handoff.isSome)
    "authoritative store or explicit handoff envelope is required for reopen assembly"
  let g ← records.entries.foldlM addRecord {}
  let g := relations.foldl (addRelation records) g
  let derived : HandoffEnvelope :=
    { subjectRefs := unique (starts assessment originalWork)
      goalRefs := unique g.goalRefs
      constraintRefs := unique g.constraintRefs
      assumptionRefs := unique g.assumptions
      evidenceRefs := unique g.evidenceRefs
      observationRefs := unique g.observationRefs
      currentAssertionRefs := unique g.assertionRefs
      unknownRefs := unique g.unknownScopes
      counterevidenceRefs := unique g.counterevidenceRefs
      stillQualifiedCandidateRefs := unique g.candidateRefs
      authorizationRefs := unique g.authorizationRefs
      closureRefs := unique g.closureRefs
      invalidationRefs := unique g.invalidationRefs
      reopenConditionRefs := unique g.reopenConditionRefs
      dispositions := dispose records relations }
  return {
    originalWorkRef := originalWork.id
    targetRecordRef := targetRef assessment originalWork
    currentConclusionRefs := unique g.assertionRefs
    scope := g.scope
    assumptions := unique g.assumptions
    evidenceRefs := unique g.evidenceRefs
    counterevidenceRefs := unique g.counterevidenceRefs
    unknownScopes := unique g.unknownScopes
    stillQualifiedCandidateRefs := unique g.candidateRefs
    rejectedCandidateRefs := unique g.rejectedRefs
    acceptanceCriteria := originalWork.acceptanceCriteria
    constraints := originalWork.constraints
    inputs := originalWork.inputs
    artifactRefs := originalWork.artifactRefs
    reopenReason := assessment.reason
    revisionScope := assessment.revisionScope
    environmentVersions := ← versionTexts g.environmentVersions
    authorizationContext := [("authorization_refs", .ofStrings (unique g.authorizationRefs))]
    failureHistoryRefs := unique g.invalidationRefs
    handoff := (handoff.or assessment.handoff).getD derived }

end ReopenAssembler

end PortableRuntime
