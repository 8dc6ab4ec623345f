import PortableRuntime.Library.FirstWins
import PortableRuntime.Library.Lineage
import PortableRuntime.Protocol.State
import PortableRuntime.Records.Validation

/-!
# Graph rules on identities, records, relations, references and lineage

Each rule lists its violations in one state.  A state is valid when every rule lists
none, so a rule is read off its list being empty.
-/

namespace PortableRuntime

def errorIf (violated : Bool) (message : String) : List String :=
  if violated then [message] else []

@[simp] theorem errorIf_eq_nil {violated : Bool} {message : String} :
    errorIf violated message = [] ↔ violated = false := by
  cases violated <;> simp [errorIf]

/-! ## Identities -/

/-- The identities of the buckets with their positions. -/
def State.indexed (s : State) : List (Nat × String × Kind) :=
  Kind.all.flatMap (fun k => (s k).zipIdx.map (fun e => (e.2, k.identifier e.1, k)))

/-- Walk the identities, keeping the ones seen with their kinds. -/
def identityErrorsFrom : List (String × Kind) → List (Nat × String × Kind) → List String
  | _, [] => []
  | seen, (index, id, kind) :: rest =>
    if id = "" then s!"{kind.text}[{index}] missing id" :: identityErrorsFrom seen rest
    else match seen.find? (fun e => e.1 = id) with
      | some (_, previous) =>
        s!"duplicate id {Text.pyRepr id} in {previous.text} and {kind.text}" ::
          identityErrorsFrom seen rest
      | none => identityErrorsFrom ((id, kind) :: seen) rest

def identityErrors (s : State) : List String := identityErrorsFrom [] s.indexed

/-! ## Records -/

/-- The endpoints a Revision has to name outside a proposal, and its version lineage. -/
def revisionShapeErrors (record : BaseRecord) : List String :=
  (revisionLinks.filter (fun field =>
      ((record.getattr field).pyEq .null || (record.getattr field).eqStr "") &&
        !proposalStatuses.contains record.lifecycleStatus)).map
    (fun field =>
      s!"revision {record.id} missing {field} for lifecycle {record.lifecycleStatus.text}") ++
  (let oldRef := record.getattr "revises_ref"
   let newRef := record.getattr "produces_ref"
   errorIf (oldRef.truthy && newRef.truthy && oldRef.pyEq newRef)
     s!"revision {record.id} cannot revise itself") ++
  (if record.metadata.has "from_version" || record.metadata.has "to_version" then
    match (record.metadata.getOr "to_version" (.int 0)).int?,
      (record.metadata.getOr "from_version" (.int 0)).int? with
    | some toVersion, some fromVersion =>
      errorIf (toVersion ≤ fromVersion) s!"revision {record.id} has invalid version lineage"
    | _, _ => [s!"revision {record.id} has non-numeric version lineage"]
  else [])

def recordErrors (record : BaseRecord) : List String :=
  (validateRecord record).map (fun message => s!"record {record.id}: {message}") ++
  errorIf (record.version < 1) s!"record {record.id} has invalid version {record.version}" ++
  (claimedTransition record).toList.map (fun message => s!"record {record.id}: {message}") ++
  (if record.recordType = .revision then revisionShapeErrors record else [])

/-- The records of a state by identity. -/
def State.parsedRecords (s : State) : Dict String BaseRecord :=
  State.byId (k := .record) s.records

/-! ## Relations -/

/-- The type of a local record, or none for an object of another kind. -/
def State.recordTypeOf (s : State) (ref : String) : Option RecordType :=
  (State.find (k := .record) s.records ref).map BaseRecord.recordType

/-- A record side has one of the types, or its type is unknown. -/
def recordSideOk (kind : Kind) (recordType : Option RecordType) (types : List RecordType) : Bool :=
  kind != .record || match recordType with
    | none => true
    | some t => types.contains t

/-- Reject only unambiguous relation type mismatches. -/
def targetShapeOk (relationType : RelationType) (subjectRef objectRef : String)
    (subjectKind objectKind : Option Kind) (s : State) : Bool :=
  match subjectKind, objectKind with
  | some sk, some ok =>
    let subjectRecord := if sk = .record then s.recordTypeOf subjectRef else none
    let objectRecord := if ok = .record then s.recordTypeOf objectRef else none
    match relationType with
    | .supersedes => if sk = .record ∧ ok = .record then subjectRecord = objectRecord else sk = ok
    | .produces =>
      recordSideOk sk subjectRecord [.action, .outcome, .changeObject] &&
        recordSideOk ok objectRecord [.outcome, .evidenceArtifact, .observation, .changeObject] &&
        [Kind.action, .work, .run, .record].contains sk &&
        [Kind.outcome, .artifact, .evidence, .record].contains ok
    | .authorizes =>
      recordSideOk sk subjectRecord [.decision, .policy, .revision] &&
        recordSideOk ok objectRecord [.action, .goal, .changeObject] &&
        [Kind.decision, .authorization, .record].contains sk &&
        [Kind.action, .work, .run, .record].contains ok
    | .tests =>
      recordSideOk sk subjectRecord [.experiment, .assertion] && sk = .record &&
        [Kind.record, .evidence, .artifact].contains ok
    | _ => true
  | _, _ => true

def relationErrors (s : State) (relation : RecordRelation) : List String :=
  (validateRelation relation).map (fun message => s!"relation {relation.id}: {message}") ++
  [("subject_ref", relation.subjectRef), ("object_ref", relation.objectRef)].flatMap
    (fun e => errorIf (!(s.hasId e.2 || isExternalRef e.2 false))
      s!"relation {relation.id} has dangling {e.1} {Text.pyRepr e.2}") ++
  errorIf (relation.relationType = .supersedes && relation.subjectRef = relation.objectRef)
    s!"relation {relation.id} cannot supersede itself" ++
  errorIf (!targetShapeOk relation.relationType relation.subjectRef relation.objectRef
      (s.kindOf relation.subjectRef) (s.kindOf relation.objectRef) s)
    s!"relation {relation.id} target type mismatch for {relation.relationType.text}"

/-! ## Strong local references -/

/-- A proposed or rejected Revision may name versions that are not here yet. -/
def proposalEdge (kind : Kind) (raw : Fields) (edge : RefEdge) : Bool :=
  kind = .record && (raw.get "record_type").eqStr "Revision" &&
    ((raw.get "lifecycle_status").eqStr "proposed" ||
      (raw.get "lifecycle_status").eqStr "rejected") &&
    ["subject_ref", "revises_ref", "produces_ref", "supersedes_ref"].contains edge.field

def edgeErrors (s : State) (kind : Kind) (id : String) (raw : Fields) (edge : RefEdge) :
    List String :=
  if proposalEdge kind raw edge then []
  else if s.hasId edge.ref || isExternalRef edge.ref edge.eventSubject then []
  else if kind = .relation ∧ edge.field = "reopen_assessment_id" ∧
      Text.startsWith edge.ref "reopen_" then []
  -- The subject of an event may be a request, which is not an object of the state.
  else if kind = .event ∧ edge.eventSubject then []
  else [s!"{kind.text} {id} has dangling {edge.field} {Text.pyRepr edge.ref}"]

/-- The legacy knowledge bucket is not checked for references; it only has to hold no
item that claims to be official. -/
def referenceErrors (s : State) (kind : Kind) (m : Model kind) : List String :=
  let raw := kind.dump m
  let id := kind.identifier m
  if kind = .knowledge then
    errorIf (Text.lower (raw.getOr "status" (.str "")).pyStr = "official")
      (s!"legacy knowledge {id} official promotion requires " ++
        "canonical KnowledgeProjection epistemic and authorization graph")
  else (iterRefEdges kind raw).flatMap (edgeErrors s kind id raw)

/-! ## Authorization -/

def authorizationErrors (s : State) (grant : AuthorizationGrant) : List String :=
  errorIf grant.subjectVersionRefs.isEmpty s!"authorization {grant.id} missing subject version" ++
  errorIf (grant.subjectVersionRefs.any (fun ref => !Text.nonBlank ref))
    s!"authorization {grant.id} has invalid subject version reference" ++
  (match grant.sourceDecisionRef with
    | some source =>
      errorIf (source ≠ "" && !s.hasId source && !isExternalRef source false)
        s!"authorization {grant.id} has dangling source_decision_ref {Text.pyRepr source}"
    | none => [])

/-- A use is judged at the instant it records. -/
def useErrors (s : State) (use : AuthorizationUse) : List String :=
  match State.find (k := .authorization) s.authorizations use.authorizationRef with
  | none =>
    [s!"authorization use {use.id} references unknown grant {Text.pyRepr use.authorizationRef}"]
  | some grant =>
    errorIf (!(validateGrant grant use.authorizedAt).isEmpty ||
        !isAuthorizedFor use.request grant use.authorizedAt)
      s!"authorization use {use.id} is not valid at authorized_at"

/-! ## Supersedes lineage -/

def State.supersedes (s : State) : List RecordRelation :=
  s.relations.filter (fun r => r.relationType = .supersedes)

def inactiveStatuses : List LifecycleStatus :=
  [.superseded, .archived, .deprecated, .rejected, .rolledBack]

/-- The predecessor and the superseder of each active supersedes edge. -/
def State.activeSuperseders (s : State) : List (String × String) :=
  (s.supersedes.filter (fun r => match s.parsedRecords.get? r.subjectRef with
      | some subject => !inactiveStatuses.contains subject.lifecycleStatus
      | none => true)).map (fun r => (r.objectRef, r.subjectRef))

def supersederErrors (s : State) : List String :=
  let active := s.activeSuperseders
  (active.map Prod.fst).dedup.flatMap (fun predecessor =>
    let subjects :=
      Text.sortedUnique ((active.filter (fun e => e.1 = predecessor)).map Prod.snd)
    let listed := Text.join ", " subjects
    errorIf (1 < subjects.length)
      s!"duplicate active superseder for {Text.pyRepr predecessor}: {listed}")

/-- The supersedes edges between local objects. -/
def State.lineageEdges (s : State) : List (String × String) :=
  (s.supersedes.filter (fun r => s.hasId r.subjectRef && s.hasId r.objectRef)).map
    (fun r => (r.subjectRef, r.objectRef))

def lineageErrors (s : State) : List String :=
  let edges := s.lineageEdges
  (Lineage.cycleNodes edges (keepFirst id [] (edges.map Prod.fst))).map
    (fun node => s!"supersedes lineage contains a cycle at {Text.pyRepr node}")

end PortableRuntime
