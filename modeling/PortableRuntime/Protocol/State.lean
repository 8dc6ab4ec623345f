import PortableRuntime.Library.Dict
import PortableRuntime.Records.Authorization
import PortableRuntime.Records.Relations

/-!
# The portable state

A state document lists, for each of the eighteen kinds, the objects of that kind.
The objects are the typed models; `dump` gives the raw document of one where a
check reads it as such.
-/

namespace PortableRuntime

/-- The buckets of a state, in the order a store exports them. -/
inductive Kind where
  | work | run | artifact | evidence | decision | action | outcome | knowledge
  | knowledgeProjection | event | step | attempt | checkpoint | compensation | record
  | relation | authorization | authorizationUse
deriving Repr, DecidableEq, Inhabited

namespace Kind

def text : Kind → String
  | work => "work"
  | run => "run"
  | artifact => "artifact"
  | evidence => "evidence"
  | decision => "decision"
  | action => "action"
  | outcome => "outcome"
  | knowledge => "knowledge"
  | knowledgeProjection => "knowledge_projection"
  | event => "event"
  | step => "step"
  | attempt => "attempt"
  | checkpoint => "checkpoint"
  | compensation => "compensation"
  | record => "record"
  | relation => "relation"
  | authorization => "authorization"
  | authorizationUse => "authorization_use"

/-- `_KNOWN_KINDS`. -/
def all : List Kind :=
  [work, run, artifact, evidence, decision, action, outcome, knowledge, knowledgeProjection,
   event, step, attempt, checkpoint, compensation, record, relation, authorization,
   authorizationUse]

theorem mem_all (k : Kind) : k ∈ all := by cases k <;> decide

theorem nodup_all : all.Nodup := by decide

end Kind

@[reducible] def Model : Kind → Type
  | .work => Work
  | .run => Run
  | .artifact => Artifact
  | .evidence => Evidence
  | .decision => Decision
  | .action => Action
  | .outcome => Outcome
  | .knowledge => KnowledgeItem
  | .knowledgeProjection => KnowledgeProjection
  | .event => Event
  | .step => Step
  | .attempt => StepAttempt
  | .checkpoint => Checkpoint
  | .compensation => Compensation
  | .record => BaseRecord
  | .relation => RecordRelation
  | .authorization => AuthorizationGrant
  | .authorizationUse => AuthorizationUse

namespace Kind

def identifier : (k : Kind) → Model k → String
  | .work, v => v.id
  | .run, v => v.id
  | .artifact, v => v.id
  | .evidence, v => v.id
  | .decision, v => v.id
  | .action, v => v.id
  | .outcome, v => v.id
  | .knowledge, v => v.id
  | .knowledgeProjection, v => v.id
  | .event, v => v.id
  | .step, v => v.id
  | .attempt, v => v.id
  | .checkpoint, v => v.id
  | .compensation, v => v.id
  | .record, v => v.id
  | .relation, v => v.id
  | .authorization, v => v.id
  | .authorizationUse, v => v.id

/-- `model_dump(mode="json")`. -/
def dump : (k : Kind) → Model k → Fields
  | .work, v => v.dump
  | .run, v => v.dump
  | .artifact, v => v.dump
  | .evidence, v => v.dump
  | .decision, v => v.dump
  | .action, v => v.dump
  | .outcome, v => v.dump
  | .knowledge, v => v.dump
  | .knowledgeProjection, v => v.dump
  | .event, v => v.dump
  | .step, v => v.dump
  | .attempt, v => v.dump
  | .checkpoint, v => v.dump
  | .compensation, v => v.dump
  | .record, v => v.dump
  | .relation, v => v.dump
  | .authorization, v => v.dump
  | .authorizationUse, v => v.dump

end Kind

/-- A state document. -/
abbrev State := (k : Kind) → List (Model k)

namespace State

def works (s : State) : List Work := s .work
def runs (s : State) : List Run := s .run
def projections (s : State) : List KnowledgeProjection := s .knowledgeProjection
def events (s : State) : List Event := s .event
def records (s : State) : List BaseRecord := s .record
def relations (s : State) : List RecordRelation := s .relation
def authorizations (s : State) : List AuthorizationGrant := s .authorization
def uses (s : State) : List AuthorizationUse := s .authorizationUse

/-- The identities of a state with their kinds, bucket by bucket. -/
def identities (s : State) : List (String × Kind) :=
  Kind.all.flatMap (fun k => (s k).map (fun m => (k.identifier m, k)))

/-- `ids.get(ref)`. -/
def kindOf (s : State) (ref : String) : Option Kind :=
  (s.identities.find? (fun e => e.1 = ref)).map Prod.snd

/-- `ref in ids`. -/
def hasId (s : State) (ref : String) : Bool := ref ≠ "" ∧ (s.kindOf ref).isSome

def byId {k : Kind} (values : List (Model k)) : Dict String (Model k) :=
  Dict.ofPairs (values.map (fun m => (k.identifier m, m)))

/-- `next((item for item in values if item.get("id") == ref), None)`. -/
def find {k : Kind} (values : List (Model k)) (ref : String) : Option (Model k) :=
  values.find? (fun m => k.identifier m = ref)

/-- The dumps of all objects by identity. -/
def dumps (s : State) : Dict String Fields :=
  Dict.ofPairs (Kind.all.flatMap (fun k => (s k).map (fun m => (k.identifier m, k.dump m))))

end State

/-! ## References -/

/-- The tail `[^\s]+$` of an external reference; the end also stands before a last
line feed. -/
def isReferenceTail (cs : List Char) : Bool :=
  let body := if cs.getLast? = some (Char.ofNat 10) then cs.dropLast else cs
  !body.isEmpty && body.all (fun c => !Text.isSpace c)

def isReferenceScheme (cs : List Char) : Bool :=
  match cs with
  | [] => false
  | c :: rest => Text.isAlpha c &&
      rest.all (fun c => Text.isAlnum c || c == '_' || c == '.' || c == '-')

/-- `^[A-Za-z][A-Za-z0-9_.-]*:[^\s]+$`: the scheme ends at the first colon. -/
def matchesExternalRef (ref : String) : Bool :=
  let cs := ref.toList
  match cs.dropWhile (· ≠ ':') with
  | [] => false
  | _ :: tail => isReferenceScheme (cs.takeWhile (· ≠ ':')) && isReferenceTail tail

def eventExternalPrefixes : List String := ["request_", "req_", "invocation_", "capability_"]

def isExternalRef (ref : String) (eventSubject : Bool) : Bool :=
  matchesExternalRef ref ||
    (eventSubject && eventExternalPrefixes.any (fun p => Text.startsWith ref p))

structure RefEdge where
  field : String
  ref : String
  eventSubject : Bool := false
deriving Repr, DecidableEq

namespace RefEdge

/-- The edge of a field that holds one reference. -/
def one (field : String) (value : Json) : List RefEdge :=
  match value with
  | .str ref => if ref = "" then [] else [{ field, ref }]
  | _ => []

def many (field : String) (value : Json) : List RefEdge :=
  match value with
  | .arr items => items.flatMap (one field)
  | _ => []

end RefEdge

/-- The authoritative local edges of an object of a kind, read from its dump. -/
def iterRefEdges (kind : Kind) (raw : Fields) : List RefEdge :=
  let one (field : String) := RefEdge.one field (raw.get field)
  let many (field : String) := RefEdge.many field (raw.get field)
  match kind with
  | .work => one "parent_work_id" ++ many "artifact_refs"
  | .run => one "work_id"
  | .artifact => one "created_by_run_id"
  | .evidence => many "subject_refs" ++ many "artifact_refs"
  | .decision => one "work_id" ++ many "rationale_artifact_refs" ++ many "authorized_by"
  | .action => one "work_id" ++ one "run_id"
  | .outcome => one "action_id" ++ many "artifact_refs" ++ many "evidence_refs"
  | .knowledge => one "content_ref" ++ many "source_work_refs" ++ many "evidence_refs"
  | .knowledgeProjection =>
    ["source_work_refs", "current_assertion_refs", "evidence_summary_refs",
     "counterexample_refs", "negative_knowledge_refs", "usage_refs", "history_refs",
     "epistemic_judgment_refs", "authorization_refs", "scope_version_refs"].flatMap many
  | .event => (one "subject_ref").map (fun e => { e with eventSubject := true })
  | .step => one "run_id"
  | .attempt => one "step_id"
  | .checkpoint => one "run_id" ++ one "step_id" ++ one "payload_ref"
  | .compensation => one "action_ref" ++ one "result_ref"
  | .record =>
    many "source_refs" ++
      (let recordType := raw.get "record_type"
       if recordType.eqStr "Action" then one "work_id" ++ one "run_id"
       else if recordType.eqStr "Outcome" then
         one "action_ref" ++ many "artifact_refs" ++ many "evidence_refs"
       else if recordType.eqStr "Revision" then
         one "subject_ref" ++ one "revises_ref" ++ one "produces_ref" ++ one "supersedes_ref"
       else if recordType.eqStr "ChangeObject" then one "current_version_ref"
       else if recordType.eqStr "Decision" then many "rationale_refs" ++ many "authorized_by"
       else [])
  | .relation =>
    one "subject_ref" ++ one "object_ref" ++
      match raw.get "metadata" with
      | .obj metadata =>
        RefEdge.one "revision_ref" (Fields.get metadata "revision_ref") ++
          RefEdge.one "reopen_assessment_id" (Fields.get metadata "reopen_assessment_id")
      | _ => []
  | .authorization => one "source_decision_ref"
  | .authorizationUse => one "authorization_ref"

end PortableRuntime
