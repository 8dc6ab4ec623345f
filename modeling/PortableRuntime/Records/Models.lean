import PortableRuntime.Records.Lifecycle

/-!
# Semantic records

A record is a `BaseRecord`: the base fields are typed, and `fields` holds the ones
its class adds followed by the undeclared ones, as a dump lists them.  A value whose
three dimensions conflict cannot be built, as the model validator has it.
-/

namespace PortableRuntime

/-- The lifecycle statuses a type may carry. -/
def allowedLifecycle : RecordType → List LifecycleStatus
  | .evidenceArtifact | .observation | .assertion | .constraint | .experiment | .decision
  | .derivation => [.draft, .current, .superseded, .archived]
  | .goal => [.proposed, .current, .superseded, .archived]
  | .action => [.recorded, .verified, .current, .superseded]
  | .outcome => [.recorded, .confirmed, .superseded, .archived]
  | .revision => [.proposed, .authorized, .applied, .verified, .accepted, .rejected, .rolledBack]
  | .changeObject | .policy => [.draft, .candidate, .official, .deprecated, .archived]

/-- Which types may carry an epistemic status. -/
def epistemicStatusRecordTypes : List RecordType := [.assertion, .observation]

/-- The check of the model validator. -/
def validateOrthogonal (recordType : RecordType) (epistemicStatus : Option EpistemicStatus)
    (lifecycleStatus : LifecycleStatus) : Bool :=
  (epistemicStatus.isNone || epistemicStatusRecordTypes.contains recordType) &&
    (allowedLifecycle recordType).contains lifecycleStatus

inductive RecordClass where
  | baseRecord | evidenceArtifact | observation | assertion | goal | constraint | experiment
  | decisionRecord | actionRecord | outcomeRecord | revisionRecord | changeObjectRecord
  | policyRecord | derivation
deriving Repr, DecidableEq, Inhabited

/-- The fields a class declares beyond those of `BaseRecord`. -/
def RecordClass.declared : RecordClass → List String
  | .baseRecord => []
  | .evidenceArtifact => ["kind", "uri", "media_type", "checksum"]
  | .observation => ["observed_at", "method", "location", "kind"]
  | .assertion => ["kind", "statement"]
  | .goal => ["direction", "completion_criteria", "claimed_by", "source"]
  | .constraint => ["constraint_type", "description"]
  | .experiment => ["hypothesis_refs", "discriminates_between", "expected_outcomes", "risk_profile"]
  | .decisionRecord => ["decision_type", "selected_option", "rationale_refs", "authorized_by"]
  | .actionRecord => ["work_id", "run_id", "capability", "provider_id", "request_ref"]
  | .outcomeRecord => ["action_ref", "artifact_refs", "evidence_refs"]
  | .revisionRecord => ["subject_ref", "revises_ref", "produces_ref", "supersedes_ref"]
  | .changeObjectRecord => ["object_type", "current_version_ref"]
  | .policyRecord => ["policy_type", "rules"]
  | .derivation =>
      ["premise_refs", "evidence_refs", "rule_or_method_refs", "conclusion_ref", "provider_id",
       "domain", "evaluator_version", "limitations"]

structure BaseRecord where
  cls : RecordClass := .baseRecord
  id : String
  recordType : RecordType
  createdAt : Time
  createdBy : String := "system"
  systemBoundary : String := "runtime"
  scope : Fields := []
  sourceRefs : List String := []
  environmentVersions : List (String × String) := []
  assumptions : List String := []
  knownLimitations : List String := []
  unknownScopes : List String := []
  invalidationConditions : List String := []
  lifecycleStatus : LifecycleStatus := .draft
  epistemicStatus : Option EpistemicStatus := none
  version : Int := 1
  metadata : Fields := []
  fields : Fields := []
  orthogonal : validateOrthogonal recordType epistemicStatus lifecycleStatus = true := by
    exact Eq.refl true
deriving Repr

instance : Inhabited BaseRecord := ⟨{ id := "", recordType := .evidenceArtifact, createdAt := 0 }⟩

namespace BaseRecord

def dump (r : BaseRecord) : Fields :=
  [("id", .str r.id), ("record_type", .str r.recordType.text),
   ("created_at", .datetime r.createdAt), ("created_by", .str r.createdBy),
   ("system_boundary", .str r.systemBoundary), ("scope", .obj r.scope),
   ("source_refs", .ofStrings r.sourceRefs),
   ("environment_versions", .obj (r.environmentVersions.map (fun e => (e.1, .str e.2)))),
   ("assumptions", .ofStrings r.assumptions),
   ("known_limitations", .ofStrings r.knownLimitations),
   ("unknown_scopes", .ofStrings r.unknownScopes),
   ("invalidation_conditions", .ofStrings r.invalidationConditions),
   ("lifecycle_status", .str r.lifecycleStatus.text),
   ("epistemic_status", .ofOption (r.epistemicStatus.map EpistemicStatus.text)),
   ("version", .int r.version), ("metadata", .obj r.metadata)] ++
    r.fields

/-- `getattr(record, name, None)` for a field the class adds or leaves undeclared. -/
def getattr (r : BaseRecord) (name : String) : Json := r.fields.get name

/-- The fields the class does not declare. -/
def modelExtra (r : BaseRecord) : List String :=
  r.fields.names.filter (fun name => !r.cls.declared.contains name)

/-- `f"{id}:v{version}"`. -/
def versionRef (id : String) (version : Int) : String := s!"{id}:v{version}"

/-- The identity of a record and the name of its version. -/
def expectedRefs (r : BaseRecord) : List String := [r.id, versionRef r.id r.version]

end BaseRecord

end PortableRuntime
