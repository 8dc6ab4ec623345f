import PortableRuntime.Records.Models

/-!
# Relations and knowledge projections
-/

namespace PortableRuntime

inductive RelationType where
  | records | supports | contradicts | derivedFrom | tests | authorizes | produces | revises
  | supersedes | requiresRevalidation | dependsOn | validatedUnder | measuredBy
  | authorizedUnder | executedWith | evaluatedBy | scopedTo
deriving Repr, DecidableEq, Inhabited

def RelationType.text : RelationType → String
  | .records => "records"
  | .supports => "supports"
  | .contradicts => "contradicts"
  | .derivedFrom => "derived-from"
  | .tests => "tests"
  | .authorizes => "authorizes"
  | .produces => "produces"
  | .revises => "revises"
  | .supersedes => "supersedes"
  | .requiresRevalidation => "requires-revalidation"
  | .dependsOn => "depends-on"
  | .validatedUnder => "validated-under"
  | .measuredBy => "measured-by"
  | .authorizedUnder => "authorized-under"
  | .executedWith => "executed-with"
  | .evaluatedBy => "evaluated-by"
  | .scopedTo => "scoped-to"

structure RecordRelation where
  id : String
  relationType : RelationType
  subjectRef : String
  objectRef : String
  scope : Option Fields := none
  createdAt : Time
  createdBy : String := "system"
  metadata : Fields := []
  extra : Fields := []
deriving Repr, Inhabited

def RecordRelation.dump (r : RecordRelation) : Fields :=
  [("id", .str r.id), ("relation_type", .str r.relationType.text),
   ("subject_ref", .str r.subjectRef), ("object_ref", .str r.objectRef),
   ("scope", dumpFields r.scope), ("created_at", .datetime r.createdAt),
   ("created_by", .str r.createdBy), ("metadata", .obj r.metadata)] ++ r.extra

/-- The relation type is one of the canonical ones by construction. -/
def validateRelation (rel : RecordRelation) : List String :=
  if rel.subjectRef = "" || rel.objectRef = "" then ["subject_ref and object_ref required"] else []

inductive Maturity where
  | compression | prediction | transfer | intervention | boundary
deriving Repr, DecidableEq, Inhabited

def Maturity.text : Maturity → String
  | .compression => "Compression"
  | .prediction => "Prediction"
  | .transfer => "Transfer"
  | .intervention => "Intervention"
  | .boundary => "Boundary"

structure KnowledgeProjection where
  id : String
  kind : String := "projection"
  title : String := ""
  sourceWorkRefs : List String := []
  currentAssertionRefs : List String := []
  evidenceSummaryRefs : List String := []
  validityScope : Fields := []
  environmentBindings : List (String × String) := []
  counterexampleRefs : List String := []
  negativeKnowledgeRefs : List String := []
  reopenConditions : List String := []
  usageRefs : List String := []
  historyRefs : List String := []
  epistemicJudgmentRefs : List String := []
  authorizationRefs : List String := []
  scopeVersionRefs : List String := []
  lifecycleStatus : KnowledgeStatus := .candidate
  createdAt : Time
  updatedAt : Time
  maturity : List (Maturity × String) := []
  metadata : Fields := []
  extra : Fields := []
deriving Repr, Inhabited

def KnowledgeProjection.dump (p : KnowledgeProjection) : Fields :=
  [("id", .str p.id), ("kind", .str p.kind), ("title", .str p.title),
   ("source_work_refs", .ofStrings p.sourceWorkRefs),
   ("current_assertion_refs", .ofStrings p.currentAssertionRefs),
   ("evidence_summary_refs", .ofStrings p.evidenceSummaryRefs),
   ("validity_scope", .obj p.validityScope),
   ("environment_bindings", .obj (p.environmentBindings.map (fun e => (e.1, .str e.2)))),
   ("counterexample_refs", .ofStrings p.counterexampleRefs),
   ("negative_knowledge_refs", .ofStrings p.negativeKnowledgeRefs),
   ("reopen_conditions", .ofStrings p.reopenConditions),
   ("usage_refs", .ofStrings p.usageRefs), ("history_refs", .ofStrings p.historyRefs),
   ("epistemic_judgment_refs", .ofStrings p.epistemicJudgmentRefs),
   ("authorization_refs", .ofStrings p.authorizationRefs),
   ("scope_version_refs", .ofStrings p.scopeVersionRefs),
   ("lifecycle_status", .str p.lifecycleStatus.text), ("created_at", .datetime p.createdAt),
   ("updated_at", .datetime p.updatedAt),
   ("maturity", .obj (p.maturity.map (fun e => (e.1.text, .str e.2)))),
   ("metadata", .obj p.metadata)] ++ p.extra

end PortableRuntime
