import PortableRuntime.Protocol.State
import PortableRuntime.Python.JsonText

/-!
# Admission of an experience use

One state export answers whether the selected projections may be relied on in a context.  Each
projection is examined by itself, and what is found goes into collections that all of them share.
The parsing of a projection and the hash are functions that the whole module shares.
-/

namespace PortableRuntime
namespace Experience

inductive ExperienceUseStatus where
  | notApplicable | allowed | blocked | stale | unavailable
deriving Repr, DecidableEq, Inhabited

inductive NegativeApplicability where
  | current | outside | unknown
deriving Repr, DecidableEq

def experienceUseRequirementSchema : String := "experience-use-requirement-v1"

def resolvedExperienceUseSnapshotSchema : String := "resolved-experience-use-snapshot-v1"

def currentExperienceUseAdmissionContract : String := "experience-use-admission-v1"

/-! ## Canonical texts -/

def noiseKeys : List String := ["created_at", "updated_at"]

mutual
/-- A value without the fields of a noisy name, at any depth. -/
def withoutNoise : Json → Json
  | .arr items => .arr (withoutNoiseItems items)
  | .obj fields => .obj (withoutNoiseFields fields)
  | j => j
termination_by structural x => x

def withoutNoiseItems : List Json → List Json
  | [] => []
  | j :: rest => withoutNoise j :: withoutNoiseItems rest
termination_by structural x => x

def withoutNoiseFields : List (String × Json) → List (String × Json)
  | [] => []
  | f :: rest =>
    if noiseKeys.contains f.1 then withoutNoiseFields rest
    else withoutNoiseField f :: withoutNoiseFields rest
termination_by structural x => x

def withoutNoiseField : String × Json → String × Json
  | (name, v) => (name, withoutNoise v)
termination_by structural x => x
end

def canonicalStyle : JsonStyle :=
  { itemSeparator := ",", keySeparator := ":", sortKeys := true }

def canonicalJson (j : Json) : String := (withoutNoise j).dumps canonicalStyle

def normalRefs (values : List String) : List String := Text.normalized values

def stringRefs : Json → List String
  | .arr items => normalRefs (items.filterMap Json.asStr?)
  | _ => []

def nonemptyMapping : Json → Option Fields
  | .obj fields => if fields.isEmpty then none else some fields
  | _ => none

def metadataOf (raw : Fields) : Fields := (raw.get "metadata").asFields?.getD []

/-! ## Requirements -/

/-- The exact set of projections that a judgment intends to rely on, in its context. -/
structure ExperienceUseRequirement where
  projectionRefs : List String
  useScope : Fields
  subjectVersionRefs : List String
  environmentBindings : List (String × String)
  useContext : Fields
  projections_normal : normalRefs projectionRefs = projectionRefs
  versions_normal : normalRefs subjectVersionRefs = subjectVersionRefs

/-- `ExperienceUseRequirement(…)`: the references are normalized. -/
def ExperienceUseRequirement.create (projectionRefs : List String) (useScope : Fields)
    (subjectVersionRefs : List String) (environmentBindings : List (String × String))
    (useContext : Fields) : ExperienceUseRequirement where
  projectionRefs := normalRefs projectionRefs
  useScope := useScope
  subjectVersionRefs := normalRefs subjectVersionRefs
  environmentBindings := environmentBindings
  useContext := useContext
  projections_normal := Text.normalized_idem projectionRefs
  versions_normal := Text.normalized_idem subjectVersionRefs

namespace ExperienceUseRequirement

def environment (requirement : ExperienceUseRequirement) : Fields :=
  requirement.environmentBindings.map (fun binding => (binding.1, .str binding.2))

def semanticPayload (requirement : ExperienceUseRequirement) : Json :=
  .obj [("schema", .str experienceUseRequirementSchema),
    ("projection_refs", .ofStrings requirement.projectionRefs),
    ("use_scope", .obj requirement.useScope),
    ("subject_version_refs", .ofStrings requirement.subjectVersionRefs),
    ("environment_bindings", .obj requirement.environment),
    ("use_context", .obj requirement.useContext)]

end ExperienceUseRequirement

/-! ## Reading the state -/

def bucket (state : State) (k : Kind) : List Fields := (state k).map k.dump

/-- The one object of these kinds with this id. -/
def findExact (state : State) (ref : String) (kinds : List Kind := Kind.all) :
    Option (Kind × Fields) :=
  match kinds.flatMap (fun k =>
    ((bucket state k).filter (fun raw => (raw.get "id").eqStr ref)).map (fun raw => (k, raw))) with
  | [found] => some found
  | _ => none

def recordType? (raw : Fields) : Option String := (raw.get "record_type").asStr?

structure ResolvedObject where
  kind : Kind
  value : Fields

/-- A field of a projection whose references have expected types. -/
structure DirectField where
  name : String
  refs : KnowledgeProjection → List String
  expected : List (Kind × Option String)

/-- `_EXPECTED_DIRECT_TYPES`. -/
def expectedDirectTypes : List DirectField :=
  [{ name := "current_assertion_refs", refs := KnowledgeProjection.currentAssertionRefs,
     expected := [(.record, some "Assertion")] },
   { name := "evidence_summary_refs", refs := KnowledgeProjection.evidenceSummaryRefs,
     expected := [(.record, some "EvidenceArtifact"), (.record, some "Observation"),
       (.evidence, none)] },
   { name := "epistemic_judgment_refs", refs := KnowledgeProjection.epistemicJudgmentRefs,
     expected := [(.record, some "Assertion")] },
   { name := "scope_version_refs", refs := KnowledgeProjection.scopeVersionRefs,
     expected := [(.record, some "Revision"), (.record, some "ChangeObject")] },
   { name := "authorization_refs", refs := KnowledgeProjection.authorizationRefs,
     expected := [(.authorization, none)] }]

/-- What a reference of a field resolves to, or the error that is noted. -/
def directRef (state : State) (field : DirectField) (ref : String) :
    Except String ResolvedObject :=
  match findExact state ref with
  | none => .error s!"unresolved:{field.name}:{ref}"
  | some (kind, raw) =>
    let shape := (kind, if kind = .record then recordType? raw else none)
    if field.expected.contains shape then .ok { kind := kind, value := raw }
    else .error s!"wrong-type:{field.name}:{ref}"

def localRef (state : State) (role : String) (ref : String) : Except String ResolvedObject :=
  match findExact state ref with
  | none => .error s!"unresolved:{role}:{ref}"
  | some (kind, raw) => .ok { kind := kind, value := raw }

/-- The references that resolve, and the errors of the others. -/
def collect (refs : List String) (resolve : String → Except String ResolvedObject)
    (found : Dict String ResolvedObject × List String) : Dict String ResolvedObject × List String :=
  refs.foldl (fun found ref => match resolve ref with
    | .ok resolved => (found.1.set ref resolved, found.2)
    | .error message => (found.1, found.2 ++ [message])) found

def directGraph (state : State) (projection : KnowledgeProjection) :
    Dict String ResolvedObject × List String :=
  expectedDirectTypes.foldl (fun found field =>
    collect (field.refs projection) (directRef state field) found) (.empty, [])

/-- `_resolve_optional_local_refs`. -/
def resolveOptionalLocalRefs (state : State) (refs : List String) (role : String) :
    Dict String ResolvedObject × List String :=
  collect refs (localRef state role) (.empty, [])

def iterateStrings (j : Json) : Result (List String) :=
  j.iterate.map (fun items => items.filterMap Json.asStr?)

/-- A derivation that touches the graph of the projection. -/
def isRelatedDerivation (projection : KnowledgeProjection) (raw : Fields) : Result Bool := do
  if !(raw.get "record_type").eqStr "Derivation" then return false
  let premises ← iterateStrings (raw.getOr "premise_refs" (.arr []))
  let evidence ← iterateStrings (raw.getOr "evidence_refs" (.arr []))
  let scopes ← iterateStrings ((metadataOf raw).getOr "scope_version_refs" (.arr []))
  let concluded ← (raw.get "conclusion_ref").inSet projection.currentAssertionRefs
  return concluded || premises.any projection.epistemicJudgmentRefs.contains ||
    evidence.any projection.evidenceSummaryRefs.contains ||
    scopes.any projection.scopeVersionRefs.contains

def isRelatedRelation (seed : List String) (raw : Fields) : Result Bool := do
  if ← (raw.get "subject_ref").inSet seed then return true
  (raw.get "object_ref").inSet seed

/-- The derivations that touch the graph of a projection, and the relations one hop from it. -/
def relatedGraph (state : State) (projection : KnowledgeProjection)
    (resolved : Dict String ResolvedObject) : Result (List Fields × List Fields) := do
  let derivations ← (bucket state .record).filterM (isRelatedDerivation projection)
  let seed := projection.id :: resolved.keys ++
    derivations.filterMap (fun raw => (raw.get "id").asStr?)
  let relations ← (bucket state .relation).filterM (isRelatedRelation seed)
  return (derivations, relations)

/-! ## Classification -/

/-- Every field of a mapping holds in another. -/
def includedIn (required actual : Fields) : Bool :=
  required.all (fun f => actual.has f.1 && (actual.get f.1).pyEq f.2)

def scopeMatches (projection : KnowledgeProjection) (requirement : ExperienceUseRequirement) :
    Bool :=
  includedIn projection.validityScope requirement.useScope

def environmentMatches (projection : KnowledgeProjection)
    (requirement : ExperienceUseRequirement) : Bool :=
  projection.environmentBindings.all (fun binding =>
    (requirement.environment.get binding.1).eqStr binding.2)

def subjectVersionsMatch (projection : KnowledgeProjection)
    (requirement : ExperienceUseRequirement) : Bool :=
  projection.scopeVersionRefs.all requirement.subjectVersionRefs.contains

/-- A loop that goes on with its reasons, or returns with a status and its reasons. -/
abbrev Reasoning := Except (ExperienceUseStatus × List String)

def valueOf (resolved : Dict String ResolvedObject) (ref : String) : Fields :=
  ((resolved.get? ref).map ResolvedObject.value).getD []

def textOf (raw : Fields) (name : String) : String := (raw.getOr name (.str "")).pyStr

def idText (raw : Fields) : String := textOf raw "id"

def lifecycleStale (raw : Fields) : Bool :=
  ["superseded", "archived"].contains (textOf raw "lifecycle_status")

def assertionReasons (resolved : Dict String ResolvedObject) (reasons : List String)
    (ref : String) : Reasoning (List String) :=
  let raw := valueOf resolved ref
  let epistemic := textOf raw "epistemic_status"
  let reasons := if lifecycleStale raw then reasons ++ [s!"stale-assertion:{ref}"] else reasons
  if ["contested", "refuted"].contains epistemic then
    .error (.blocked, reasons ++ [s!"blocked-assertion:{ref}:{epistemic}"])
  else if ["unknown", "revalidation-required", "unverified"].contains epistemic then
    .ok (reasons ++ [s!"stale-assertion:{ref}:{epistemic}"])
  else .ok reasons

def evidenceReasons (resolved : Dict String ResolvedObject) (reasons : List String)
    (ref : String) : List String :=
  if lifecycleStale (valueOf resolved ref) then reasons ++ [s!"stale-evidence:{ref}"] else reasons

def judgmentReasons (resolved : Dict String ResolvedObject) (reasons : List String)
    (ref : String) : Reasoning (List String) :=
  let raw := valueOf resolved ref
  let role := Text.lower ((metadataOf raw).firstOf ["epistemic_role", "role"] (.str "")).pyStr
  if textOf raw "epistemic_status" ≠ "supported" ||
      ["approval", "authorization", "governance", "decision"].contains role then
    .error (.unavailable, reasons ++ [s!"invalid-epistemic-judgment:{ref}"])
  else .ok reasons

def classifyDirectRecords (projection : KnowledgeProjection)
    (resolved : Dict String ResolvedObject) : Option ExperienceUseStatus × List String :=
  let reasoning : Reasoning (List String) := do
    let reasons ← projection.currentAssertionRefs.foldlM (assertionReasons resolved) []
    let reasons := projection.evidenceSummaryRefs.foldl (evidenceReasons resolved) reasons
    projection.epistemicJudgmentRefs.foldlM (judgmentReasons resolved) reasons
  match reasoning with
  | .error (status, reasons) => (some status, reasons)
  | .ok [] => (none, [])
  | .ok reasons => (some .stale, reasons)

def uniqueMappingState (candidates : List Fields) (actual : Fields) : NegativeApplicability :=
  match candidates with
  | [] => .unknown
  | expected :: _ =>
    if (candidates.map (fun c => canonicalJson (.obj c))).dedup.length ≠ 1 then .unknown
    else if includedIn expected actual then .current
    else .outside

def uniqueVersionState (candidates : List (List String)) (actual : List String) :
    NegativeApplicability :=
  match candidates with
  | [] => .unknown
  | expected :: _ =>
    if (candidates.map Text.sorted).dedup.length ≠ 1 then .unknown
    else if expected.all actual.contains then .current
    else .outside

/-- Whether a negative fact is about the current use, as far as the fact and a relation say. -/
def negativeApplicability (fact : Fields) (relation : Option Fields)
    (requirement : ExperienceUseRequirement) : NegativeApplicability :=
  let relation := relation.getD []
  let factMetadata := metadataOf fact
  let relationMetadata := metadataOf relation
  let scopeState := uniqueMappingState
    ([fact.get "scope", factMetadata.get "use_scope", relation.get "scope",
      relationMetadata.get "use_scope"].filterMap nonemptyMapping) requirement.useScope
  let versionState := uniqueVersionState
    (([factMetadata.get "subject_version_refs", factMetadata.get "scope_version_refs",
      relationMetadata.get "subject_version_refs",
      relationMetadata.get "scope_version_refs"].map stringRefs).filter (!·.isEmpty))
    requirement.subjectVersionRefs
  let environmentState := uniqueMappingState
    ([fact.get "environment_versions", factMetadata.get "environment_bindings",
      relationMetadata.get "environment_bindings",
      relationMetadata.get "environment_versions"].filterMap nonemptyMapping)
    requirement.environment
  let states := [scopeState, versionState, environmentState]
  if states.contains .outside then .outside
  else if states.all (· = .current) then .current
  else .unknown

/-- A relation that opposes the negative fact to an assertion of the projection. -/
def opposes (assertions : List String) (ref : String) (relation : Fields) : Result Bool := do
  if !(relation.get "relation_type").eqStr "contradicts" then return false
  if (relation.get "subject_ref").eqStr ref then
    if ← (relation.get "object_ref").inSet assertions then return true
  if (relation.get "object_ref").eqStr ref then
    (relation.get "subject_ref").inSet assertions
  else return false

/-- What one negative reference leads to. -/
inductive NegativeFinding where
  | blocked (reasons : List String)
  | unknown (reason : String)
  | outside (reason : String)

/-- What a negative fact says of the use, with the relations that bind it. -/
def boundFinding (requirement : ExperienceUseRequirement) (ref : String) (fact : Fields)
    (bound : List Fields) : NegativeFinding :=
  let stateOf (relation : Fields) := negativeApplicability fact (some relation) requirement
  let current := bound.filter (fun relation => stateOf relation = .current)
  if bound.isEmpty then
    match negativeApplicability fact none requirement with
    | .outside => .outside s!"negative-fact-outside-use:{ref}"
    | .current => .unknown s!"negative-fact-unbound:{ref}"
    | .unknown => .unknown s!"negative-applicability-unknown:{ref}"
  else if !current.isEmpty then
    .blocked (current.map (fun relation => s!"applicable-contradiction:{idText relation}:{ref}"))
  else if bound.any (fun relation => stateOf relation = .unknown) then
    .unknown s!"negative-applicability-unknown:{ref}"
  else .outside s!"negative-fact-outside-use:{ref}"

def negativeFinding (projection : KnowledgeProjection) (requirement : ExperienceUseRequirement)
    (resolved : Dict String ResolvedObject) (relations : List Fields) (ref : String) :
    Result NegativeFinding :=
  match resolved.get? ref with
  | none => .ok (.unknown s!"negative-fact-unavailable:{ref}")
  | some entry => do
    let bound ← relations.filterM (opposes projection.currentAssertionRefs ref)
    return boundFinding requirement ref entry.value bound

/-- The negative references in order, until one blocks. -/
def classifyNegativeRefs (finding : String → Result NegativeFinding) (sawUnknown : Bool)
    (reasons : List String) : List String → Result (Option ExperienceUseStatus × List String)
  | [] => .ok (if sawUnknown then some .unavailable else none, reasons)
  | ref :: rest => do
    match ← finding ref with
    | .blocked found => return (some .blocked, reasons ++ found)
    | .unknown reason => classifyNegativeRefs finding true (reasons ++ [reason]) rest
    | .outside reason => classifyNegativeRefs finding sawUnknown (reasons ++ [reason]) rest

def classifyNegativeKnowledge (projection : KnowledgeProjection)
    (requirement : ExperienceUseRequirement) (resolved : Dict String ResolvedObject)
    (relations : List Fields) : Result (Option ExperienceUseStatus × List String) :=
  classifyNegativeRefs (negativeFinding projection requirement resolved relations) false []
    (Text.sortedUnique (projection.counterexampleRefs ++ projection.negativeKnowledgeRefs))

/-! ## The snapshot -/

def projectionPayload (projection : KnowledgeProjection) : Fields :=
  [("id", .str projection.id), ("lifecycle_status", .str projection.lifecycleStatus.text),
    ("current_assertion_refs", .ofStrings projection.currentAssertionRefs),
    ("evidence_summary_refs", .ofStrings projection.evidenceSummaryRefs),
    ("epistemic_judgment_refs", .ofStrings projection.epistemicJudgmentRefs),
    ("authorization_refs", .ofStrings projection.authorizationRefs),
    ("scope_version_refs", .ofStrings projection.scopeVersionRefs),
    ("validity_scope", .obj projection.validityScope),
    ("environment_bindings", .obj (projection.environmentBindings.map (fun binding =>
      (binding.1, .str binding.2)))),
    ("counterexample_refs", .ofStrings projection.counterexampleRefs),
    ("negative_knowledge_refs", .ofStrings projection.negativeKnowledgeRefs),
    ("reopen_conditions", .ofStrings projection.reopenConditions)]

/-- `sorted(values, key=lambda item: str(item.get("id", "")))`. -/
def sortedById (values : List Fields) : List Fields :=
  values.insertionSort (fun a b => idText a ≤ idText b)

def resolvedPayload (entry : String × ResolvedObject) : Json :=
  .obj ([("ref", .str entry.1)] ++ withoutNoiseFields
    [("kind", .str entry.2.kind.text), ("value", .obj entry.2.value)])

/-- The collections that every selected projection adds to. -/
structure Evaluation where
  projections : List KnowledgeProjection := []
  resolvedObjects : Dict String ResolvedObject := .empty
  derivations : List Fields := []
  relations : List Fields := []
  unresolved : List String := []
  reasons : List String := []
  statuses : List ExperienceUseStatus := []

def snapshotPayload (requirement : ExperienceUseRequirement) (e : Evaluation) : Json :=
  .obj [("schema", .str resolvedExperienceUseSnapshotSchema),
    ("requirement", requirement.semanticPayload),
    ("projections", .arr ((sortedById (e.projections.map projectionPayload)).map .obj)),
    ("resolved_objects", .arr ((e.resolvedObjects.entries.insertionSort
      (fun a b => a.1 ≤ b.1)).map resolvedPayload)),
    ("derivations", .arr ((sortedById (e.derivations.map withoutNoiseFields)).map .obj)),
    ("relations", .arr ((sortedById (e.relations.map withoutNoiseFields)).map .obj)),
    ("unresolved", .ofStrings (Text.sortedUnique e.unresolved))]

/-! ## Evaluation -/

structure ExperienceUseAdmission where
  status : ExperienceUseStatus
  requirementDigest : String
  snapshotDigest : String
  /-- The canonical text of the resolved snapshot. -/
  semanticJson : String
  admissionContractVersion : String := currentExperienceUseAdmissionContract
  reasons : List String := []
deriving DecidableEq

section Evaluate

variable (sha256 : String → String) (modelValidate : Fields → Option KnowledgeProjection)

def experienceUseRequirementDigest (requirement : ExperienceUseRequirement) : String :=
  sha256 (canonicalJson requirement.semanticPayload)

/-- What a projection that cannot be read leaves. -/
def Evaluation.unavailable (projectionRef why : String) : Evaluation :=
  { unresolved := [s!"projection:{projectionRef}"], statuses := [.unavailable],
    reasons := [s!"{why}:{projectionRef}"] }

/-- The relations that ask to revalidate what the projection rests on. -/
def requiresRevalidation (freshnessRefs : List String) (relation : Fields) : Result Bool := do
  if !(relation.get "relation_type").eqStr "requires-revalidation" then return false
  if ← (relation.get "subject_ref").inSet freshnessRefs then return true
  (relation.get "object_ref").inSet freshnessRefs

/-- What one projection adds to the collections. -/
def examineProjection (state : State) (requirement : ExperienceUseRequirement)
    (projectionRef : String) (projection : KnowledgeProjection) : Result Evaluation := do
  let (direct, directErrors) := directGraph state projection
  let (counterexamples, counterErrors) :=
    resolveOptionalLocalRefs state projection.counterexampleRefs "counterexample"
  let (negative, negativeErrors) :=
    resolveOptionalLocalRefs state projection.negativeKnowledgeRefs "negative-knowledge"
  let resolved := (direct.update counterexamples).update negative
  let errors := directErrors ++ counterErrors ++ negativeErrors
  let (derivations, relations) ← relatedGraph state projection resolved
  let (directStatus, directReasons) := classifyDirectRecords projection resolved
  let (negativeStatus, negativeReasons) ←
    classifyNegativeKnowledge projection requirement resolved relations
  let freshnessRefs := projection.id :: projection.currentAssertionRefs ++
    projection.evidenceSummaryRefs ++ projection.epistemicJudgmentRefs ++
    projection.scopeVersionRefs ++ derivations.filterMap (fun raw => (raw.get "id").asStr?)
  let revalidations ← relations.filterM (requiresRevalidation freshnessRefs)
  let check (failed : Bool) (status : ExperienceUseStatus) (reason : String) :=
    if failed then [(status, reason)] else []
  let checks :=
    check (projection.lifecycleStatus ≠ .official) .blocked
      s!"projection-non-usable-lifecycle:{projectionRef}:{projection.lifecycleStatus.text}" ++
    check (!scopeMatches projection requirement) .blocked s!"scope-mismatch:{projectionRef}" ++
    check (!environmentMatches projection requirement) .stale
      s!"environment-drift:{projectionRef}" ++
    check (!subjectVersionsMatch projection requirement) .stale
      s!"subject-version-drift:{projectionRef}" ++
    revalidations.map (fun relation =>
      (.stale, s!"requires-revalidation:{idText relation}"))
  return {
    projections := [projection]
    resolvedObjects := resolved
    derivations := derivations
    relations := relations
    unresolved := errors
    reasons := checks.map Prod.snd ++ errors ++ (if directStatus.isSome then directReasons else [])
      ++ negativeReasons
    statuses := checks.map Prod.fst ++ (if errors.isEmpty then [] else [.unavailable]) ++
      directStatus.toList ++ negativeStatus.toList }

def examine (state : State) (requirement : ExperienceUseRequirement) (projectionRef : String) :
    Result Evaluation :=
  match findExact state projectionRef [.knowledgeProjection] with
  | none => .ok (.unavailable projectionRef "projection-unavailable")
  | some (_, raw) => match modelValidate raw with
    | none => .ok (.unavailable projectionRef "projection-invalid")
    | some projection => examineProjection state requirement projectionRef projection

def Evaluation.add (e found : Evaluation) : Evaluation where
  projections := e.projections ++ found.projections
  resolvedObjects := e.resolvedObjects.update found.resolvedObjects
  derivations := e.derivations ++ found.derivations
  relations := e.relations ++ found.relations
  unresolved := e.unresolved ++ found.unresolved
  reasons := e.reasons ++ found.reasons
  statuses := e.statuses ++ found.statuses

/-- What stands in the collections before the loop. -/
def Evaluation.start (requirement : ExperienceUseRequirement) : Evaluation :=
  if requirement.projectionRefs.isEmpty then
    { statuses := [.notApplicable], reasons := ["no-experience-reliance-declared"] }
  else {}

/-- The loop over the selected projections. -/
def examineAll (state : State) (requirement : ExperienceUseRequirement) : Result Evaluation :=
  requirement.projectionRefs.foldlM
    (fun e ref => (examine modelValidate state requirement ref).map e.add) (.start requirement)

/-- The projections are examined one by one, and what is found is added up. -/
theorem examineAll_eq_ok {state : State} {requirement : ExperienceUseRequirement}
    {e : Evaluation} : examineAll modelValidate state requirement = .ok e ↔
      ∃ found, requirement.projectionRefs.mapM (examine modelValidate state requirement) =
        .ok found ∧ e = found.foldl .add (.start requirement) :=
  Result.foldlM_map_eq_ok

/-- A blocker is decisive, then staleness, then what is missing. -/
def decideStatus (statuses : List ExperienceUseStatus) : ExperienceUseStatus :=
  if statuses.contains .blocked then .blocked
  else if statuses.contains .stale then .stale
  else if statuses.contains .unavailable then .unavailable
  else if statuses.contains .notApplicable then .notApplicable
  else .allowed

def evaluate (state : State) (requirement : ExperienceUseRequirement) :
    Result ExperienceUseAdmission := do
  let e ← examineAll modelValidate state requirement
  let semanticJson := canonicalJson (snapshotPayload requirement e)
  return { status := decideStatus e.statuses
           requirementDigest := experienceUseRequirementDigest sha256 requirement
           snapshotDigest := sha256 semanticJson
           semanticJson := semanticJson
           reasons := Text.sortedUnique e.reasons }

end Evaluate
end Experience
end PortableRuntime
