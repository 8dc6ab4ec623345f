import PortableRuntime.Protocol.Rules

/-!
# Promotion to official

An official Policy or ChangeObject needs a passing verification and a bound grant; an
official projection needs its whole epistemic and authorization graph.  Where no use
is named, a grant is judged at the present instant `now`.
-/

namespace PortableRuntime

/-! ## Proofs of a promoted record -/

/-- The references a record's metadata lists under the names. -/
def metadataRefs (metadata : Fields) (names : List String) : List String :=
  names.flatMap (fun name => match metadata.get name with
    | .str s => if Text.nonBlank s then [s] else []
    | .arr items => (items.filter Json.isNonBlankStr).map Json.pyStr
    | _ => [])

/-- Accept only an explicitly typed closed verification proof. -/
def verificationResultIsPassing (raw : Fields) : Result Bool := do
  let metadata := (raw.get "metadata").asFields?
  let nested := match metadata with
    | some md => (raw.get "verification_result").pyOr (Fields.get md "verification_result")
    | none => raw.get "verification_result"
  let kind := match metadata with
    | some md => (raw.get "kind").pyOr (Fields.get md "kind")
    | none => raw.get "kind"
  let typedContainer ←
    kind.inSet ["closed-verification", "verification-result", "ClosedVerificationResult"]
  let typedRecord ← (raw.get "record_type").inSet ["EvidenceArtifact", "VerificationResult"]
  return (typedContainer || typedRecord) && match nested with
    | .obj closed => match Fields.get closed "result" with
      | .str result => Text.lower result = "pass"
      | _ => false
    | _ => false

/-- `ref in by_id and _verification_result_is_passing(by_id[ref])`. -/
def passingRef (dumps : Dict String Fields) (ref : String) : Result Bool :=
  match dumps.get? ref with
  | some raw => verificationResultIsPassing raw
  | none => .ok false

/-- `all(…)` over checks that may raise. -/
def allM {α : Type} (check : α → Result Bool) : List α → Result Bool
  | [] => .ok true
  | a :: rest => do if ← check a then allM check rest else return false

/-- `any(…)` over checks that may raise. -/
def anyM {α : Type} (check : α → Result Bool) : List α → Result Bool
  | [] => .ok false
  | a :: rest => do if ← check a then return true else anyM check rest

/-- `refs and all(passing)`. -/
def allPassing (dumps : Dict String Fields) (refs : List String) : Result Bool :=
  if refs.isEmpty then .ok false else allM (passingRef dumps) refs

/-- A relation that carries a verification of the target. -/
def verifyingRelation (targetId : String) (rel : RecordRelation) : Bool :=
  (rel.relationType = .validatedUnder || rel.relationType = .evaluatedBy) &&
    (rel.subjectRef = targetId || rel.objectRef = targetId)

def hasEffectiveVerification (target : BaseRecord) (s : State) : Result Bool := do
  let dumps := s.dumps
  if ← allPassing dumps (metadataRefs target.metadata
      ["verification_refs", "verification_ref", "closed_verification_refs"]) then
    return true
  else
    anyM (fun rel => allPassing dumps (metadataRefs rel.metadata
        ["verification_ref", "verification_refs", "result_ref"]))
      (s.relations.filter (verifyingRelation target.id))

/-- A named use binds a grant to a request at the instant of the use. -/
def useBinds (use : AuthorizationUse) (grant : AuthorizationGrant)
    (request : CanonicalAuthorizationRequest) : Bool :=
  use.authorizationRef == grant.id && use.capability == request.capability &&
    use.actorRef == request.actorRef && some use.resourceRef == request.resourceRef &&
    use.effectClass == request.effectClass &&
    request.subjectVersionRefs.any use.subjectVersionRefs.contains &&
    (validateGrant grant use.authorizedAt).isEmpty &&
    isAuthorizedFor request grant use.authorizedAt

/-- A grant holds for a promotion: at the named use when the metadata names one, and at
the present instant otherwise. -/
def grantHolds (now : Time) (s : State) (grant : AuthorizationGrant)
    (request : CanonicalAuthorizationRequest) (useRef : Json) : Bool :=
  match useRef with
  | .str ref => match State.find (k := .authorizationUse) s.uses ref with
    | some use => useBinds use grant request
    | none => false
  | _ => (validateGrant grant now).isEmpty && isAuthorizedFor request grant now

/-- The request a promotion made, as its metadata describes it. -/
def promotionRequest (capability : String) (metadata : Fields) (versions : List String) :
    Option CanonicalAuthorizationRequest :=
  match metadata.get "actor_ref", metadata.get "resource_ref", metadata.get "effect_class" with
  | .str actorRef, .str resourceRef, .str effect =>
    if Text.nonBlank actorRef && Text.nonBlank resourceRef && Text.nonBlank effect then
      (EffectClass.ofText? effect).map (fun effectClass =>
        { capability, actorRef, resourceRef := some resourceRef,
          subjectVersionRefs := versions, effectClass })
    else none
  | _, _, _ => none

def promotionCapability : RecordType → Option String
  | .policy => some "policy.promote"
  | .changeObject => some "change.promote"
  | _ => none

/-- One grant is a structurally bound authorization of the promotion of `target`. -/
def grantProves (now : Time) (target : BaseRecord) (s : State) (grant : AuthorizationGrant) :
    Bool :=
  grant.subjectVersionRefs.any target.expectedRefs.contains &&
    match promotionCapability target.recordType with
    | none => false
    | some capability =>
      match promotionRequest capability target.metadata (Text.sortedUnique target.expectedRefs) with
      | none => false
      | some request =>
        grantHolds now s grant request (target.metadata.get "authorization_use_ref")

def hasStructuralAuthorizationProof (now : Time) (target : BaseRecord) (s : State) : Bool :=
  s.authorizations.any (grantProves now target s)

def promotedTypes : List RecordType := [.policy, .changeObject]

/-- The governance references of a promoted record must be well shaped. -/
def governanceRefErrors (record : BaseRecord) : List String :=
  ["verification_refs", "verification_ref", "closed_verification_refs", "authorization_refs",
    "authorization_ref"].flatMap (fun field =>
      match Fields.get? field record.metadata with
      | none => []
      | some value =>
        if Text.endsWith field "_ref" then
          errorIf (!value.isNonBlankStr) s!"record {record.id} {field} must be a non-empty string"
        else
          errorIf (match value with
            | .arr items => !items.all Json.isNonBlankStr
            | _ => true) s!"record {record.id} {field} must be a list of non-empty strings")

/-- The gate of an official Policy or ChangeObject, keyed on the predecessor status that
the record's own metadata names. -/
def promotionErrors (now : Time) (s : State) (record : BaseRecord) : Result (List String) := do
  if record.lifecycleStatus ≠ .official ∨ !promotedTypes.contains record.recordType then return []
  if !(← (record.metadata.get "previous_lifecycle_status").inSet ["candidate", "official"]) then
    return []
  let verified ← hasEffectiveVerification record s
  return governanceRefErrors record ++
    errorIf (!verified)
      s!"record {record.id} official promotion requires a passing ClosedVerificationResult proof" ++
    errorIf (!hasStructuralAuthorizationProof now record s)
      s!"record {record.id} official promotion requires a structurally bound AuthorizationGrant"

/-! ## Knowledge projections -/

/-- `_string_refs`: the stripped non-blank texts of a value. -/
def stringRefs : Json → List String
  | .str s => if Text.nonBlank s then [Text.strip s] else []
  | .arr items => ((items.filter Json.isNonBlankStr).map (fun j => Text.strip j.pyStr)).dedup
  | _ => []

/-- `set(value or [])`; raises on a value that is not iterable or has no hash. -/
def pySet (value : Json) : Result (List Json) :=
  if !value.truthy then .ok [] else match value with
  | .arr items =>
    if items.any (fun j => match j with | .arr _ | .obj _ => true | _ => false) then
      .error (.typeError "unhashable type")
    else .ok items
  | .str s => .ok (s.toList.map (fun c => .str (String.ofList [c])))
  | .datetime t => .ok ((Text.dateTime t ++ "Z").toList.map (fun c => .str (String.ofList [c])))
  | .obj fields => .ok (fields.map (fun f => .str f.1))
  | _ => .error (.typeError "object is not iterable")

def meets (values : List Json) (refs : List String) : Bool :=
  values.any (fun v => refs.any v.eqStr)

/-- The type of a local object as the projection rule names it. -/
def State.actualType (s : State) (ref : String) : Option String :=
  match s.kindOf ref with
  | some .record => (s.recordTypeOf ref).map RecordType.text
  | kind => kind.map Kind.text

/-- The typed reference lists of a projection. -/
def projectionRefs (p : KnowledgeProjection) : List (String × List String × List String) :=
  [("current_assertion_refs", p.currentAssertionRefs, ["Assertion"]),
   ("evidence_summary_refs", p.evidenceSummaryRefs, ["EvidenceArtifact", "Observation", "evidence"]),
   ("epistemic_judgment_refs", p.epistemicJudgmentRefs, ["Assertion"]),
   ("scope_version_refs", p.scopeVersionRefs, ["ChangeObject", "Revision"])]

def projectionTypeErrors (s : State) (p : KnowledgeProjection) : List String :=
  (projectionRefs p).flatMap (fun (field, refs, allowed) => refs.flatMap (fun ref =>
    let actual := (s.actualType ref).elim "None" Text.pyRepr
    errorIf (s.hasId ref && !(s.actualType ref).any allowed.contains)
      (s!"knowledge projection {p.id} {field} ref {Text.pyRepr ref} has type {actual}, " ++
        s!"expected one of {(Json.ofStrings allowed).pyRepr}"))) ++
  p.authorizationRefs.flatMap (fun ref =>
    errorIf (s.hasId ref && s.kindOf ref != some .authorization)
      s!"knowledge projection {p.id} authorization_refs ref {Text.pyRepr ref} must target authorization")

def unresolvedErrors (s : State) (p : KnowledgeProjection) : List String :=
  (projectionRefs p).flatMap (fun (field, refs, _) =>
    if refs.isEmpty then [s!"knowledge projection {p.id} official promotion requires {field}"]
    else refs.flatMap (fun ref =>
      errorIf (!s.hasId ref)
        s!"knowledge projection {p.id} has unresolved {field} ref {Text.pyRepr ref}"))

def missingActuals (metadata : Fields) : Bool :=
  ["actor_ref", "resource_ref", "effect_class"].any
    (fun name => !(metadata.get name).isNonBlankStr)

def projectionGrantErrors (now : Time) (s : State) (p : KnowledgeProjection) (ref : String) :
    List String :=
  match State.find (k := .authorization) s.authorizations ref with
  | none => [s!"knowledge projection {p.id} has unresolved authorization ref {Text.pyRepr ref}"]
  | some grant =>
    if missingActuals p.metadata then
      [s!"knowledge projection {p.id} authorization ref {Text.pyRepr ref} " ++
        "is missing actual actor/resource/effect"]
    else
      let holds := match promotionRequest "knowledge.promote" p.metadata [p.id, s!"{p.id}:v1"] with
        | some request => grantHolds now s grant request (p.metadata.get "authorization_use_ref")
        | none => false
      errorIf (!holds)
        s!"knowledge projection {p.id} authorization ref {Text.pyRepr ref} is invalid"

def projectionAuthorizationErrors (now : Time) (s : State) (p : KnowledgeProjection) :
    List String :=
  if p.authorizationRefs.isEmpty then
    [s!"knowledge projection {p.id} official promotion requires authorization_refs"]
  else p.authorizationRefs.flatMap (projectionGrantErrors now s p)

/-- The stripped references that name local objects. -/
def State.localRefs (s : State) (refs : List String) : List String :=
  (stringRefs (.ofStrings refs)).filter s.hasId

/-- What is wrong with a judgment of an official projection, if anything. -/
def judgmentError (s : State) (p : KnowledgeProjection) (ref : String) : Option String :=
  let message (tail : String) :=
    s!"knowledge projection {p.id} epistemic judgment {Text.pyRepr ref} {tail}"
  match s.parsedRecords.get? ref with
  | none => some (message "must target Assertion")
  | some judgment =>
    if judgment.recordType ≠ .assertion then some (message "must target Assertion")
    else
      let metadata := judgment.metadata
      let role := Text.lower (Fields.firstOf metadata ["epistemic_role", "role"] (.str "")).pyStr
      if ["approval", "authorization", "governance", "decision"].contains role then
        some (message "is an approval assertion")
      else
        let boundClaims := ["judgment_for_refs", "judgment_for", "conclusion_ref",
          "subject_refs"].flatMap (fun field => stringRefs (metadata.get field))
        if !boundClaims.any (s.localRefs p.currentAssertionRefs).contains then
          some (message "is not bound to a current assertion")
        else if judgment.epistemicStatus ≠ some .supported then
          some (message "must carry supported epistemic_status")
        else none

def validJudgments (s : State) (p : KnowledgeProjection) : List String :=
  (s.localRefs p.epistemicJudgmentRefs).filter (fun ref => (judgmentError s p ref).isNone)

def judgmentErrors (s : State) (p : KnowledgeProjection) : List String :=
  (s.localRefs p.epistemicJudgmentRefs).filterMap (judgmentError s p)

def bindingRelationTypes : List RelationType := [.derivedFrom, .supports, .validatedUnder]

/-- A derivation binds an assertion to a valid judgment, the evidence and the scope. -/
def derivationBinds (s : State) (p : KnowledgeProjection) (assertionRef : String)
    (derivation : BaseRecord) : Result Bool := do
  let judgments := validJudgments s p
  let evidenceRefs := s.localRefs p.evidenceSummaryRefs
  let scopeRefs := s.localRefs p.scopeVersionRefs
  let premises ← pySet (derivation.getattr "premise_refs")
  let evidence ← pySet (derivation.getattr "evidence_refs")
  let scope := stringRefs (derivation.metadata.get "scope_version_refs") ++
    stringRefs (derivation.metadata.get "scope_refs")
  let inScope := scopeRefs.isEmpty || scope.any scopeRefs.contains ||
    s.relations.any (fun relation => relation.relationType = .scopedTo &&
      [assertionRef, derivation.id].contains relation.subjectRef &&
      scopeRefs.contains relation.objectRef)
  let related := s.relations.any (fun relation =>
    bindingRelationTypes.contains relation.relationType &&
      ((relation.subjectRef = assertionRef &&
          (derivation.id :: judgments).contains relation.objectRef) ||
        (relation.objectRef = assertionRef &&
          (derivation.id :: judgments).contains relation.subjectRef)))
  return meets premises judgments && (evidenceRefs.isEmpty || meets evidence evidenceRefs) &&
    inScope && related

def derivationsOf (s : State) (assertionRef : String) : List BaseRecord :=
  s.parsedRecords.values.filter (fun record =>
    record.recordType = .derivation && (record.getattr "conclusion_ref").eqStr assertionRef)

def bindingErrors (s : State) (p : KnowledgeProjection) (assertionRef : String) :
    Result (List String) := do
  let bound ← anyM (derivationBinds s p assertionRef) (derivationsOf s assertionRef)
  return errorIf (!bound)
    (s!"knowledge projection {p.id} assertion {Text.pyRepr assertionRef} lacks " ++
      "judgment/derivation/evidence/scope binding")

/-- The errors of a list of checks, in order. -/
def collect {α : Type} (check : α → Result (List String)) : List α → Result (List String)
  | [] => .ok []
  | a :: rest => do return (← check a) ++ (← collect check rest)

def projectionErrors (now : Time) (s : State) (p : KnowledgeProjection) :
    Result (List String) := do
  if p.lifecycleStatus ≠ .official then return projectionTypeErrors s p
  let bindings ← collect (bindingErrors s p) (s.localRefs p.currentAssertionRefs)
  return projectionTypeErrors s p ++ unresolvedErrors s p ++
    projectionAuthorizationErrors now s p ++ judgmentErrors s p ++ bindings

end PortableRuntime
