import PortableRuntime.Python.Equality
import PortableRuntime.Records.Models

/-!
# Verification evidence bound to durable execution facts
-/

namespace PortableRuntime

/-- The fields a typed proof adds to its record. -/
structure EvidenceArtifact where
  record : BaseRecord
  kind : String

/-- A record of another class is read as an `EvidenceArtifact` when the fields that
class declares have their types. -/
def evidenceArtifact? (record : BaseRecord) : Option EvidenceArtifact :=
  let optional (name : String) : Bool := match record.getattr name with
    | .null | .str _ => true
    | _ => false
  if optional "uri" && optional "media_type" && optional "checksum" then
    match Fields.get? "kind" record.fields with
    | none => some { record, kind := "artifact" }
    | some (.str kind) => some { record, kind }
    | some _ => none
  else none

inductive ProofClass where
  | execution | observation | closedVerification | objectiveVerification | revalidation
deriving Repr, DecidableEq, Inhabited

namespace ProofClass

def text : ProofClass → String
  | .execution => "execution"
  | .observation => "observation"
  | .closedVerification => "closed-verification"
  | .objectiveVerification => "objective-verification"
  | .revalidation => "revalidation"

def all : List ProofClass :=
  [.execution, .observation, .closedVerification, .objectiveVerification, .revalidation]

def ofText? (s : String) : Option ProofClass := all.find? (fun c => c.text == s)

end ProofClass

/-- `str(value).strip().lower()`. -/
def normalizedText (j : Json) : String := Text.lower (Text.strip j.pyStr)

def proofClass (artifact : EvidenceArtifact) : Result ProofClass :=
  match artifact.record.metadata.get "proof_class" with
  | .null =>
    .ok (if Text.lower (Text.strip artifact.kind) = "task-objective-proof" then
      .objectiveVerification else .closedVerification)
  | explicit => match ProofClass.ofText? (normalizedText explicit) with
    | some c => .ok c
    | none => raiseValue s!"verification proof has unknown proof_class {explicit.pyRepr}"

def proofCanCover (proofClass : ProofClass) (obligation : String) : Bool :=
  let normalized := Text.lower (Text.strip obligation)
  if proofClass = .execution then false
  else if Text.startsWith normalized "revalidate." then proofClass = .revalidation
  else if Text.startsWith normalized "verify." then proofClass ≠ .observation
  else if Text.startsWith normalized "observe." then proofClass ≠ .objectiveVerification
  else true

inductive ObjectiveResult where
  | pass | fail
deriving Repr, DecidableEq, Inhabited

def ObjectiveResult.text : ObjectiveResult → String
  | .pass => "pass"
  | .fail => "fail"

/-- The durable execution a proof of an Outcome is bound to. -/
structure ExecutionBinding where
  action : Action
  step : Step
  attempt : StepAttempt
  requestId : String
  attemptRef : String

/-- What a verification closure is checked against.  A field that is `none` is not
checked. -/
structure BindingExpectation where
  work : Work
  run : Run
  scope : Fields
  allowedResults : List ObjectiveResult := [.pass, .fail]
  workVersion : Option Json := none
  subjectVersionRefs : Option (List String) := none
  acceptanceCriteria : Option (List String) := none
  execution : Option ExecutionBinding := none
  requireVerifierProvenance : Bool := false

structure BoundVerificationEvidence where
  records : List EvidenceArtifact
  objectiveResult : ObjectiveResult
  proofClasses : List ProofClass

/-- `sorted({str(value) for value in values if str(value).strip()})`. -/
def sortedRefs (values : List String) : List String :=
  Text.sortedUnique (values.filter Text.nonBlank)

def closedResult (metadata : Fields) : Result ObjectiveResult :=
  match metadata.get "verification_result" with
  | .obj closed =>
    let result := normalizedText (Fields.getOr closed "result" (.str ""))
    if result = "pass" then .ok .pass
    else if result = "fail" then .ok .fail
    else raiseValue "verification result must be explicit pass or fail"
  | _ => raiseValue "verification requires explicit closed result"

/-- The checks of one proof against what is expected of it. -/
def checkProofMetadata (expected : BindingExpectation) (artifact : EvidenceArtifact)
    (result : ObjectiveResult) : Result Unit := do
  let metadata := artifact.record.metadata
  guardValue (expected.allowedResults.contains result)
    "verification result is not allowed for this authority"
  guardValue ((metadata.get "work_id").eqStr expected.work.id &&
      (metadata.get "run_id").eqStr expected.run.id)
    "verification proof is not bound to expected Work/Run"
  guardValue ((metadata.firstOf ["verification_scope", "scope"] .null).pyEq (.obj expected.scope))
    "verification proof scope mismatch"
  if let some version := expected.workVersion then
    guardValue ((metadata.firstOf ["work_version", "task_version", "version"] .null).pyEq version)
      "verification proof Work version mismatch"
  if let some versions := expected.subjectVersionRefs then
    match metadata.get "subject_version_refs" with
    | .arr raw =>
      guardValue (sortedRefs (raw.map Json.pyStr) == sortedRefs versions)
        "verification proof subject version binding mismatch"
    | _ => raiseValue "verification proof subject version refs required"
  if let some criteria := expected.acceptanceCriteria then
    guardValue ((metadata.firstOf ["acceptance_criteria", "criteria"] .null).pyEq
        (.ofStrings criteria))
      "verification proof acceptance criteria mismatch"
  if let some execution := expected.execution then
    guardValue ((metadata.get "action_ref").eqStr execution.action.id &&
        artifact.record.sourceRefs.contains execution.action.id)
      "verification proof is not bound to exact Action"
    guardValue ((metadata.get "request_id").eqStr execution.action.requestRef)
      "verification proof request binding mismatch"
    guardValue ((metadata.get "attempt_ref").eqStr execution.attempt.id)
      "verification proof attempt binding mismatch"
  if expected.requireVerifierProvenance then
    match metadata.get "verifier_provenance" with
    | .obj provenance =>
      guardValue (Json.pyOr (Fields.get provenance "verifier_id") (Fields.get provenance "provider_id")).isNonBlankStr
        "verification proof requires verifier identity"
      guardValue (Fields.get provenance "method").isNonBlankStr
        "verification proof requires verifier method provenance"
    | _ => raiseValue "verification proof requires verifier provenance"

def verificationKinds : List String :=
  ["closed-verification", "verification-result", "task-objective-proof"]

/-- One proof reference, resolved and checked. -/
def validateProof (expected : BindingExpectation) (recordLookup : String → Option BaseRecord)
    (ref : String) : Result (EvidenceArtifact × ObjectiveResult × ProofClass) := do
  match recordLookup ref with
  | none => raiseValue "verification requires typed EvidenceArtifact proofs"
  | some record =>
    guardValue (record.recordType = .evidenceArtifact)
      "verification requires typed EvidenceArtifact proofs"
    match evidenceArtifact? record with
    | none => raiseValue "verification requires typed EvidenceArtifact proofs"
    | some artifact =>
      guardValue (verificationKinds.contains artifact.kind)
        "verification requires typed closed verification proof kinds"
      let result ← closedResult artifact.record.metadata
      checkProofMetadata expected artifact result
      let cls ← proofClass artifact
      return (artifact, result, cls)

def checkExecutionBinding (expected : BindingExpectation) : Result Unit :=
  match expected.execution with
  | none => .ok ()
  | some e => do
    guardValue (e.action.workId = expected.work.id && e.action.runId = expected.run.id)
      "verification Action is not bound to expected Work/Run"
    guardValue (e.step.runId = expected.run.id && e.attempt.stepId = e.step.id)
      "verification Attempt/Step/Run binding mismatch"
    guardValue (e.attemptRef = e.attempt.id) "verification attempt identity mismatch"
    guardValue (e.requestId != "" && e.attempt.requestRef = some e.requestId)
      "verification request identity mismatch"
    guardValue (e.action.requestRef = e.requestId && e.attempt.requestRef = some e.action.requestRef)
      "verification Action/Attempt request binding mismatch"
    guardValue (e.attempt.providerId = some e.action.providerId)
      "verification execution provider identity mismatch"

/-- Validate durable verification facts without creating semantic records. -/
def validateBinding (expected : BindingExpectation) (refs : List String)
    (recordLookup : String → Option BaseRecord) : Result BoundVerificationEvidence := do
  let normalized := refs.filter Text.nonBlank
  guardValue (!normalized.isEmpty) "verification requires durable proof refs"
  guardValue (decide normalized.Nodup) "verification proof refs must be unique"
  guardValue (expected.work.id = expected.run.workId) "verification work/run binding mismatch"
  checkExecutionBinding expected
  let proofs ← normalized.mapM (validateProof expected recordLookup)
  match (proofs.map (fun p => p.2.1)).dedup with
  | [objectiveResult] =>
    return { records := proofs.map (fun p => p.1), objectiveResult,
             proofClasses := proofs.map (fun p => p.2.2) }
  | _ => raiseValue "inconsistent verification closure: pass/fail conflict"

/-! ## What a validated closure says -/

variable {expected : BindingExpectation} {refs : List String}
  {recordLookup recordLookup' : String → Option BaseRecord}

theorem evidenceArtifact?_record {record : BaseRecord} {artifact : EvidenceArtifact}
    (h : evidenceArtifact? record = some artifact) : artifact.record = record := by
  simp only [evidenceArtifact?] at h
  split_ifs at h
  cases hkind : Fields.get? "kind" record.fields with
  | none =>
    rw [hkind] at h
    rw [← Option.some.inj h]
  | some kind =>
    rw [hkind] at h
    cases kind with
    | str text => rw [← Option.some.inj h]
    | _ => exact absurd h (by simp)

theorem checkProofMetadata_binds_run {artifact : EvidenceArtifact} {result : ObjectiveResult}
    {u : Unit} (h : checkProofMetadata expected artifact result = .ok u) :
    artifact.record.metadata.get "run_id" = .str expected.run.id := by
  rw [checkProofMetadata, Result.check_eq_ok, Result.check_eq_ok, guardValue_eq_ok] at h
  obtain ⟨-, hbound, -⟩ := h
  rw [guardValue_eq_ok, Bool.and_eq_true] at hbound
  exact Json.pyEq_str.mp hbound.2

/-- A proof that passes resolves to a record bound to the expected Run. -/
theorem validateProof_binds_run {ref : String} {r : EvidenceArtifact × ObjectiveResult × ProofClass}
    (h : validateProof expected recordLookup ref = .ok r) :
    ∃ record, recordLookup ref = some record ∧
      record.metadata.get "run_id" = .str expected.run.id := by
  rw [validateProof] at h
  cases hrecord : recordLookup ref with
  | none => simp [hrecord, raiseValue] at h
  | some record =>
    simp only [hrecord, Result.check_eq_ok] at h
    refine ⟨record, rfl, ?_⟩
    cases hartifact : evidenceArtifact? record with
    | none => simp [hartifact, raiseValue] at h
    | some artifact =>
      simp only [hartifact, Result.bind_eq_ok] at h
      obtain ⟨-, -, -, result, -, u, hmetadata, -⟩ := h
      rw [← evidenceArtifact?_record hartifact]
      exact checkProofMetadata_binds_run hmetadata

/-- A proof passes under any lookup that resolves what this one resolves. -/
theorem validateProof_mono {ref : String} {r : EvidenceArtifact × ObjectiveResult × ProofClass}
    (hmono : ∀ ref record, recordLookup ref = some record → recordLookup' ref = some record)
    (h : validateProof expected recordLookup ref = .ok r) :
    validateProof expected recordLookup' ref = .ok r := by
  obtain ⟨record, hrecord, -⟩ := validateProof_binds_run h
  rw [validateProof, hrecord] at h
  rw [validateProof, hmono ref record hrecord]
  exact h

theorem validateBinding_mono {evidence : BoundVerificationEvidence}
    (hmono : ∀ ref record, recordLookup ref = some record → recordLookup' ref = some record)
    (h : validateBinding expected refs recordLookup = .ok evidence) :
    validateBinding expected refs recordLookup' = .ok evidence := by
  rw [validateBinding, Result.check_eq_ok, Result.check_eq_ok, Result.check_eq_ok,
    Result.check_eq_ok, Result.bind_eq_ok] at h ⊢
  obtain ⟨hne, hnodup, hwork, hexecution, proofs, hproofs, h⟩ := h
  exact ⟨hne, hnodup, hwork, hexecution, proofs,
    Result.mapM_mono (fun _ _ _ => validateProof_mono hmono) hproofs, h⟩

/-- The proofs of a validated closure: at least one, and all bound to the Run. -/
theorem validateBinding_binds_run {evidence : BoundVerificationEvidence}
    (h : validateBinding expected refs recordLookup = .ok evidence) :
    (∃ ref ∈ refs, Text.nonBlank ref = true) ∧
      ∀ ref ∈ refs, Text.nonBlank ref = true → ∃ record, recordLookup ref = some record ∧
        record.metadata.get "run_id" = .str expected.run.id := by
  rw [validateBinding, Result.check_eq_ok, Result.check_eq_ok, Result.check_eq_ok,
    Result.check_eq_ok, Result.bind_eq_ok, guardValue_eq_ok] at h
  obtain ⟨hne, -, -, -, proofs, hproofs, -⟩ := h
  constructor
  · obtain ⟨ref, href⟩ := List.exists_mem_of_ne_nil (refs.filter Text.nonBlank) (by simpa using hne)
    exact ⟨ref, List.mem_filter.mp href⟩
  · intro ref href hblank
    obtain ⟨r, hr⟩ := Result.exists_of_mapM hproofs ref (List.mem_filter.mpr ⟨href, hblank⟩)
    exact validateProof_binds_run hr

end PortableRuntime
