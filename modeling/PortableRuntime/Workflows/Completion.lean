import PortableRuntime.Records.VerificationBinding

/-!
# Terminal completion

A Work is completed and a Run succeeded only together, on the strength of typed
passing proofs that cover every declared obligation.
-/

namespace PortableRuntime
namespace CompletionAuthority

def defaultWorkflowObligations (kind : String) : Option (List String) :=
  if ["incident", "alert", "repair", "incident-repair"].contains kind then
    some ["verify.http", "verify.git_diff"]
  else if ["maintenance-scan", "daily-scan", "schedule-scan", "scan", "daily_scan"].contains kind then
    some ["observe.container", "verify.promql"]
  else none

def expectedScope (work : Work) : Fields :=
  match work.metadata.getOr "verification_scope" (work.constraints.getOr "verification_scope" (.obj []))
  with
  | .obj scope => scope
  | _ => []

def expectedVersion (work : Work) : Json :=
  work.metadata.firstOf ["work_version", "task_version", "version"] (.int 1)

/-- The version that proofs are checked against: a Work whose metadata give an explicit null
asks for none. -/
def checkedVersion (work : Work) : Option Json :=
  some (expectedVersion work) |>.filter (fun version => !version.isNone)

/-- The stripped text of a value that is a non-blank string. -/
def strippedText : Json → Option String
  | .str s => if Text.nonBlank s then some (Text.strip s) else none
  | _ => none

/-- The obligations a declaration lists: a text, or a list of texts and of objects
with an identifying field. -/
def declaredObligations : Json → List String
  | .arr items => items.filterMap (fun item => match item with
      | .obj fields =>
        (["id", "ref", "key", "name", "description"].filterMap
          (fun key => strippedText (Fields.get fields key))).head?
      | other => strippedText other)
  | raw => (strippedText raw).toList

def sourceObligations (fields policyFields : List String) (source : Fields) : List String :=
  fields.flatMap (fun field => declaredObligations (source.get field)) ++
    match source.get "verification_policy" with
    | .obj policy => policyFields.flatMap (fun field => declaredObligations (Fields.get policy field))
    | _ => []

/-- `list(dict.fromkeys(values))`: the values without repetitions, in order. -/
def unique (values : List String) : List String :=
  values.foldl (fun acc v => if acc.contains v then acc else acc ++ [v]) []

/-- The verification policy's mode, as the default obligations read it. -/
def policyMode (metadata : Fields) : String :=
  match metadata.get "verification_policy" with
  | .obj policy => normalizedText (Fields.getOr policy "mode" (.str "all-required"))
  | policy => normalizedText (Json.pyOr policy (.str "all-required"))

/-- The explicit verification obligations of a Work. -/
def requiredObligationRefs (work : Work) : List String :=
  let fields := ["verification_obligations", "required_obligations", "policy_obligations",
    "obligations", "revalidation_obligations", "required_revalidation_obligations"]
  let policyFields := ["verification_obligations", "required_obligations", "obligations",
    "revalidation_obligations", "required_revalidation_obligations"]
  let values := (work.acceptanceCriteria.filter Text.nonBlank).map Text.strip ++
    sourceObligations fields policyFields work.metadata ++
    sourceObligations fields policyFields work.constraints
  unique <|
    if !values.isEmpty then values
    else if ["all-required", "all_required", "all"].contains (policyMode work.metadata) then
      (defaultWorkflowObligations work.kind).getD []
    else if (defaultWorkflowObligations work.kind).isSome then
      [s!"{work.kind}:explicit-verification-obligations-required"]
    else []

def revalidationObligationRefs (work : Work) : List String :=
  let fields := ["revalidation_obligations", "required_revalidation_obligations"]
  unique (sourceObligations fields fields work.metadata ++
    sourceObligations fields fields work.constraints)

/-- The obligations one proof covers. -/
def proofCoverage (revalidation : List String) (artifact : EvidenceArtifact)
    (cls : ProofClass) : List String :=
  let raw := artifact.record.metadata.firstOf
    ["obligation_refs", "covered_obligations", "verification_obligations"] (.arr [])
  let candidates := match raw with
    | .arr items => items.filterMap strippedText
    | other => (strippedText other).toList
  candidates.filter (fun obligation =>
    (!revalidation.contains obligation || cls = .revalidation) && proofCanCover cls obligation)

/-- The completion metadata a terminal value has to carry. -/
def checkAudit (metadata : Fields) (required covered : List String) : Result Unit := do
  let expected := [("completion_required_obligations", Json.ofStrings required),
    ("completion_covered_obligations", .ofStrings covered),
    ("completion_missing_obligations", .arr [])]
  for (key, value) in expected do
    guardValue ((metadata.get key).pyEq value)
      s!"terminal completion metadata {Text.pyRepr key} does not match proof coverage"

structure Coverage where
  required : List String
  covered : List String

/-- The complete terminal-proof contract of a Work/Run pair. -/
def validateProofInvariant (work : Work) (run : Run) (refs : List String)
    (recordLookup : String → Option BaseRecord) : Result Coverage := do
  let normalized := refs.filter Text.nonBlank
  guardValue (!normalized.isEmpty) "terminal completion requires verification proof refs"
  guardValue (decide normalized.Nodup) "terminal completion proof refs must be unique"
  guardValue (work.id = run.workId) "terminal completion work/run binding mismatch"
  let validated ← validateBinding
    { work, run, scope := expectedScope work, allowedResults := [.pass],
      workVersion := checkedVersion work,
      acceptanceCriteria := some work.acceptanceCriteria } normalized recordLookup
  let revalidation := revalidationObligationRefs work
  let covered := Text.sortedUnique ((validated.records.zip validated.proofClasses).flatMap
    (fun p => proofCoverage revalidation p.1 p.2))
  let required := Text.sortedUnique (requiredObligationRefs work)
  let missing := required.filter (fun obligation => !covered.contains obligation)
  guardValue missing.isEmpty
    ("terminal completion proofs do not cover required verification obligations: " ++
      Text.join ", " missing)
  if work.status = .completed then checkAudit work.metadata required covered
  if run.status = .succeeded then checkAudit run.metadata required covered
  return { required, covered }

variable {work : Work} {run : Run} {refs : List String} {coverage : Coverage}
  {recordLookup recordLookup' : String → Option BaseRecord}

/-- The contract that names the validated closure behind it. -/
theorem validateProofInvariant_eq_ok
    (h : validateProofInvariant work run refs recordLookup = .ok coverage) :
    ∃ evidence, validateBinding
      { work, run, scope := expectedScope work, allowedResults := [.pass],
        workVersion := checkedVersion work,
        acceptanceCriteria := some work.acceptanceCriteria } (refs.filter Text.nonBlank)
        recordLookup = .ok evidence := by
  rw [validateProofInvariant, Result.check_eq_ok, Result.check_eq_ok, Result.check_eq_ok,
    Result.bind_eq_ok] at h
  obtain ⟨-, -, -, evidence, hevidence, -⟩ := h
  exact ⟨evidence, hevidence⟩

theorem validateProofInvariant_mono
    (hmono : ∀ ref record, recordLookup ref = some record → recordLookup' ref = some record)
    (h : validateProofInvariant work run refs recordLookup = .ok coverage) :
    validateProofInvariant work run refs recordLookup' = .ok coverage := by
  rw [validateProofInvariant, Result.check_eq_ok, Result.check_eq_ok, Result.check_eq_ok,
    Result.bind_eq_ok] at h ⊢
  obtain ⟨hne, hnodup, hwork, evidence, hevidence, h⟩ := h
  exact ⟨hne, hnodup, hwork, evidence, validateBinding_mono hmono hevidence, h⟩

/-- One list of proofs completes the Work of one Run only. -/
theorem run_unique_of_proofs {work' : Work} {run' : Run} {coverage' : Coverage}
    (h : validateProofInvariant work run refs recordLookup = .ok coverage)
    (h' : validateProofInvariant work' run' refs recordLookup = .ok coverage') :
    run.id = run'.id := by
  obtain ⟨evidence, hevidence⟩ := validateProofInvariant_eq_ok h
  obtain ⟨evidence', hevidence'⟩ := validateProofInvariant_eq_ok h'
  obtain ⟨⟨ref, href, hblank⟩, hbound⟩ := validateBinding_binds_run hevidence
  obtain ⟨record, hrecord, hrun⟩ := hbound ref href hblank
  obtain ⟨record', hrecord', hrun'⟩ := (validateBinding_binds_run hevidence').2 ref href hblank
  obtain rfl := Option.some.inj (hrecord.symm.trans hrecord')
  exact Json.str.inj (hrun.symm.trans hrun')

end CompletionAuthority
end PortableRuntime
