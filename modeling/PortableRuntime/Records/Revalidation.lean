import PortableRuntime.Library.Dict
import PortableRuntime.Library.FirstWins
import PortableRuntime.Python.Json

/-!
# Revalidation of what depends on a change

A change affects the subjects of the typed relations that point to it, each once.  A profile turns
the relation under which a subject was found into an action, and the change into a risk.
-/

namespace PortableRuntime

/-- `ImpactType`: the actions of a disposition, which are `_VALID_ACTIONS`. -/
inductive ImpactType where
  | none | warn | backgroundRevalidate | blockNextUse | requireHumanReview | reopen
deriving Repr, DecidableEq, Inhabited

namespace ImpactType

def text : ImpactType → String
  | .none => "none"
  | .warn => "warn"
  | .backgroundRevalidate => "background-revalidate"
  | .blockNextUse => "block-next-use"
  | .requireHumanReview => "require-human-review"
  | .reopen => "reopen"

def all : List ImpactType :=
  [.none, .warn, .backgroundRevalidate, .blockNextUse, .requireHumanReview, .reopen]

end ImpactType

structure RevalidationDisposition where
  action : ImpactType := .warn
  policyRef : String := "default-revalidation-policy"
  rationaleRefs : List String := []
deriving Repr, DecidableEq

inductive Severity where
  | low | medium | high | critical
deriving Repr, DecidableEq, Inhabited

inductive Urgency where
  | routine | elevated | urgent | immediate
deriving Repr, DecidableEq, Inhabited

inductive BlastRadius where
  | localOnly | bounded | wide | systemic
deriving Repr, DecidableEq, Inhabited

/-! ## Profiles -/

abbrev Risk := Severity × Urgency × BlastRadius

structure RevalidationPolicyProfile where
  profileId : String := "default-revalidation-policy"
  riskRules : Dict String Risk
  requiredActionRules : Dict String (Dict String ImpactType)

namespace RevalidationPolicyProfile

def riskFor (profile : RevalidationPolicyProfile) (changeType : String) : Risk :=
  (profile.riskRules.get? (Text.lower (Text.strip changeType))).getD (.medium, .elevated, .bounded)

def actionFor (profile : RevalidationPolicyProfile) (changeType relationType : String) :
    ImpactType :=
  let perType :=
    (profile.requiredActionRules.get? (Text.lower (Text.strip changeType))).getD Dict.empty
  match perType.get? relationType with
  | some action => action
  | none =>
    if ["validated-under", "evaluated-by"].contains relationType then .blockNextUse
    else if ["authorized-under", "scoped-to"].contains relationType then .requireHumanReview
    else .backgroundRevalidate

/-- `DEFAULT_REVALIDATION_POLICY_PROFILE`. -/
def default : RevalidationPolicyProfile where
  riskRules := Dict.ofPairs
    [("evaluator", .high, .urgent, .wide), ("model", .high, .urgent, .wide),
     ("code", .medium, .elevated, .bounded), ("dataset", .medium, .elevated, .bounded),
     ("permission", .high, .urgent, .wide), ("classification", .medium, .elevated, .bounded),
     ("state_space", .critical, .immediate, .systemic), ("environment", .high, .urgent, .wide)]
  requiredActionRules := Dict.ofPairs
    [("evaluator", Dict.ofPairs
       [("validated-under", .blockNextUse), ("evaluated-by", .blockNextUse),
        ("depends-on", .backgroundRevalidate)]),
     ("model", Dict.ofPairs
       [("validated-under", .blockNextUse), ("evaluated-by", .blockNextUse),
        ("depends-on", .backgroundRevalidate)]),
     ("code", Dict.ofPairs
       [("executed-with", .blockNextUse), ("validated-under", .blockNextUse),
        ("depends-on", .backgroundRevalidate)]),
     ("dataset", Dict.ofPairs
       [("measured-by", .blockNextUse), ("depends-on", .backgroundRevalidate)]),
     ("permission", Dict.ofPairs
       [("authorized-under", .requireHumanReview), ("depends-on", .backgroundRevalidate)]),
     ("classification", Dict.ofPairs
       [("scoped-to", .requireHumanReview), ("depends-on", .backgroundRevalidate)]),
     ("state_space", Dict.ofPairs
       [("scoped-to", .reopen), ("depends-on", .backgroundRevalidate),
        ("validated-under", .blockNextUse)]),
     ("environment", Dict.ofPairs
       [("validated-under", .blockNextUse), ("executed-with", .backgroundRevalidate),
        ("measured-by", .backgroundRevalidate), ("depends-on", .warn)])]

end RevalidationPolicyProfile

/-! ## Detection -/

/-- What detection reads of a relation, whatever its class is. -/
structure RelationAttributes where
  relationType : Json := .null
  type : Json := .str ""
  objectRef : Json := .null
  subjectRef : Json := .null
  id : String := ""

/-- Observed dependency impact; it does not prescribe an action. -/
structure DependencyImpact where
  changeRef : String
  affectedRef : String
  relationType : String
  impactType : ImpactType := .warn
  reasonRefs : List String := []
deriving Repr, DecidableEq

/-- `_TYPED_DEPENDENCY_RULES`. -/
def typedDependencyRules : List (String × List String) :=
  [("evaluator", ["validated-under", "evaluated-by"]),
   ("model", ["validated-under", "evaluated-by", "depends-on"]),
   ("code", ["executed-with", "validated-under", "depends-on"]),
   ("dataset", ["measured-by", "depends-on"]),
   ("permission", ["authorized-under", "depends-on"]),
   ("classification", ["scoped-to", "depends-on"]),
   ("state_space", ["scoped-to", "depends-on", "validated-under"]),
   ("environment", ["validated-under", "executed-with", "measured-by", "depends-on"])]

/-- `change_type.strip().lower()`. -/
def changeKind (changeType : String) : String := Text.lower (Text.strip changeType)

/-- The relation types that a change of a type is seen through. -/
def watched (changeType : String) : List String :=
  (Dict.lookup (changeKind changeType) typedDependencyRules).getD ["depends-on", "validated-under"]

/-- What a relation says is affected by the change. -/
def RelationAttributes.impact (changeRef : String) (watch : List String)
    (rel : RelationAttributes) : Option DependencyImpact := do
  let rt ← ((rel.relationType.pyOr rel.type).pyOr (.str "")).asStr?
  let obj ← rel.objectRef.asStr?
  let subj ← rel.subjectRef.asStr?
  guard (watch.contains rt && obj = changeRef && subj ≠ "")
  return { changeRef, affectedRef := subj, relationType := rt,
           reasonRefs := if rel.id = "" then [] else [rel.id] }

/-- The loop of the detection: a subject is affected once. -/
def detectFrom (changeRef : String) (watch seen : List String) :
    List RelationAttributes → List DependencyImpact
  | [] => []
  | rel :: rest =>
    match rel.impact changeRef watch with
    | none => detectFrom changeRef watch seen rest
    | some impact =>
      if seen.contains impact.affectedRef then detectFrom changeRef watch seen rest
      else impact :: detectFrom changeRef watch (impact.affectedRef :: seen) rest

def detectDependencyImpacts (changeRef changeType : String)
    (relations : List RelationAttributes) : Result (List DependencyImpact) :=
  if changeRef = "" then raiseValue "change_ref must be non-empty"
  else .ok (detectFrom changeRef (watched changeType) [] relations)

/-! ## Assessment -/

/-- Risk interpretation of an observed impact, separate from detection. -/
structure RiskAssessment where
  changeRef : String
  affectedRef : String
  severity : Severity := .medium
  urgency : Urgency := .elevated
  blastRadius : BlastRadius := .bounded
  rationaleRefs : List String := []
deriving Repr, DecidableEq

structure AffectedAssessment where
  changeRef : String
  affectedRef : String
  impactType : ImpactType := .warn
  severity : Severity := .medium
  requiredAction : ImpactType := .warn
  reasonRefs : List String := []
  dependencyImpact : Option DependencyImpact := none
  riskAssessment : Option RiskAssessment := none
  revalidationDisposition : Option RevalidationDisposition := none
  metadata : Fields := []

namespace AffectedAssessment

/-- `_sync_layers`: the flat fields follow the layers, where these are there. -/
def syncLayers (a : AffectedAssessment) : AffectedAssessment :=
  let a := match a.dependencyImpact with
    | none =>
      let impact : DependencyImpact :=
        { changeRef := a.changeRef, affectedRef := a.affectedRef,
          relationType := (a.metadata.getOr "relation_type" (.str "depends-on")).pyStr,
          impactType := a.impactType, reasonRefs := a.reasonRefs }
      { a with dependencyImpact := some impact }
    | some impact =>
      { a with
        impactType := if a.impactType = ImpactType.warn then impact.impactType else a.impactType
        reasonRefs := impact.reasonRefs }
  let a := match a.riskAssessment with
    | none =>
      let risk : RiskAssessment :=
        { changeRef := a.changeRef, affectedRef := a.affectedRef, severity := a.severity,
          rationaleRefs := a.reasonRefs }
      { a with riskAssessment := some risk }
    | some risk =>
      { a with
        severity := risk.severity
        reasonRefs := if risk.rationaleRefs.isEmpty then a.reasonRefs else risk.rationaleRefs }
  match a.revalidationDisposition with
  | none =>
    let disposition : RevalidationDisposition :=
      { action := a.requiredAction, rationaleRefs := a.reasonRefs }
    { a with revalidationDisposition := some disposition }
  | some disposition => { a with requiredAction := disposition.action }

/-- `_disposition`: the action of an assessment. -/
def disposition (a : AffectedAssessment) : ImpactType :=
  (a.revalidationDisposition.map RevalidationDisposition.action).getD a.requiredAction

def shouldBlock (a : AffectedAssessment) : Bool :=
  [ImpactType.blockNextUse, .requireHumanReview, .reopen].contains a.disposition

end AffectedAssessment

section Assess

variable (changeType : String) (profile : RevalidationPolicyProfile)

def deriveRiskAssessment (impact : DependencyImpact) : RiskAssessment :=
  let (severity, urgency, blastRadius) := profile.riskFor changeType
  { changeRef := impact.changeRef, affectedRef := impact.affectedRef, severity, urgency,
    blastRadius, rationaleRefs := impact.reasonRefs }

def deriveRevalidationDisposition (impact : DependencyImpact) : RevalidationDisposition :=
  { action := profile.actionFor changeType impact.relationType
    policyRef := profile.profileId
    rationaleRefs := impact.reasonRefs }

def assessImpact (impact : DependencyImpact) : AffectedAssessment :=
  let risk := deriveRiskAssessment changeType profile impact
  let disposition := deriveRevalidationDisposition changeType profile impact
  AffectedAssessment.syncLayers
    { changeRef := impact.changeRef
      affectedRef := impact.affectedRef
      impactType := impact.impactType
      severity := risk.severity
      requiredAction := disposition.action
      reasonRefs := impact.reasonRefs
      metadata := [("relation_type", .str impact.relationType)]
      dependencyImpact := some impact
      riskAssessment := some risk
      revalidationDisposition := some disposition }

end Assess

def assessRevalidation (changeRef changeType : String) (relations : List RelationAttributes)
    (profile : RevalidationPolicyProfile) : Result (List AffectedAssessment) :=
  let ct := changeKind changeType
  (detectDependencyImpacts changeRef ct relations).map (List.map (assessImpact ct profile))

/-! ## What an assessment decides -/

/-- How strict an action is. -/
def ImpactType.rank : ImpactType → Nat
  | .none => 0
  | .warn => 1
  | .backgroundRevalidate => 2
  | .blockNextUse => 3
  | .requireHumanReview => 4
  | .reopen => 5

/-- The subject, the action and the risk. -/
def AffectedAssessment.decided (a : AffectedAssessment) :
    String × ImpactType × Option (Severity × Urgency × BlastRadius) :=
  (a.affectedRef, a.disposition,
    a.riskAssessment.map (fun risk => (risk.severity, risk.urgency, risk.blastRadius)))

section Decide

variable (changeRef changeType : String) (profile : RevalidationPolicyProfile)

/-- The impacts of a list of relations, before a subject is dropped for having been seen. -/
def impacts (relations : List RelationAttributes) : List DependencyImpact :=
  relations.filterMap (RelationAttributes.impact changeRef (watched (changeKind changeType)))

/-- The action that the profile assigns to an impact. -/
def assigned (impact : DependencyImpact) : ImpactType :=
  profile.actionFor (changeKind changeType) impact.relationType

/-- In every order the same is decided; every affected subject gets the strictest action of its
impacts; and one that blocks is not lost. -/
structure Strict (relations : List RelationAttributes) : Prop where
  orderless : ∀ relations' : List RelationAttributes, relations'.Perm relations →
    ∀ assessments assessments',
      assessRevalidation changeRef changeType relations profile = .ok assessments →
      assessRevalidation changeRef changeType relations' profile = .ok assessments' →
        ∀ x, x ∈ assessments'.map AffectedAssessment.decided ↔
          x ∈ assessments.map AffectedAssessment.decided
  strictest : ∀ assessments,
    assessRevalidation changeRef changeType relations profile = .ok assessments →
      ∀ a ∈ assessments,
        (∃ impact ∈ impacts changeRef changeType relations,
          impact.affectedRef = a.affectedRef ∧ a.disposition = assigned changeType profile impact) ∧
        ∀ impact ∈ impacts changeRef changeType relations, impact.affectedRef = a.affectedRef →
          (assigned changeType profile impact).rank ≤ a.disposition.rank
  blocking : ∀ assessments,
    assessRevalidation changeRef changeType relations profile = .ok assessments →
      ∀ impact ∈ impacts changeRef changeType relations,
        ImpactType.blockNextUse.rank ≤ (assigned changeType profile impact).rank →
          ∃ a ∈ assessments, a.affectedRef = impact.affectedRef ∧ a.shouldBlock = true

/-- The impacts on one subject call for one action. -/
def Uniform (relations : List RelationAttributes) : Prop :=
  changeRef ≠ "" → ∀ impact ∈ impacts changeRef changeType relations,
    ∀ other ∈ impacts changeRef changeType relations, other.affectedRef = impact.affectedRef →
      assigned changeType profile other = assigned changeType profile impact

end Decide

section Detect

variable {changeRef changeType : String} {profile : RevalidationPolicyProfile}
  {relations relations' : List RelationAttributes} {assessments : List AffectedAssessment}

theorem detectFrom_eq (watch seen : List String) (relations : List RelationAttributes) :
    detectFrom changeRef watch seen relations =
      keepFirst DependencyImpact.affectedRef seen
        (relations.filterMap (RelationAttributes.impact changeRef watch)) := by
  induction relations generalizing seen with
  | nil => rfl
  | cons rel rest ih =>
    rw [detectFrom, List.filterMap_cons]
    cases himpact : rel.impact changeRef watch with
    | none => exact ih seen
    | some impact =>
      simp only [keepFirst, ih]
      by_cases hseen : impact.affectedRef ∈ seen
      · rw [if_pos (List.contains_iff_mem.mpr hseen), if_pos hseen]
      · rw [if_neg (fun h => hseen (List.contains_iff_mem.mp h)), if_neg hseen]

theorem assessRevalidation_eq_ok :
    assessRevalidation changeRef changeType relations profile = .ok assessments ↔
      changeRef ≠ "" ∧ assessments =
        (keepFirst DependencyImpact.affectedRef [] (impacts changeRef changeType relations)).map
          (assessImpact (changeKind changeType) profile) := by
  rw [assessRevalidation, Result.map_eq_ok]
  simp only [detectDependencyImpacts, detectFrom_eq]
  by_cases hempty : changeRef = ""
  · simp [hempty, raiseValue]
  · simp [hempty, impacts, eq_comm]

theorem affectedRef_assessImpact (kind : String) (impact : DependencyImpact) :
    (assessImpact kind profile impact).affectedRef = impact.affectedRef := rfl

theorem disposition_assessImpact (impact : DependencyImpact) :
    (assessImpact (changeKind changeType) profile impact).disposition =
      assigned changeType profile impact := rfl

theorem decided_assessImpact (impact : DependencyImpact) :
    (assessImpact (changeKind changeType) profile impact).decided =
      (impact.affectedRef, assigned changeType profile impact,
        some (profile.riskFor (changeKind changeType))) := rfl

theorem mem_decided {l : List DependencyImpact} {x : String × ImpactType × Option Risk} :
    x ∈ (l.map (assessImpact (changeKind changeType) profile)).map AffectedAssessment.decided ↔
      ∃ impact ∈ l, (impact.affectedRef, assigned changeType profile impact,
        some (profile.riskFor (changeKind changeType))) = x := by
  simp only [List.map_map, List.mem_map, Function.comp_apply, decided_assessImpact]

/-- An action that is at least as strict as one that blocks blocks. -/
theorem shouldBlock_of_rank {a : AffectedAssessment}
    (h : ImpactType.blockNextUse.rank ≤ a.disposition.rank) : a.shouldBlock = true := by
  rw [AffectedAssessment.shouldBlock]
  revert h
  cases a.disposition <;> decide

/-- Relations in another order, the first of two impacts of one subject first. -/
theorem exists_perm_impact {impact : DependencyImpact}
    (h : impact ∈ impacts changeRef changeType relations) :
    ∃ relations', relations'.Perm relations ∧
      impact ∈ keepFirst DependencyImpact.affectedRef []
        (impacts changeRef changeType relations') := by
  obtain ⟨rel, hrel, himpact⟩ := List.mem_filterMap.mp h
  obtain ⟨before, after, rfl⟩ := List.append_of_mem hrel
  refine ⟨rel :: (before ++ after), List.perm_middle.symm, ?_⟩
  rw [impacts, List.filterMap_cons, himpact]
  exact List.mem_cons_self

theorem exists_detected {impact : DependencyImpact}
    (h : impact ∈ impacts changeRef changeType relations) :
    ∃ k ∈ keepFirst DependencyImpact.affectedRef [] (impacts changeRef changeType relations),
      k.affectedRef = impact.affectedRef := exists_mem_keepFirst h List.not_mem_nil

theorem impacts_perm (h : relations'.Perm relations) :
    (impacts changeRef changeType relations').Perm (impacts changeRef changeType relations) :=
  h.filterMap _

theorem Strict.uniform (h : Strict changeRef changeType profile relations) :
    Uniform changeRef changeType profile relations := by
  intro hnonempty impact himpact other hother hsubject
  -- either may come first, and what is decided is that of one order
  have hdecided : ∀ i ∈ impacts changeRef changeType relations,
      ∃ k ∈ keepFirst DependencyImpact.affectedRef [] (impacts changeRef changeType relations),
        k.affectedRef = i.affectedRef ∧
          assigned changeType profile k = assigned changeType profile i := by
    intro i hi
    obtain ⟨relations', hperm, hfirst⟩ := exists_perm_impact hi
    have hsame := h.orderless relations' hperm _ _
      (assessRevalidation_eq_ok.mpr ⟨hnonempty, rfl⟩)
      (assessRevalidation_eq_ok.mpr ⟨hnonempty, rfl⟩)
    obtain ⟨k, hk, heq⟩ := mem_decided.mp ((hsame _).mp (mem_decided.mpr ⟨i, hfirst, rfl⟩))
    exact ⟨k, hk, congrArg Prod.fst heq, congrArg (fun x => x.2.1) heq⟩
  obtain ⟨k, hk, hkref, hkaction⟩ := hdecided impact himpact
  obtain ⟨k', hk', hkref', hkaction'⟩ := hdecided other hother
  obtain rfl : k = k' :=
    eq_of_mem_keepFirst hk hk' (by rw [hkref, hkref', hsubject])
  rw [← hkaction, ← hkaction']

theorem Uniform.strict (h : Uniform changeRef changeType profile relations) :
    Strict changeRef changeType profile relations where
  orderless := by
    intro relations' hperm assessments assessments' hok hok'
    obtain ⟨hnonempty, rfl⟩ := assessRevalidation_eq_ok.mp hok
    obtain ⟨-, rfl⟩ := assessRevalidation_eq_ok.mp hok'
    have huniform := h hnonempty
    have hmem : ∀ i, i ∈ impacts changeRef changeType relations' ↔
        i ∈ impacts changeRef changeType relations := fun _ => (impacts_perm hperm).mem_iff
    intro x
    rw [mem_decided, mem_decided]
    constructor
    · rintro ⟨i, hi, rfl⟩
      have hmem' := (hmem i).mp (mem_of_mem_keepFirst hi)
      obtain ⟨k, hk, hkey⟩ := exists_detected hmem'
      refine ⟨k, hk, ?_⟩
      rw [hkey, huniform i hmem' k (mem_of_mem_keepFirst hk) hkey]
    · rintro ⟨i, hi, rfl⟩
      have hmem' := mem_of_mem_keepFirst hi
      obtain ⟨k, hk, hkey⟩ := exists_detected ((hmem i).mpr hmem')
      refine ⟨k, hk, ?_⟩
      rw [hkey, huniform i hmem' k ((hmem k).mp (mem_of_mem_keepFirst hk)) hkey]
  strictest := by
    intro assessments hok a ha
    obtain ⟨hnonempty, rfl⟩ := assessRevalidation_eq_ok.mp hok
    obtain ⟨impact, himpact, rfl⟩ := List.mem_map.mp ha
    rw [disposition_assessImpact, affectedRef_assessImpact]
    have hmem := mem_of_mem_keepFirst himpact
    refine ⟨⟨impact, hmem, rfl, rfl⟩, fun other hother hsubject => ?_⟩
    rw [h hnonempty impact hmem other hother hsubject]
  blocking := by
    intro assessments hok impact himpact hblocks
    obtain ⟨hnonempty, rfl⟩ := assessRevalidation_eq_ok.mp hok
    obtain ⟨k, hk, hkey⟩ := exists_detected himpact
    refine ⟨_, List.mem_map_of_mem hk, hkey, shouldBlock_of_rank ?_⟩
    rw [disposition_assessImpact,
      h hnonempty impact himpact k (mem_of_mem_keepFirst hk) hkey]
    exact hblocks

/-- An assessment is that of every order and the strictest exactly where the impacts on one subject
call for one action. -/
theorem revalidation_strict_iff (changeRef changeType : String)
    (profile : RevalidationPolicyProfile) (relations : List RelationAttributes) :
    Strict changeRef changeType profile relations ↔
      Uniform changeRef changeType profile relations :=
  ⟨Strict.uniform, Uniform.strict⟩

/-- A goal that depends on a part of the state space and is scoped to it. -/
def dependsThenScoped : List RelationAttributes :=
  [{ relationType := .str "depends-on", objectRef := .str "state", subjectRef := .str "goal",
     id := "r1" },
   { relationType := .str "scoped-to", objectRef := .str "state", subjectRef := .str "goal",
     id := "r2" }]

/-- The weaker relation, which comes first, hides the one that would reopen the goal. -/
theorem reopening_hidden : ¬ ∀ changeRef changeType profile relations,
    Strict changeRef changeType profile relations := by
  intro h
  have hstrict := h "state" "state_space" .default dependsThenScoped
  let depends : DependencyImpact :=
    { changeRef := "state", affectedRef := "goal", relationType := "depends-on",
      reasonRefs := ["r1"] }
  let wider : DependencyImpact :=
    { changeRef := "state", affectedRef := "goal", relationType := "scoped-to",
      reasonRefs := ["r2"] }
  have himpacts : impacts "state" "state_space" dependsThenScoped = [depends, wider] := by decide
  have hassess : assessRevalidation "state" "state_space" dependsThenScoped .default =
      .ok [assessImpact "state_space" .default depends] := by
    rw [assessRevalidation_eq_ok, himpacts]
    exact ⟨by decide, rfl⟩
  obtain ⟨a, ha, -, hblock⟩ := hstrict.blocking _ hassess wider
    (by rw [himpacts]; exact List.mem_cons_of_mem _ (List.mem_singleton_self _)) (by decide)
  rw [List.mem_singleton.mp ha] at hblock
  exact absurd hblock (by decide)

end Detect

end PortableRuntime
