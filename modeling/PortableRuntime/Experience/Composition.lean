import Mathlib.Order.MinMax
import PortableRuntime.Experience.UseAdmission

/-!
# Experience admission composes by conjunction

What one projection adds to the collections does not depend on the projections that are selected
with it.  The status of an admission is the worst of the statuses that were found, so the status
for a union of two selections is the worse one of the two.
-/

namespace PortableRuntime
namespace Experience

/-! ## The order of statuses -/

namespace ExperienceUseStatus

/-- How much a status refuses. -/
def rank : ExperienceUseStatus → Nat
  | allowed => 0
  | notApplicable => 1
  | unavailable => 2
  | stale => 3
  | blocked => 4

theorem rank_injective : Function.Injective rank := by
  intro a b h
  cases a <;> cases b <;> first | rfl | exact absurd h (by decide)

instance : LinearOrder ExperienceUseStatus := LinearOrder.lift' rank rank_injective

theorem allowed_le (status : ExperienceUseStatus) : allowed ≤ status := Nat.zero_le status.rank

theorem max_eq_allowed {a b : ExperienceUseStatus} :
    max a b = allowed ↔ a = allowed ∧ b = allowed := by
  constructor
  · intro h
    exact ⟨le_antisymm (h ▸ le_max_left a b) (allowed_le a),
      le_antisymm (h ▸ le_max_right a b) (allowed_le b)⟩
  · rintro ⟨rfl, rfl⟩
    exact max_self allowed

end ExperienceUseStatus

theorem le_decideStatus {statuses : List ExperienceUseStatus} {status : ExperienceUseStatus}
    (h : status ∈ statuses) : status ≤ decideStatus statuses := by
  have hmem : statuses.contains status = true := List.contains_iff_mem.mpr h
  -- a status that is there keeps the tests below its own from being reached
  cases status with
  | allowed => exact ExperienceUseStatus.allowed_le _
  | blocked => simp only [decideStatus, hmem, if_true, le_refl]
  | _ =>
    simp only [decideStatus, hmem, if_true]
    split_ifs <;> decide

theorem decideStatus_mem {statuses : List ExperienceUseStatus}
    (h : decideStatus statuses ≠ .allowed) : decideStatus statuses ∈ statuses := by
  unfold decideStatus at h ⊢
  split
  · next hblocked => exact List.contains_iff_mem.mp hblocked
  · split
    · next hstale => exact List.contains_iff_mem.mp hstale
    · split
      · next hunavailable => exact List.contains_iff_mem.mp hunavailable
      · split
        · next hnot => exact List.contains_iff_mem.mp hnot
        · next hblocked hstale hunavailable hnot =>
          rw [if_neg hblocked, if_neg hstale, if_neg hunavailable, if_neg hnot] at h
          exact absurd rfl h

/-- The status is the worst of what was found. -/
theorem decideStatus_le_iff {statuses : List ExperienceUseStatus} {bound : ExperienceUseStatus} :
    decideStatus statuses ≤ bound ↔ ∀ status ∈ statuses, status ≤ bound := by
  constructor
  · exact fun h status hstatus => (le_decideStatus hstatus).trans h
  · intro h
    by_cases hallowed : decideStatus statuses = .allowed
    · rw [hallowed]
      exact ExperienceUseStatus.allowed_le bound
    · exact h _ (decideStatus_mem hallowed)

/-- The status of what two parts found, in any order, is the worse of their statuses. -/
theorem decideStatus_of_mem_iff {statuses left right : List ExperienceUseStatus}
    (h : ∀ status, status ∈ statuses ↔ status ∈ left ∨ status ∈ right) :
    decideStatus statuses = max (decideStatus left) (decideStatus right) := by
  refine eq_of_forall_ge_iff (fun bound => ?_)
  rw [max_le_iff, decideStatus_le_iff, decideStatus_le_iff, decideStatus_le_iff]
  simp only [h, or_imp, forall_and]

/-! ## Two selections for one use -/

namespace ExperienceUseRequirement

/-- Two requirements that differ in the selected projections at most. -/
structure SameUse (a b : ExperienceUseRequirement) : Prop where
  useScope : a.useScope = b.useScope
  subjectVersionRefs : a.subjectVersionRefs = b.subjectVersionRefs
  environmentBindings : a.environmentBindings = b.environmentBindings
  useContext : a.useContext = b.useContext

/-- The requirement of both selections. -/
def union (a b : ExperienceUseRequirement) : ExperienceUseRequirement :=
  .create (a.projectionRefs ++ b.projectionRefs) a.useScope a.subjectVersionRefs
    a.environmentBindings a.useContext

theorem SameUse.union (a b : ExperienceUseRequirement) : a.SameUse (a.union b) :=
  ⟨rfl, a.versions_normal.symm, rfl, rfl⟩

theorem SameUse.symm {a b : ExperienceUseRequirement} (h : a.SameUse b) : b.SameUse a :=
  ⟨h.useScope.symm, h.subjectVersionRefs.symm, h.environmentBindings.symm, h.useContext.symm⟩

theorem SameUse.trans {a b c : ExperienceUseRequirement} (hab : a.SameUse b) (hbc : b.SameUse c) :
    a.SameUse c :=
  ⟨hab.useScope.trans hbc.useScope, hab.subjectVersionRefs.trans hbc.subjectVersionRefs,
    hab.environmentBindings.trans hbc.environmentBindings, hab.useContext.trans hbc.useContext⟩

theorem mem_union {a b : ExperienceUseRequirement} {ref : String} :
    ref ∈ (a.union b).projectionRefs ↔ ref ∈ a.projectionRefs ∨ ref ∈ b.projectionRefs := by
  have hnormal (c : ExperienceUseRequirement) : ref ∈ c.projectionRefs ↔
      ∃ raw ∈ c.projectionRefs, Text.nonBlank raw = true ∧ Text.strip raw = ref := by
    rw [← Text.mem_normalized]
    exact iff_of_eq (congrArg (ref ∈ ·) c.projections_normal.symm)
  rw [hnormal a, hnormal b]
  show ref ∈ Text.normalized (a.projectionRefs ++ b.projectionRefs) ↔ _
  rw [Text.mem_normalized]
  simp only [List.mem_append, or_and_right, exists_or]

end ExperienceUseRequirement

open ExperienceUseRequirement

section Evaluate

variable (sha256 : String → String) (modelValidate : Fields → Option KnowledgeProjection)
variable {state : State} {a b : ExperienceUseRequirement}

theorem negativeApplicability_congr (h : a.SameUse b) (fact : Fields) (relation : Option Fields) :
    negativeApplicability fact relation a = negativeApplicability fact relation b := by
  rw [negativeApplicability, negativeApplicability, environment, environment, h.useScope,
    h.subjectVersionRefs, h.environmentBindings]

theorem boundFinding_congr (h : a.SameUse b) : boundFinding a = boundFinding b := by
  funext ref fact bound
  simp only [boundFinding, negativeApplicability_congr h]

theorem examineProjection_congr (h : a.SameUse b) (ref : String)
    (projection : KnowledgeProjection) :
    examineProjection state a ref projection = examineProjection state b ref projection := by
  have hscope : scopeMatches projection a = scopeMatches projection b := by
    rw [scopeMatches, scopeMatches, h.useScope]
  have henvironment : environmentMatches projection a = environmentMatches projection b := by
    rw [environmentMatches, environmentMatches, environment, environment, h.environmentBindings]
  have hversions : subjectVersionsMatch projection a = subjectVersionsMatch projection b := by
    rw [subjectVersionsMatch, subjectVersionsMatch, h.subjectVersionRefs]
  have hnegative : classifyNegativeKnowledge projection a =
      classifyNegativeKnowledge projection b := by
    funext resolved relations
    have hfinding : negativeFinding projection a resolved relations =
        negativeFinding projection b resolved relations := by
      funext ref
      rw [negativeFinding, negativeFinding, boundFinding_congr h]
    rw [classifyNegativeKnowledge, classifyNegativeKnowledge, hfinding]
  rw [examineProjection, examineProjection, hscope, henvironment, hversions, hnegative]

/-- What a projection leads to does not depend on the selection it stands in. -/
theorem examine_congr (h : a.SameUse b) (ref : String) :
    examine modelValidate state a ref = examine modelValidate state b ref := by
  unfold examine
  cases findExact state ref [.knowledgeProjection] with
  | none => rfl
  | some found =>
    obtain ⟨kind, raw⟩ := found
    dsimp only
    cases modelValidate raw with
    | none => rfl
    | some projection => exact examineProjection_congr h ref projection

/-! ## The statuses of a selection -/

theorem statuses_foldl_add (found : List Evaluation) (e : Evaluation) :
    (found.foldl Evaluation.add e).statuses = e.statuses ++ found.flatMap Evaluation.statuses := by
  induction found generalizing e with
  | nil => exact (List.append_nil e.statuses).symm
  | cons one rest ih =>
    rw [List.foldl_cons, ih, List.flatMap_cons, ← List.append_assoc]
    rfl

theorem mem_statuses (hne : a.projectionRefs ≠ []) {e : Evaluation}
    (h : examineAll modelValidate state a = .ok e) (status : ExperienceUseStatus) :
    status ∈ e.statuses ↔ ∃ ref ∈ a.projectionRefs, ∃ found,
      examine modelValidate state a ref = .ok found ∧ status ∈ found.statuses := by
  obtain ⟨found, hfound, rfl⟩ := (examineAll_eq_ok modelValidate).mp h
  have hstart : (Evaluation.start a).statuses = [] := by
    rw [Evaluation.start, if_neg (by rwa [List.isEmpty_iff])]
  rw [statuses_foldl_add, hstart, List.nil_append, List.mem_flatMap]
  constructor
  · rintro ⟨one, hone, hstatus⟩
    obtain ⟨ref, href, hexamined⟩ := (Result.mem_of_mapM hfound one).mp hone
    exact ⟨ref, href, one, hexamined, hstatus⟩
  · rintro ⟨ref, href, one, hexamined, hstatus⟩
    exact ⟨one, (Result.mem_of_mapM hfound one).mpr ⟨ref, href, hexamined⟩, hstatus⟩

theorem exists_examineAll_iff : (∃ e, examineAll modelValidate state a = .ok e) ↔
    ∀ ref ∈ a.projectionRefs, ∃ found, examine modelValidate state a ref = .ok found := by
  constructor
  · rintro ⟨e, he⟩
    obtain ⟨found, hfound, -⟩ := (examineAll_eq_ok modelValidate).mp he
    exact Result.exists_of_mapM hfound
  · intro h
    obtain ⟨found, hfound⟩ := Result.exists_mapM h
    exact ⟨_, (examineAll_eq_ok modelValidate).mpr ⟨found, hfound, rfl⟩⟩

theorem exists_evaluate_iff : (∃ out, evaluate sha256 modelValidate state a = .ok out) ↔
    ∃ e, examineAll modelValidate state a = .ok e := by
  constructor
  · rintro ⟨out, hout⟩
    obtain ⟨e, he, -⟩ := Result.bind_eq_ok.mp hout
    exact ⟨e, he⟩
  · rintro ⟨e, he⟩
    exact ⟨_, Result.bind_eq_ok.mpr ⟨e, he, rfl⟩⟩

/-- The union of two selections is admitted as the worse of the two: it is read if and only if
both are, and it is allowed if and only if both are. -/
theorem evaluate_union (h : a.SameUse b) (ha : a.projectionRefs ≠ [])
    (hb : b.projectionRefs ≠ []) :
    ((∃ out, evaluate sha256 modelValidate state (a.union b) = .ok out) ↔
      (∃ out, evaluate sha256 modelValidate state a = .ok out) ∧
        ∃ out, evaluate sha256 modelValidate state b = .ok out) ∧
    ∀ outA outB out, evaluate sha256 modelValidate state a = .ok outA →
      evaluate sha256 modelValidate state b = .ok outB →
      evaluate sha256 modelValidate state (a.union b) = .ok out →
      out.status = max outA.status outB.status ∧
      (out.status = .allowed ↔ outA.status = .allowed ∧ outB.status = .allowed) := by
  have hexamineA : ∀ ref, examine modelValidate state a ref =
      examine modelValidate state (a.union b) ref := examine_congr modelValidate (SameUse.union a b)
  have hexamineB : ∀ ref, examine modelValidate state b ref =
      examine modelValidate state (a.union b) ref :=
    examine_congr modelValidate (h.symm.trans (.union a b))
  constructor
  · rw [exists_evaluate_iff, exists_evaluate_iff, exists_evaluate_iff, exists_examineAll_iff,
      exists_examineAll_iff, exists_examineAll_iff]
    simp only [mem_union, hexamineA, hexamineB, or_imp, forall_and]
  · intro outA outB out houtA houtB hout
    obtain ⟨eA, heA, houtA⟩ := Result.bind_eq_ok.mp houtA
    obtain ⟨eB, heB, houtB⟩ := Result.bind_eq_ok.mp houtB
    obtain ⟨e, he, hout⟩ := Result.bind_eq_ok.mp hout
    obtain rfl := Result.pure_eq_ok.mp houtA
    obtain rfl := Result.pure_eq_ok.mp houtB
    obtain rfl := Result.pure_eq_ok.mp hout
    have hne : (a.union b).projectionRefs ≠ [] := by
      obtain ⟨ref, href⟩ := List.exists_mem_of_ne_nil _ ha
      exact List.ne_nil_of_mem (mem_union.mpr (.inl href))
    have hstatus : decideStatus e.statuses =
        max (decideStatus eA.statuses) (decideStatus eB.statuses) := by
      refine decideStatus_of_mem_iff (fun status => ?_)
      rw [mem_statuses modelValidate hne he, mem_statuses modelValidate ha heA,
        mem_statuses modelValidate hb heB]
      simp only [mem_union, hexamineA, hexamineB, or_and_right, exists_or]
    refine ⟨hstatus, ?_⟩
    show decideStatus e.statuses = .allowed ↔ _
    rw [hstatus]
    exact ExperienceUseStatus.max_eq_allowed

/-- The selection of a projection and the selection of a missing one. -/
theorem evaluate_union_missing :
    let a : ExperienceUseRequirement := .create ["proj_1"] [] [] [] []
    let b : ExperienceUseRequirement := .create ["proj_2"] [] [] [] []
    let projection : KnowledgeProjection :=
      { id := "proj_1", lifecycleStatus := .official, createdAt := 0, updatedAt := 0 }
    let state : State := fun
      | .knowledgeProjection => [projection]
      | _ => []
    let run := evaluate id (fun _ => some projection) state
    ((∃ out, run (a.union b) = .ok out) ↔ (∃ out, run a = .ok out) ∧ ∃ out, run b = .ok out) ∧
    ∀ outA outB out, run a = .ok outA → run b = .ok outB → run (a.union b) = .ok out →
      out.status = max outA.status outB.status ∧
      (out.status = .allowed ↔ outA.status = .allowed ∧ outB.status = .allowed) :=
  evaluate_union id _ ⟨rfl, rfl, rfl, rfl⟩ (by decide) (by decide)

end Evaluate
end Experience
end PortableRuntime
