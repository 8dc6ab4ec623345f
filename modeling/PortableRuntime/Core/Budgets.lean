import PortableRuntime.Core.Reliability

/-!
# Executions on one set of reliability controls

An execution is assessed before it waits for health checks and routing, and recorded after
them.  Whether the budgets hold is decided where it is recorded: what the assessment found
room for may be taken by then.
-/

namespace PortableRuntime

open ReliabilityControls

/-- What an execution does between two awaits, or within one segment around other code. -/
inductive BudgetMove (ε : Type) where
  | assess (execution : ε) (now : Time) (input : ReliabilityStageInput)
  | record (execution : ε) (now : Time)
  | complete (execution : ε)

/-- An execution is assessed or recorded. -/
def BudgetMove.gates {ε : Type} [DecidableEq ε] (m : BudgetMove ε) (e : ε) : Bool :=
  match m with
  | .assess execution _ _ => execution = e
  | .record execution _ => execution = e
  | .complete _ => false

/-- The controls, the executions that were allowed and wait for routing, and those whose
slot is taken. -/
structure Executions (ε : Type) where
  controls : ReliabilityControls
  admitted : ε → Option ReliabilityStageInput := fun _ => none
  started : ε → Option ReliabilityStageInput := fun _ => none

namespace Executions

variable {ε : Type} [DecidableEq ε]

def start (limits : ReliabilityLimits) (cooldown : Time) : Executions ε :=
  { controls := { limits, cooldown } }

def step (s : Executions ε) : BudgetMove ε → Executions ε
  | .assess e now input =>
    let (disposition, controls) := s.controls.assess now input
    { s with
      controls
      admitted := Function.update s.admitted e (if disposition.1 then some input else none) }
  | .record e now => match s.admitted e with
    | none => s
    | some input =>
      { controls := s.controls.recordAction now input
        admitted := Function.update s.admitted e none
        started := Function.update s.started e (some input) }
  | .complete e => match s.started e with
    | none => s
    | some input =>
      { s with
        controls := s.controls.completeAction input.sideEffect
        started := Function.update s.started e none }

/-- An execution that waits with a side effect records it. -/
def RecordsSideEffect (s : Executions ε) : BudgetMove ε → Prop
  | .record e _ => ∃ input, s.admitted e = some input ∧ input.sideEffect = true
  | _ => False

/-- An execution records a side effect only while the budgets still have room for it. -/
def RecordsWithRoom (s : Executions ε) : BudgetMove ε → Prop
  | .record e _ => ∀ input, s.admitted e = some input → input.sideEffect = true →
    s.controls.RoomFor input
  | _ => True

theorem withinBudgets_step_iff (s : Executions ε) (m : BudgetMove ε)
    (h : s.controls.WithinBudgets) :
    (s.step m).controls.WithinBudgets ↔ s.RecordsWithRoom m := by
  cases m with
  | assess e now input => exact iff_of_true (withinBudgets_assess.mpr h) trivial
  | record e now =>
    rw [step, RecordsWithRoom]
    cases hadmitted : s.admitted e with
    | none => exact iff_of_true h (by simp)
    | some input =>
      dsimp only
      cases hside : input.sideEffect with
      | false =>
        refine iff_of_true ((withinBudgets_recordAction_pure hside).mpr h) ?_
        intro input' heq hside'
        obtain rfl := Option.some.inj heq
        exact absurd (hside.symm.trans hside') (by simp)
      | true =>
        rw [withinBudgets_recordAction_iff hside]
        constructor
        · intro hroom input' heq _
          exact Option.some.inj heq ▸ hroom
        · intro hroom
          exact hroom input rfl hside
  | complete e =>
    rw [step]
    cases s.started e with
    | none => exact iff_of_true h trivial
    | some input => exact iff_of_true (withinBudgets_completeAction h) trivial

/-- On fresh controls with positive limits, the budgets hold at every moment of an
interleaving exactly when each side effect is recorded with room for it. -/
theorem budgets_hold_iff {limits : ReliabilityLimits} {cooldown : Time}
    (hparallel : 0 < limits.maxParallelSideEffects) (hcount : 0 < limits.sideEffectBudget)
    (hexposure : 0 < limits.exposureBudget) {moves : List (BudgetMove ε)} :
    (∀ pre, pre <+: moves → (run step (start limits cooldown) pre).controls.WithinBudgets) ↔
      Along step RecordsWithRoom (start limits cooldown) moves := by
  have hstart : (start limits cooldown : Executions ε).controls.WithinBudgets :=
    ⟨hparallel.le, hcount.le, hexposure.le⟩
  refine (always_iff_along (I := fun s : Executions ε => s.controls.WithinBudgets)
    withinBudgets_step_iff).trans ?_
  exact ⟨fun h => h.2, fun h => ⟨hstart, h⟩⟩

/-! ## What an assessment has found -/

/-- No other side effect is recorded between the assessment that allows a side effect and the
record of it. -/
def InTurn (s : Executions ε) (moves : List (BudgetMove ε)) : Prop :=
  ∀ before e now input between now' after,
    moves = before ++ .assess e now input :: (between ++ .record e now' :: after) →
    (∀ m ∈ between, m.gates e = false) → input.sideEffect = true →
    ((run step s before).controls.assess now input).1.1 = true →
    Along step (fun t m => ¬ t.RecordsSideEffect m)
      (run step s (before ++ [.assess e now input])) between

variable {s : Executions ε} {e : ε} {m : BudgetMove ε} {input : ReliabilityStageInput}

theorem admitted_step_of_other (h : m.gates e = false) :
    (s.step m).admitted e = s.admitted e := by
  cases m with
  | assess other now input =>
    exact Function.update_of_ne (Ne.symm (of_decide_eq_false h)) _ _
  | record other now =>
    rw [step]
    cases s.admitted other with
    | none => rfl
    | some input => exact Function.update_of_ne (Ne.symm (of_decide_eq_false h)) _ _
  | complete other =>
    rw [step]
    cases s.started other <;> rfl

theorem admitted_run_of_other {moves : List (BudgetMove ε)} (h : ∀ m ∈ moves, m.gates e = false) :
    (run step s moves).admitted e = s.admitted e := by
  induction moves generalizing s with
  | nil => rfl
  | cons m rest ih =>
    rw [run_cons, ih (fun m' hm' => h m' (List.mem_cons_of_mem m hm')),
      admitted_step_of_other (h m List.mem_cons_self)]

theorem admitted_assess (now : Time) : (s.step (.assess e now input)).admitted e =
    if (s.controls.assess now input).1.1 then some input else none :=
  Function.update_self e _ _

theorem admitted_record (now : Time) : (s.step (.record e now)).admitted e = none := by
  rw [step]
  cases hadmitted : s.admitted e with
  | none => exact hadmitted
  | some input => exact Function.update_self e _ _

/-- A waiting execution has been assessed and allowed, and has not been at the gate since. -/
theorem assessed_of_admitted (hs : s.admitted e = none) {moves : List (BudgetMove ε)}
    (h : (run step s moves).admitted e = some input) :
    ∃ before now between, moves = before ++ .assess e now input :: between ∧
      ((run step s before).controls.assess now input).1.1 = true ∧
      ∀ m ∈ between, m.gates e = false := by
  induction moves using List.reverseRecOn with
  | nil => exact absurd (hs.symm.trans h) (by simp)
  | append_singleton moves m ih =>
    rw [run_append, run_cons, run_nil] at h
    cases hgates : m.gates e with
    | false =>
      rw [admitted_step_of_other hgates] at h
      obtain ⟨before, now, between, rfl, hallowed, hbetween⟩ := ih h
      refine ⟨before, now, between ++ [m], by simp, hallowed, fun m' hm' => ?_⟩
      rcases List.mem_append.mp hm' with hm' | hm'
      · exact hbetween m' hm'
      · rw [List.mem_singleton.mp hm', hgates]
    | true =>
      cases m with
      | assess other now input' =>
        obtain rfl : other = e := of_decide_eq_true hgates
        rw [admitted_assess] at h
        by_cases hallowed : ((run step s moves).controls.assess now input').1.1 = true
        · rw [if_pos hallowed] at h
          obtain rfl := Option.some.inj h
          exact ⟨moves, now, [], rfl, hallowed, fun m hm => (nomatch hm)⟩
        · rw [if_neg hallowed] at h
          cases h
      | record other now =>
        obtain rfl : other = e := of_decide_eq_true hgates
        rw [admitted_record] at h
        cases h
      | complete other => cases hgates

/-- Room is taken by recorded side effects alone. -/
theorem roomFor_step (hroom : s.controls.RoomFor input) (hrecords : ¬ s.RecordsSideEffect m) :
    (s.step m).controls.RoomFor input := by
  cases m with
  | assess other now input' => exact roomFor_assess.mpr hroom
  | record other now =>
    rw [step]
    cases hadmitted : s.admitted other with
    | none => exact hroom
    | some input' =>
      have hpure : input'.sideEffect = false := by
        by_contra hside
        exact hrecords ⟨input', hadmitted, Bool.not_eq_false _ ▸ hside⟩
      exact (roomFor_recordAction_pure hpure).mpr hroom
  | complete other =>
    rw [step]
    cases s.started other with
    | none => exact hroom
    | some input' => exact roomFor_completeAction hroom

theorem recordsWithRoom_of_inTurn (hs : ∀ e, s.admitted e = none) {moves : List (BudgetMove ε)}
    (h : s.InTurn moves) : Along step RecordsWithRoom s moves := by
  refine along_iff_forall_step.mpr (fun pre m hpre => ?_)
  cases m with
  | assess other now input => trivial
  | complete other => trivial
  | record e now' =>
    intro input hadmitted hside
    obtain ⟨before, now, between, rfl, hallowed, hbetween⟩ := assessed_of_admitted (hs e) hadmitted
    obtain ⟨after, hmoves⟩ := hpre
    have hroom : (run step s (before ++ [.assess e now input])).controls.RoomFor input := by
      rw [run_append]
      exact roomFor_assess.mpr (roomFor_of_assess hallowed)
    have hquiet := h before e now input between now' after (by simp [← hmoves]) hbetween hside
      hallowed
    have hkept := run_invariant (I := fun t : Executions ε => t.controls.RoomFor input)
      (fun t m ht hm => roomFor_step ht hm) hroom hquiet
    rwa [← run_append, List.append_assoc] at hkept

/-! ## What another side effect takes -/

theorem exists_first_of_not_along {σ ω : Type} {step : σ → ω → σ} {C : σ → ω → Prop} {s : σ}
    {ops : List ω} (h : ¬ Along step C s ops) :
    ∃ pre op rest, ops = pre ++ op :: rest ∧ Along step C s pre ∧ ¬ C (run step s pre) op := by
  induction ops generalizing s with
  | nil => exact absurd trivial h
  | cons first ops ih =>
    by_cases hfirst : C s first
    · obtain ⟨pre, op, rest, rfl, hpre, hop⟩ := ih (fun hops => h ⟨hfirst, hops⟩)
      exact ⟨first :: pre, op, rest, rfl, ⟨hfirst, hpre⟩, hop⟩
    · exact ⟨[], first, ops, rfl, trivial, hfirst⟩

/-- The same executions on controls with another budget of side effects. -/
def withSideEffectBudget (s : Executions ε) (budget : Int) : Executions ε :=
  { s with controls := { s.controls with
      limits := { s.controls.limits with sideEffectBudget := budget } } }

theorem sideEffectCount_step :
    s.controls.sideEffectCount ≤ (s.step m).controls.sideEffectCount ∧
      (¬ s.RecordsSideEffect m →
        (s.step m).controls.sideEffectCount = s.controls.sideEffectCount) ∧
      (s.RecordsSideEffect m →
        (s.step m).controls.sideEffectCount = s.controls.sideEffectCount + 1) := by
  cases m with
  | assess other now input => exact ⟨le_refl _, fun _ => rfl, fun h => h.elim⟩
  | record other now =>
    rw [step, RecordsSideEffect]
    cases s.admitted other with
    | none =>
      refine ⟨le_refl _, fun _ => rfl, fun h => ?_⟩
      obtain ⟨input', heq, -⟩ := h
      cases heq
    | some input =>
      dsimp only
      rw [recordAction]
      cases hside : input.sideEffect with
      | false =>
        refine ⟨le_refl _, fun _ => rfl, fun h => ?_⟩
        obtain ⟨input', heq, hside'⟩ := h
        obtain rfl := Option.some.inj heq
        exact absurd (hside.symm.trans hside') (by simp)
      | true =>
        have hless : s.controls.sideEffectCount ≤ s.controls.sideEffectCount + 1 := by omega
        exact ⟨hless, fun h => absurd ⟨input, rfl, hside⟩ h, fun _ => rfl⟩
  | complete other =>
    rw [step]
    cases s.started other with
    | none => exact ⟨le_refl _, fun _ => rfl, fun h => h.elim⟩
    | some input =>
      dsimp only
      rw [completeAction]
      split_ifs <;> exact ⟨le_refl _, fun _ => rfl, fun h => h.elim⟩

theorem sideEffectCount_run (moves : List (BudgetMove ε)) :
    s.controls.sideEffectCount ≤ (run step s moves).controls.sideEffectCount :=
  run_preserves (I := fun t : Executions ε =>
      s.controls.sideEffectCount ≤ t.controls.sideEffectCount)
    (fun _ _ ht => ht.trans sideEffectCount_step.1) (le_refl _)

theorem sideEffectCount_run_of_quiet {moves : List (BudgetMove ε)}
    (h : Along step (fun t m => ¬ t.RecordsSideEffect m) s moves) :
    (run step s moves).controls.sideEffectCount = s.controls.sideEffectCount :=
  run_invariant (I := fun t : Executions ε =>
      t.controls.sideEffectCount = s.controls.sideEffectCount)
    (fun _ _ ht hm => (sideEffectCount_step.2.1 hm).trans ht) rfl h

theorem limits_step : (s.step m).controls.limits = s.controls.limits := by
  cases m with
  | assess other now input => rfl
  | record other now =>
    rw [step]
    cases s.admitted other with
    | none => rfl
    | some input =>
      dsimp only
      rw [recordAction]
      split_ifs <;> rfl
  | complete other =>
    rw [step]
    cases s.started other with
    | none => rfl
    | some input =>
      dsimp only
      rw [completeAction]
      split_ifs <;> rfl

theorem limits_run (moves : List (BudgetMove ε)) :
    (run step s moves).controls.limits = s.controls.limits :=
  run_preserves (I := fun t : Executions ε => t.controls.limits = s.controls.limits)
    (fun _ _ ht => limits_step.trans ht) rfl

/-- A budget that is not used up has no part in an assessment. -/
theorem decide_sideEffectBudget {limits : ReliabilityLimits} {budget : Int}
    {obs : ReliabilityObservation} (hbudget : obs.sideEffectCount < budget)
    (hlimit : obs.sideEffectCount < limits.sideEffectBudget) :
    { limits with sideEffectBudget := budget }.decide obs input = limits.decide obs input := by
  have hreason : limitReason obs { limits with sideEffectBudget := budget } =
      limitReason obs limits := by
    unfold limitReason
    rw [if_neg (not_le.mpr hlimit)]
    dsimp only
    rw [if_neg (not_le.mpr hbudget)]
  rw [ReliabilityLimits.decide, ReliabilityLimits.decide, hreason]
  rfl

theorem step_withSideEffectBudget {budget : Int} (hbudget : s.controls.sideEffectCount < budget)
    (hlimit : s.controls.sideEffectCount < s.controls.limits.sideEffectBudget) :
    (s.withSideEffectBudget budget).step m = (s.step m).withSideEffectBudget budget := by
  cases m with
  | assess other now input =>
    have hassess : (s.withSideEffectBudget budget).controls.assess now input =
        ((s.controls.assess now input).1,
          ((s.step (.assess other now input)).withSideEffectBudget budget).controls) := by
      have hdecide : { s.controls.limits with sideEffectBudget := budget }.decide
          (s.controls.observe now input) input =
            s.controls.limits.decide (s.controls.observe now input) input :=
        decide_sideEffectBudget hbudget hlimit
      unfold assess
      exact Prod.ext hdecide (by
        simp only [withSideEffectBudget, step, assess]
        rw [← hdecide]
        rfl)
    rw [step, hassess]
    rfl
  | record other now =>
    rw [step, step, withSideEffectBudget]
    cases s.admitted other with
    | none => rfl
    | some input =>
      dsimp only
      rw [recordAction, recordAction]
      split_ifs <;> rfl
  | complete other =>
    rw [step, step, withSideEffectBudget]
    cases s.started other with
    | none => rfl
    | some input =>
      dsimp only
      rw [completeAction, completeAction]
      split_ifs <;> rfl

theorem run_withSideEffectBudget {budget : Int} {moves : List (BudgetMove ε)}
    (hbudget : (run step s moves).controls.sideEffectCount < budget)
    (hlimit : (run step s moves).controls.sideEffectCount < s.controls.limits.sideEffectBudget) :
    run step (s.withSideEffectBudget budget) moves =
      (run step s moves).withSideEffectBudget budget := by
  induction moves generalizing s with
  | nil => rfl
  | cons m rest ih =>
    have hless := sideEffectCount_run (s := s) (m :: rest)
    have hstep : (s.withSideEffectBudget budget).step m =
        (s.step m).withSideEffectBudget budget :=
      step_withSideEffectBudget (by omega) (by omega)
    rw [run_cons, hstep, ih hbudget (by rw [limits_step]; exact hlimit)]
    rfl

/-- Two side effects, recorded one after the other. -/
theorem sideEffectCount_of_two {rest : List (BudgetMove ε)} {last : BudgetMove ε}
    (hfirst : s.RecordsSideEffect m) (hlast : (run step s (m :: rest)).RecordsSideEffect last) :
    s.controls.sideEffectCount + 1 <
      (run step s (m :: rest ++ [last])).controls.sideEffectCount := by
  have hone := sideEffectCount_step.2.2 hfirst
  have hless := sideEffectCount_run (s := s.step m) rest
  rw [run_append, run_cons, run_nil, sideEffectCount_step.2.2 hlast, run_cons]
  omega

/-- Where an allowed execution is overtaken, the budget that both have just found room in is
exceeded by the second. -/
theorem exceeds_of_overtaken {limits : ReliabilityLimits} {cooldown : Time}
    {moves : List (BudgetMove ε)} (h : ¬ (start limits cooldown).InTurn moves) :
    ∃ budget, 0 < budget ∧ budget ≤ limits.sideEffectBudget ∧ ∃ pre, pre <+: moves ∧
      ¬ (run step (start { limits with sideEffectBudget := budget } cooldown)
        pre).controls.WithinBudgets := by
  unfold InTurn at h
  push Not at h
  obtain ⟨before, e, now, input, between, now', after, rfl, hbetween, hside, hallowed, hovertaken⟩ :=
    h
  obtain ⟨quiet, m, rest, rfl, hquiet, hrecords⟩ := exists_first_of_not_along hovertaken
  rw [not_not, ← run_append] at hrecords
  have hroom := roomFor_of_assess hallowed
  obtain ⟨seen, hseen⟩ : ∃ seen, seen = before ++ [.assess e now input] ++ quiet := ⟨_, rfl⟩
  have hadmitted : (run step (start limits cooldown) seen).admitted e = some input := by
    rw [hseen, run_append, admitted_run_of_other (fun m' hm' =>
      hbetween m' (List.mem_append_left _ hm')), run_append, run_cons, run_nil, admitted_assess,
      if_pos hallowed]
  have hcount : (run step (start limits cooldown) seen).controls.sideEffectCount =
      (run step (start limits cooldown) before).controls.sideEffectCount := by
    rw [hseen, run_append, sideEffectCount_run_of_quiet hquiet, run_append]
    rfl
  have hlimit : (run step (start limits cooldown) before).controls.sideEffectCount <
      limits.sideEffectBudget := by
    have hless := hroom.count
    rwa [limits_run] at hless
  -- up to the other record, the run with the tight budget is the same run
  obtain ⟨count, hbefore⟩ : ∃ count, count =
    (run step (start limits cooldown) before).controls.sideEffectCount := ⟨_, rfl⟩
  have hstart : 0 ≤ count := hbefore ▸ sideEffectCount_run (s := start limits cooldown) before
  have hsame : run step (start { limits with sideEffectBudget := count + 1 } cooldown) seen =
      (run step (start limits cooldown) seen).withSideEffectBudget (count + 1) :=
    run_withSideEffectBudget (s := start limits cooldown) (by omega) (by rw [hcount]; exact hlimit)
  obtain ⟨tight, htight⟩ : ∃ tight, tight =
    (run step (start limits cooldown) seen).withSideEffectBudget (count + 1) := ⟨_, rfl⟩
  have hrecorded : tight.RecordsSideEffect m := htight ▸ hseen ▸ hrecords
  have hwaits : (run step tight (m :: rest)).admitted e = some input := by
    rw [admitted_run_of_other (fun m' hm' => hbetween m' (List.mem_append_right _ hm')), htight]
    exact hadmitted
  have hsecond : tight.controls.sideEffectCount + 1 <
      (run step tight (m :: rest ++ [.record e now'])).controls.sideEffectCount :=
    sideEffectCount_of_two hrecorded ⟨input, hwaits, hside⟩
  have htwo : tight.controls.sideEffectCount = count := by
    rw [htight, hbefore, ← hcount]
    rfl
  rw [htwo] at hsecond
  refine ⟨count + 1, by omega, by omega, seen ++ (m :: rest ++ [.record e now']),
    ⟨after, by simp [hseen]⟩, fun hwithin => ?_⟩
  have hexceeded := hwithin.count
  rw [limits_run, run_append, hsame, ← htight] at hexceeded
  exact absurd hexceeded (not_le.mpr hsecond)

/-- For every interleaving of executions on fresh controls with positive limits: the budgets
hold at every moment if no execution records a side effect between the assessment that allows
another and the record of that one.  Where one does, the same interleaving exceeds a smaller
budget. -/
theorem budgets_hold_of_inTurn (limits : ReliabilityLimits) (cooldown : Time)
    (hparallel : 0 < limits.maxParallelSideEffects) (hcount : 0 < limits.sideEffectBudget)
    (hexposure : 0 < limits.exposureBudget) (moves : List (BudgetMove ε)) :
    ((start limits cooldown).InTurn moves → ∀ pre, pre <+: moves →
      (run step (start limits cooldown) pre).controls.WithinBudgets) ∧
    (¬ (start limits cooldown).InTurn moves →
      ∃ budget, 0 < budget ∧ budget ≤ limits.sideEffectBudget ∧ ∃ pre, pre <+: moves ∧
        ¬ (run step (start { limits with sideEffectBudget := budget } cooldown)
          pre).controls.WithinBudgets) :=
  ⟨fun h => (budgets_hold_iff hparallel hcount hexposure).mpr
      (recordsWithRoom_of_inTurn (fun _ => rfl) h),
    exceeds_of_overtaken⟩

/-! ## One slot -/

def oneSlot : ReliabilityLimits := { maxParallelSideEffects := 1 }

def sideEffect : ReliabilityStageInput := { sideEffect := true }

/-- One after the other. -/
def inTurn : List (BudgetMove String) :=
  [.assess "request_1" 0 sideEffect, .record "request_1" 1, .complete "request_1",
   .assess "request_2" 10000000 sideEffect, .record "request_2" 10000001]

/-- Both are assessed before either is recorded. -/
def atOnce : List (BudgetMove String) :=
  [.assess "request_1" 0 sideEffect, .assess "request_2" 0 sideEffect,
   .record "request_1" 1, .record "request_2" 1]

theorem inTurn_inTurn : (start oneSlot 5000000).InTurn inTurn := by
  intro before e now input between now' after hmoves hbetween _ _
  -- a record that is not the next move comes after another move of its own execution
  cases between with
  | nil => trivial
  | cons m between =>
    simp only [inTurn, List.cons_eq_append_iff, List.nil_eq_append_iff] at hmoves
    simp_all [BudgetMove.gates]

theorem budgets_hold_inTurn :
    0 < oneSlot.maxParallelSideEffects ∧
    ∀ pre, pre <+: inTurn → (run step (start oneSlot 5000000) pre).controls.WithinBudgets :=
  ⟨by decide, (budgets_hold_of_inTurn oneSlot 5000000 (by decide) (by decide) (by decide)
    inTurn).1 inTurn_inTurn⟩

/-- Two executions share the only slot. -/
theorem atOnce_exceeds :
    ¬ ∀ (limits : ReliabilityLimits) (cooldown : Time) (moves : List (BudgetMove String)),
      0 < limits.maxParallelSideEffects → 0 < limits.sideEffectBudget →
      0 < limits.exposureBudget → ∀ pre, pre <+: moves →
      (run step (start limits cooldown) pre).controls.WithinBudgets := by
  intro h
  have hwithin := h oneSlot 5000000 atOnce (by decide) (by decide) (by decide) atOnce
    (List.prefix_refl _)
  exact absurd hwithin (by decide)

end Executions
end PortableRuntime
