import Mathlib.Data.List.MinMax
import PortableRuntime.Core.Dispatch
import PortableRuntime.Library.Run

/-!
# The numbers of a Step's attempts

The precommit numbers the attempts of a side effect after the largest number of the Step,
and a Step's `current_attempt` is that number.  A pure request is recorded on its way to the
same Step, always as attempt 1.
-/

namespace PortableRuntime

/-- A store that lists the attempts it holds.  Without `transaction` the writes of a stage
stay where the stage fails. -/
structure AttemptStore (σ : Type) extends ExecutionStore σ where
  transactional : Bool
  mem_attempts : ∀ st (a : StepAttempt), a ∈ attempts st ↔ ∃ id, get st .attempt id = some a

/-- One call of the precommit stage, and which of its writes the store refuses. -/
structure PrecommitCall (σ : Type) where
  now : Time
  request : CapabilityRequest
  p : ExecutionStore.Precommit
  gate : Time → σ → (k : Kind) → Model k → Result Unit

namespace ExecutionStore

variable {σ : Type} (ops : ExecutionStore σ)

/-! ## The writes of the stage -/

/-- The Step of a side effect, as it is first saved. -/
def sideEffectStep (now : Time) (st : σ) (request : CapabilityRequest) (runId : String)
    (p : Precommit) : Step :=
  match ops.findStep st runId (stepKey request) with
  | none => newStep now request runId p
  | some step =>
    { step with
      status := .running
      updatedAt := now
      inputDigest := some p.permitDigest
      effectSemantics := p.effectSemantics
      sideEffectClass := p.sideEffectClass
      leaseGeneration := request.leaseGeneration
      version := step.version + 1 }

def nextAttemptNo (st : σ) (stepId : String) : Int :=
  (((ops.listAttempts st stepId).map StepAttempt.attemptNo).max?).getD 0 + 1

def sideEffectAttempt (now : Time) (st : σ) (request : CapabilityRequest) (runId : String)
    (p : Precommit) : StepAttempt :=
  let stepId := (ops.sideEffectStep now st request runId p).id
  newAttempt now request p stepId (ops.nextAttemptNo st stepId)
    [("action_ref", .str p.freshAction)]

def sideEffectAction (now : Time) (request : CapabilityRequest) (workId runId : String)
    (p : Precommit) : Action :=
  { id := p.freshAction, createdAt := now, workId, runId, capability := request.capability,
    providerId := p.providerId, requestRef := request.id, status := "running" }

/-- The Step of a pure request, as it is saved. -/
def pureStep (now : Time) (st : σ) (request : CapabilityRequest) (runId : String)
    (p : Precommit) : Step :=
  match ops.findStep st runId (stepKey request) with
  | none => newStep now request runId p
  | some step => { step with status := .running, updatedAt := now, inputDigest := some p.permitDigest }

/-- The writes of a side effect one after the other, up to the first that fails. -/
def writeRecords (now : Time) (st : σ) (step : Step) (attempt : StepAttempt) (action : Action) :
    ExecutionRecordIds × σ :=
  match ops.saveStep now st step with
  | .error _ => ({}, st)
  | .ok st₁ => match ops.saveStep now st₁ { step with currentAttempt := attempt.attemptNo } with
    | .error _ => ({}, st₁)
    | .ok st₂ => match ops.saveAttempt now st₂ attempt with
      | .error _ => ({}, st₂)
      | .ok st₃ => match ops.saveAction now st₃ action with
        | .error _ => ({}, st₃)
        | .ok st₄ => (⟨some step.id, some attempt.id, some action.id⟩, st₄)

/-- The side-effect branch on a store without transactions. -/
def precommitDirectly (now : Time) (st : σ) (request : CapabilityRequest) (p : Precommit) :
    ExecutionRecordIds × σ :=
  match given request.workId, given request.runId with
  | some workId, some runId =>
    ops.writeRecords now st (ops.sideEffectStep now st request runId p)
      (ops.sideEffectAttempt now st request runId p)
      (sideEffectAction now request workId runId p)
  | _, _ => ({}, st)

/-- The attempt that recovery takes for the latest. -/
def lastAttempt (st : σ) (stepId : String) : Option StepAttempt :=
  -- The order is named because its instance as a complete lattice does not compute.
  @List.argmax _ _ Int.instLinearOrder.toPreorder _ StepAttempt.attemptNo
    (ops.listAttempts st stepId)

end ExecutionStore

namespace AttemptStore

open ExecutionStore

variable {σ : Type} (s : AttemptStore σ)

/-- The store while a call runs. -/
def during (gate : Time → σ → (k : Kind) → Model k → Result Unit) : ExecutionStore σ :=
  { s.toExecutionStore with gate }

/-- The identifiers of the decision, none where it is an error, and the store after the
call. -/
def precommit (st : σ) (c : PrecommitCall σ) : ExecutionRecordIds × σ :=
  if c.p.sideEffect && !s.transactional then
    (s.during c.gate).precommitDirectly c.now st c.request c.p
  else
    match (s.during c.gate).precommitExecutionRecords c.now st c.request c.p with
    | .ok decided => decided
    | .error _ => ({}, st)

def afterPrecommit (st : σ) (c : PrecommitCall σ) : σ := (s.precommit st c).2

/-! ## Numbering -/

/-- The attempts of every Step have distinct numbers. -/
def Distinct (st : σ) : Prop :=
  ∀ id id' a a', s.getAttempt st id = some a → s.getAttempt st id' = some a' →
    a.stepId = a'.stepId → a.attemptNo = a'.attemptNo → id = id'

/-- The Step says which attempt is its last, and that attempt has the largest number. -/
structure Current (st : σ) (stepId attemptId : String) : Prop where
  step : ∃ step a, s.getStep st stepId = some step ∧ s.getAttempt st attemptId = some a ∧
    a.stepId = stepId ∧ step.currentAttempt = a.attemptNo
  largest : ∀ id a step, s.getStep st stepId = some step → s.getAttempt st id = some a →
    a.stepId = stepId → a.attemptNo ≤ step.currentAttempt
  last : s.lastAttempt st stepId = s.getAttempt st attemptId

/-- What a call does to the numbers: they stay distinct, a new attempt has a larger one than
the earlier attempts of its Step, and after a successful call the Step's current attempt is
the new one. -/
structure WellNumbered (st : σ) (c : PrecommitCall σ) : Prop where
  distinct : s.Distinct (s.afterPrecommit st c)
  later : ∀ id a id' a', s.getAttempt st id = none →
    s.getAttempt (s.afterPrecommit st c) id = some a → s.getAttempt st id' = some a' →
      a'.stepId = a.stepId → a'.attemptNo < a.attemptNo
  current : ∀ sid aid, (s.precommit st c).1.stepId = some sid →
    (s.precommit st c).1.attemptId = some aid → s.Current (s.afterPrecommit st c) sid aid

/-- The attempt of a call has a fresh identifier. -/
def Fresh (st : σ) (c : PrecommitCall σ) : Prop := s.getAttempt st c.p.freshAttempt = none

instance (st : σ) (c : PrecommitCall σ) : Decidable (s.Fresh st c) :=
  decidable_of_iff ((s.getAttempt st c.p.freshAttempt).isNone = true) Option.isNone_iff_eq_none

/-- A pure request that is recorded finds its Step at attempt 1, without an attempt that is
numbered so. -/
def Aligned (st : σ) (c : PrecommitCall σ) : Prop :=
  c.p.sideEffect = true ∨ ∀ workId runId st₁ st₂, given c.request.workId = some workId →
    given c.request.runId = some runId →
    (s.during c.gate).saveStep c.now st (s.pureStep c.now st c.request runId c.p) = .ok st₁ →
    (s.during c.gate).saveAttempt c.now st₁
      (newAttempt c.now c.request c.p (s.pureStep c.now st c.request runId c.p).id 1 []) = .ok st₂ →
    (s.pureStep c.now st c.request runId c.p).currentAttempt = 1 ∧
      ∀ a ∈ s.listAttempts st (s.pureStep c.now st c.request runId c.p).id, a.attemptNo < 1

end AttemptStore

/-! ## What one call writes -/

namespace ExecutionStore

variable {σ : Type} {ops : ExecutionStore σ} {now : Time} {st st' : σ}

theorem getAttempt_saveStep {v : Step} (h : ops.saveStep now st v = .ok st') (id : String) :
    ops.getAttempt st' id = ops.getAttempt st id := by
  obtain ⟨-, rfl⟩ := saveChecked_eq_ok.mp h
  exact ops.get_save_of_ne st .step .attempt v id (by decide)

theorem getAttempt_saveAttempt_eq {v : StepAttempt} (h : ops.saveAttempt now st v = .ok st')
    (id : String) :
    ops.getAttempt st' id = if id = v.id then some v else ops.getAttempt st id := by
  obtain ⟨-, rfl⟩ := saveChecked_eq_ok.mp h
  exact ops.get_save_self st .attempt v id

/-- The attempt is added, whatever stands under the other identifiers. -/
def Adds (ops : ExecutionStore σ) (st st' : σ) (attempt : StepAttempt) : Prop :=
  ∀ id, ops.getAttempt st' id = if id = attempt.id then some attempt else ops.getAttempt st id

/-- What a call leaves of its records: no attempt, an attempt without a decision, or the
Step and the attempt that the decision names. -/
inductive Recorded (ops : ExecutionStore σ) (st : σ) (attempt : StepAttempt) (current : Int) :
    ExecutionRecordIds × σ → Prop where
  | nothing {st' : σ} (h : ∀ id, ops.getAttempt st' id = ops.getAttempt st id) :
      Recorded ops st attempt current ({}, st')
  | undecided {st' : σ} (h : ops.Adds st st' attempt) : Recorded ops st attempt current ({}, st')
  | decided {st' : σ} {action : Option String} (step : Step) (h : ops.Adds st st' attempt)
      (hid : attempt.stepId = step.id) (hstep : ops.getStep st' step.id = some step)
      (hcurrent : step.currentAttempt = current) :
      Recorded ops st attempt current (⟨some step.id, some attempt.id, action⟩, st')

theorem recorded_writeRecords (ops : ExecutionStore σ) (now : Time) (st : σ) {step : Step}
    {attempt : StepAttempt} (action : Action) (hid : attempt.stepId = step.id) :
    Recorded ops st attempt attempt.attemptNo (ops.writeRecords now st step attempt action) := by
  unfold writeRecords
  cases h₁ : ops.saveStep now st step with
  | error _ => exact .nothing (fun _ => rfl)
  | ok st₁ =>
    dsimp only
    cases h₂ : ops.saveStep now st₁ { step with currentAttempt := attempt.attemptNo } with
    | error _ => exact .nothing (getAttempt_saveStep h₁)
    | ok st₂ =>
      have hbefore (id : String) : ops.getAttempt st₂ id = ops.getAttempt st id := by
        rw [getAttempt_saveStep h₂, getAttempt_saveStep h₁]
      dsimp only
      cases h₃ : ops.saveAttempt now st₂ attempt with
      | error _ => exact .nothing hbefore
      | ok st₃ =>
        have hadds : ops.Adds st st₃ attempt := by
          intro id
          rw [getAttempt_saveAttempt_eq h₃, hbefore]
        dsimp only
        cases h₄ : ops.saveAction now st₃ action with
        | error _ => exact .undecided hadds
        | ok st₄ =>
          have hstep := getStep_saveStep h₂
          rw [← getStep_saveAttempt h₃, ← getStep_saveAction h₄] at hstep
          have hkept : ops.Adds st st₄ attempt := by
            intro id
            rw [getAttempt_saveAction h₄]
            exact hadds id
          exact .decided { step with currentAttempt := attempt.attemptNo } hkept hid hstep rfl

/-- Inside a transaction the stage writes the same records. -/
theorem precommitSideEffect_eq_ok {request : CapabilityRequest} {p : Precommit}
    {decided : ExecutionRecordIds × σ}
    (h : ops.precommitSideEffect now st request p = .ok decided) :
    ∃ workId runId, given request.runId = some runId ∧
      ops.writeRecords now st (ops.sideEffectStep now st request runId p)
        (ops.sideEffectAttempt now st request runId p)
        (sideEffectAction now request workId runId p) = decided := by
  unfold precommitSideEffect at h
  split at h
  · rename_i workId runId _ hrun
    obtain ⟨s₁, h₁, h⟩ := Result.bind_eq_ok.mp h
    obtain ⟨s₂, h₂, h⟩ := Result.bind_eq_ok.mp h
    obtain ⟨s₃, h₃, h⟩ := Result.bind_eq_ok.mp h
    obtain ⟨s₄, h₄, h⟩ := Result.bind_eq_ok.mp h
    obtain rfl := Result.pure_eq_ok.mp h
    change ops.saveStep now st (ops.sideEffectStep now st request runId p) = .ok s₁ at h₁
    change ops.saveStep now s₁ { ops.sideEffectStep now st request runId p with
      currentAttempt := (ops.sideEffectAttempt now st request runId p).attemptNo } = .ok s₂ at h₂
    change ops.saveAttempt now s₂ (ops.sideEffectAttempt now st request runId p) = .ok s₃ at h₃
    change ops.saveAction now s₃ (sideEffectAction now request workId runId p) = .ok s₄ at h₄
    refine ⟨workId, runId, hrun, ?_⟩
    simp only [writeRecords, h₁, h₂, h₃, h₄]
    rfl
  · cases h

theorem precommitPure_eq (ops : ExecutionStore σ) (now : Time) (st : σ) (p : Precommit)
    {request : CapabilityRequest} {workId runId : String}
    (hwork : given request.workId = some workId) (hrun : given request.runId = some runId) :
    ops.precommitPure now st request p =
      match ops.saveStep now st (ops.pureStep now st request runId p) with
      | .error _ => ({}, st)
      | .ok st₁ =>
        match ops.saveAttempt now st₁
          (newAttempt now request p (ops.pureStep now st request runId p).id 1 []) with
        | .error _ => ({}, st₁)
        | .ok st₂ =>
          (⟨some (ops.pureStep now st request runId p).id, some p.freshAttempt, none⟩, st₂) := by
  rw [precommitPure, hwork, hrun]
  rfl

theorem lt_nextAttemptNo {a : StepAttempt} {stepId : String} (h : a ∈ ops.listAttempts st stepId) :
    a.attemptNo < ops.nextAttemptNo st stepId := by
  have hmem : a.attemptNo ∈ (ops.listAttempts st stepId).map StepAttempt.attemptNo :=
    List.mem_map.mpr ⟨a, h, rfl⟩
  rw [nextAttemptNo]
  cases hmax : ((ops.listAttempts st stepId).map StepAttempt.attemptNo).max? with
  | none =>
    rw [List.max?_eq_none_iff.mp hmax] at hmem
    cases hmem
  | some largest =>
    have hle : a.attemptNo ≤ largest := (List.max?_eq_some_iff.mp hmax).2 a.attemptNo hmem
    rw [Option.getD_some]
    omega

end ExecutionStore

namespace AttemptStore

open ExecutionStore

variable {σ : Type} {s : AttemptStore σ} {st st' : σ} {c : PrecommitCall σ}
  {attempt : StepAttempt} {current : Int}

theorem mem_listAttempts {a : StepAttempt} {stepId : String} :
    a ∈ s.listAttempts st stepId ↔ (∃ id, s.getAttempt st id = some a) ∧ a.stepId = stepId := by
  rw [listAttempts, List.mem_filter, s.mem_attempts, decide_eq_true_eq]
  rfl

/-- A side effect is recorded under the next number of its Step. -/
theorem recorded_sideEffect (s : AttemptStore σ) (st : σ) (c : PrecommitCall σ)
    (hside : c.p.sideEffect = true) :
    ∃ attempt : StepAttempt, attempt.id = c.p.freshAttempt ∧
      attempt.attemptNo = s.nextAttemptNo st attempt.stepId ∧
      Recorded (s.during c.gate) st attempt attempt.attemptNo (s.precommit st c) := by
  have hnothing : Recorded (s.during c.gate) st
      (newAttempt c.now c.request c.p "" (s.nextAttemptNo st "") [])
      (s.nextAttemptNo st "") ({}, st) := .nothing (fun _ => rfl)
  have hwritten (workId runId : String) :
      Recorded (s.during c.gate) st
        ((s.during c.gate).sideEffectAttempt c.now st c.request runId c.p)
        ((s.during c.gate).sideEffectAttempt c.now st c.request runId c.p).attemptNo
        ((s.during c.gate).writeRecords c.now st
          ((s.during c.gate).sideEffectStep c.now st c.request runId c.p)
          ((s.during c.gate).sideEffectAttempt c.now st c.request runId c.p)
          (sideEffectAction c.now c.request workId runId c.p)) :=
    recorded_writeRecords (s.during c.gate) c.now st _ rfl
  rw [precommit, hside, Bool.true_and]
  split
  · rw [precommitDirectly]
    split
    · next workId runId _ _ => exact ⟨_, rfl, rfl, hwritten workId runId⟩
    · exact ⟨_, rfl, rfl, hnothing⟩
  · rw [precommitExecutionRecords, if_pos hside]
    cases hcall : (s.during c.gate).precommitSideEffect c.now st c.request c.p with
    | error e => exact ⟨_, rfl, rfl, hnothing⟩
    | ok decided =>
      obtain ⟨workId, runId, -, rfl⟩ := precommitSideEffect_eq_ok hcall
      exact ⟨_, rfl, rfl, hwritten workId runId⟩

theorem precommit_pure (s : AttemptStore σ) (st : σ) (hpure : c.p.sideEffect = false) :
    s.precommit st c = (s.during c.gate).precommitPure c.now st c.request c.p := by
  rw [precommit, hpure, Bool.false_and, if_neg Bool.false_ne_true, precommitExecutionRecords,
    hpure, if_neg Bool.false_ne_true]

/-- The attempt of a pure request. -/
def pureAttempt (s : AttemptStore σ) (st : σ) (c : PrecommitCall σ) (runId : String) :
    StepAttempt :=
  newAttempt c.now c.request c.p (s.pureStep c.now st c.request runId c.p).id 1 []

theorem recorded_of_pure {workId runId : String} {st₁ st₂ : σ} (hpure : c.p.sideEffect = false)
    (hwork : given c.request.workId = some workId) (hrun : given c.request.runId = some runId)
    (h₁ : (s.during c.gate).saveStep c.now st (s.pureStep c.now st c.request runId c.p) = .ok st₁)
    (h₂ : (s.during c.gate).saveAttempt c.now st₁ (s.pureAttempt st c runId) = .ok st₂) :
    s.precommit st c = (⟨some (s.pureStep c.now st c.request runId c.p).id,
      some c.p.freshAttempt, none⟩, st₂) ∧
    (s.during c.gate).Adds st st₂ (s.pureAttempt st c runId) ∧
    s.getStep st₂ (s.pureStep c.now st c.request runId c.p).id =
      some (s.pureStep c.now st c.request runId c.p) := by
  have hstep := getStep_saveStep h₁
  rw [← getStep_saveAttempt h₂] at hstep
  refine ⟨?_, ?_, hstep⟩
  · change (s.during c.gate).saveStep c.now st
      ((s.during c.gate).pureStep c.now st c.request runId c.p) = .ok st₁ at h₁
    change (s.during c.gate).saveAttempt c.now st₁ (newAttempt c.now c.request c.p
      ((s.during c.gate).pureStep c.now st c.request runId c.p).id 1 []) = .ok st₂ at h₂
    rw [precommit_pure s st hpure, precommitPure_eq _ _ _ _ hwork hrun]
    simp only [h₁, h₂]
    rfl
  · intro id
    rw [getAttempt_saveAttempt_eq h₂, getAttempt_saveStep h₁]

/-- A pure request is recorded as attempt 1, beside a Step that keeps its current attempt,
where the store accepts both. -/
theorem recorded_pure (s : AttemptStore σ) (st : σ) (c : PrecommitCall σ)
    (hpure : c.p.sideEffect = false) :
    (∃ st', s.precommit st c = ({}, st') ∧ ∀ id, s.getAttempt st' id = s.getAttempt st id) ∨
    ∃ workId runId st₁ st₂, given c.request.workId = some workId ∧
      given c.request.runId = some runId ∧
      (s.during c.gate).saveStep c.now st (s.pureStep c.now st c.request runId c.p) = .ok st₁ ∧
      (s.during c.gate).saveAttempt c.now st₁ (s.pureAttempt st c runId) = .ok st₂ := by
  rw [precommit_pure s st hpure]
  cases hwork : given c.request.workId with
  | none => exact Or.inl ⟨st, by rw [precommitPure, hwork], fun _ => rfl⟩
  | some workId =>
    cases hrun : given c.request.runId with
    | none => exact Or.inl ⟨st, by rw [precommitPure, hwork, hrun], fun _ => rfl⟩
    | some runId =>
      rw [precommitPure_eq _ _ _ _ hwork hrun]
      cases h₁ : (s.during c.gate).saveStep c.now st
        ((s.during c.gate).pureStep c.now st c.request runId c.p) with
      | error _ => exact Or.inl ⟨st, rfl, fun _ => rfl⟩
      | ok st₁ =>
        cases h₂ : (s.during c.gate).saveAttempt c.now st₁ (newAttempt c.now c.request c.p
          ((s.during c.gate).pureStep c.now st c.request runId c.p).id 1 []) with
        | error _ =>
          have hkept (id : String) :
              (s.during c.gate).getAttempt st₁ id = (s.during c.gate).getAttempt st id :=
            getAttempt_saveStep h₁ id
          refine Or.inl ⟨st₁, ?_, hkept⟩
          simp only [h₂]
        | ok st₂ => exact Or.inr ⟨workId, runId, st₁, st₂, rfl, rfl, h₁, h₂⟩

/-! ## A number above the earlier ones -/

theorem Distinct.congr (h : s.Distinct st)
    (hsame : ∀ id, s.getAttempt st' id = s.getAttempt st id) : s.Distinct st' := by
  intro id id' a a' ha ha'
  rw [hsame] at ha ha'
  exact h id id' a a' ha ha'

/-- The attempt is above the earlier ones of its Step. -/
def Above (s : AttemptStore σ) (st : σ) (attempt : StepAttempt) : Prop :=
  ∀ a ∈ s.listAttempts st attempt.stepId, a.attemptNo < attempt.attemptNo

theorem Above.lt (h : s.Above st attempt) {id : String} {a : StepAttempt}
    (ha : s.getAttempt st id = some a) (hstep : a.stepId = attempt.stepId) :
    a.attemptNo < attempt.attemptNo :=
  h a (mem_listAttempts.mpr ⟨⟨id, ha⟩, hstep⟩)

theorem Distinct.adds (h : s.Distinct st) (habove : s.Above st attempt)
    (hadds : s.Adds st st' attempt) : s.Distinct st' := by
  intro id id' a a' ha ha' hstep hno
  rw [hadds] at ha ha'
  split at ha
  · next hid =>
    obtain rfl := Option.some.inj ha
    split at ha'
    · next hid' => rw [hid, hid']
    · have hlt := habove.lt ha' hstep.symm
      omega
  · split at ha'
    · obtain rfl := Option.some.inj ha'
      have hlt := habove.lt ha hstep
      omega
    · exact h id id' a a' ha ha' hstep hno

theorem later_of_adds (habove : s.Above st attempt) (hadds : s.Adds st st' attempt)
    {id id' : String} {a a' : StepAttempt} (hnew : s.getAttempt st id = none)
    (ha : s.getAttempt st' id = some a) (ha' : s.getAttempt st id' = some a')
    (hstep : a'.stepId = a.stepId) : a'.attemptNo < a.attemptNo := by
  rw [hadds, hnew] at ha
  split at ha
  · obtain rfl := Option.some.inj ha
    exact habove.lt ha' hstep
  · cases ha

theorem getAttempt_of_adds (hadds : s.Adds st st' attempt) :
    s.getAttempt st' attempt.id = some attempt := by
  rw [hadds, if_pos rfl]

/-- The new attempt has the largest number, and so recovery finds it. -/
theorem lastAttempt_of_adds (habove : s.Above st attempt) (hadds : s.Adds st st' attempt) :
    s.lastAttempt st' attempt.stepId = some attempt := by
  have hmem : attempt ∈ s.listAttempts st' attempt.stepId :=
    mem_listAttempts.mpr ⟨⟨attempt.id, getAttempt_of_adds hadds⟩, rfl⟩
  rw [lastAttempt]
  cases hlast : (s.listAttempts st' attempt.stepId).argmax StepAttempt.attemptNo with
  | none =>
    rw [List.argmax_eq_none.mp hlast] at hmem
    cases hmem
  | some last =>
    have hle : attempt.attemptNo ≤ last.attemptNo := List.le_of_mem_argmax hmem hlast
    obtain ⟨⟨id, hget⟩, hstep⟩ := mem_listAttempts.mp (List.argmax_mem hlast)
    rw [hadds] at hget
    split at hget
    · exact hget.symm
    · have hlt := habove.lt hget hstep
      omega

theorem current_of_adds (habove : s.Above st attempt) (hadds : s.Adds st st' attempt) {step : Step}
    (hstep : s.getStep st' attempt.stepId = some step)
    (hcurrent : step.currentAttempt = attempt.attemptNo) :
    s.Current st' attempt.stepId attempt.id := by
  have hget := getAttempt_of_adds hadds
  refine ⟨⟨step, attempt, hstep, hget, rfl, hcurrent⟩, ?_, ?_⟩
  · intro id a step' hstep' ha hid
    obtain rfl := Option.some.inj (hstep.symm.trans hstep')
    rw [hadds] at ha
    split at ha
    · obtain rfl := Option.some.inj ha
      exact hcurrent.ge
    · have hlt := habove.lt ha hid
      omega
  · rw [lastAttempt_of_adds habove hadds, hget]

/-! ## One call and a run -/

theorem wellNumbered_of_kept (hdistinct : s.Distinct st) (hids : (s.precommit st c).1 = {})
    (hkept : ∀ id, s.getAttempt (s.afterPrecommit st c) id = s.getAttempt st id) :
    s.WellNumbered st c := by
  refine ⟨hdistinct.congr hkept, ?_, ?_⟩
  · intro id a _ _ hnew ha
    rw [hkept, hnew] at ha
    cases ha
  · intro sid aid hsid
    rw [hids] at hsid
    cases hsid

/-- A call that is recorded above the earlier attempts keeps the numbering where its Step
says so. -/
theorem wellNumbered_of_recorded (hdistinct : s.Distinct st) (habove : s.Above st attempt)
    (hrecorded : Recorded (s.during c.gate) st attempt attempt.attemptNo (s.precommit st c)) :
    s.WellNumbered st c := by
  generalize hresult : s.precommit st c = result at hrecorded
  cases hrecorded with
  | nothing hkept =>
    refine wellNumbered_of_kept hdistinct (by rw [hresult]) ?_
    rw [afterPrecommit, hresult]
    exact hkept
  | undecided hadds =>
    have hafter : s.Adds st (s.afterPrecommit st c) attempt := by
      rw [afterPrecommit, hresult]
      exact hadds
    refine ⟨hdistinct.adds habove hafter, ?_, ?_⟩
    · intro id a id' a'
      exact later_of_adds habove hafter
    · intro sid aid hsid
      rw [hresult] at hsid
      cases hsid
  | decided step hadds hid hstep hcurrent =>
    have hafter : s.Adds st (s.afterPrecommit st c) attempt := by
      rw [afterPrecommit, hresult]
      exact hadds
    refine ⟨hdistinct.adds habove hafter, ?_, ?_⟩
    · intro id a id' a'
      exact later_of_adds habove hafter
    · intro sid aid hsid haid
      rw [hresult] at hsid haid
      obtain rfl := Option.some.inj hsid
      obtain rfl := Option.some.inj haid
      rw [← hid] at hstep ⊢
      refine current_of_adds habove hafter ?_ hcurrent
      rw [afterPrecommit, hresult]
      exact hstep

theorem wellNumbered_of_aligned (hdistinct : s.Distinct st) (haligned : s.Aligned st c) :
    s.WellNumbered st c := by
  cases hside : c.p.sideEffect with
  | true =>
    obtain ⟨attempt, -, hno, hrecorded⟩ := recorded_sideEffect s st c hside
    have habove : s.Above st attempt := by
      intro a ha
      rw [hno]
      exact lt_nextAttemptNo ha
    exact wellNumbered_of_recorded hdistinct habove hrecorded
  | false =>
    rcases recorded_pure s st c hside with ⟨st', hcall, hkept⟩ |
      ⟨workId, runId, st₁, st₂, hwork, hrun, h₁, h₂⟩
    · refine wellNumbered_of_kept hdistinct (by rw [hcall]) ?_
      rw [afterPrecommit, hcall]
      exact hkept
    · obtain ⟨hcall, hadds, hstep⟩ := recorded_of_pure hside hwork hrun h₁ h₂
      rcases haligned with htrue | haligned
      · rw [hside] at htrue
        cases htrue
      · obtain ⟨hcurrent, hearlier⟩ := haligned workId runId st₁ st₂ hwork hrun h₁ h₂
        have habove : s.Above st (s.pureAttempt st c runId) := hearlier
        refine wellNumbered_of_recorded hdistinct habove ?_
        rw [hcall]
        exact .decided _ hadds rfl hstep hcurrent

theorem aligned_of_wellNumbered (hfresh : s.Fresh st c) (h : s.WellNumbered st c) :
    s.Aligned st c := by
  cases hside : c.p.sideEffect with
  | true => exact Or.inl hside
  | false =>
    refine Or.inr ?_
    intro workId runId st₁ st₂ hwork hrun h₁ h₂
    obtain ⟨hcall, hadds, hstep⟩ := recorded_of_pure hside hwork hrun h₁ h₂
    have hafter : s.afterPrecommit st c = st₂ := by rw [afterPrecommit, hcall]
    have hget : s.getAttempt st₂ c.p.freshAttempt = some (s.pureAttempt st c runId) :=
      getAttempt_of_adds hadds
    constructor
    · have hcurrent := h.current _ _ (by rw [hcall]) (by rw [hcall])
      obtain ⟨step, a, hstep', ha, -, hno⟩ := hcurrent.step
      rw [hafter] at hstep' ha
      obtain rfl := Option.some.inj (hstep.symm.trans hstep')
      obtain rfl := Option.some.inj (hget.symm.trans ha)
      exact hno
    · intro a ha
      obtain ⟨⟨id, hold⟩, hid⟩ := mem_listAttempts.mp ha
      rw [← hafter] at hget
      exact h.later _ _ id a hfresh hget hold hid

end AttemptStore
end PortableRuntime
