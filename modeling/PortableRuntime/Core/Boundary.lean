import PortableRuntime.Core.Capabilities
import PortableRuntime.Protocol.State

/-!
# The reality boundary

What one execution does to the durable records around its provider call: the precommit
before the call, the abort instead of it, and after it the fencing read with either the
demotion or the projection of the result.  The pieces between two awaits are atomic.
-/

namespace PortableRuntime

structure CapabilityResult where
  requestId : String
  status : CapabilityResultStatus := .succeeded
  error : Option Fields := none
deriving Repr, Inhabited

/-- What the boundary uses of a store.  A checked save asks the gate first; `save` alone
puts the value under its own identifier and touches nothing else. -/
structure ExecutionStore (σ : Type) where
  getRun : σ → String → Option Run
  get : σ → (k : Kind) → String → Option (Model k)
  steps : σ → List Step
  attempts : σ → List StepAttempt
  gate : Time → σ → (k : Kind) → Model k → Result Unit
  save : σ → (k : Kind) → Model k → σ
  get_save_self : ∀ st k (v : Model k) id,
    get (save st k v) k id = if id = k.identifier v then some v else get st k id
  get_save_of_ne : ∀ st k k' (v : Model k) id, k' ≠ k → get (save st k v) k' id = get st k' id

/-- Identifiers created by the precommit stage. -/
structure ExecutionRecordIds where
  stepId : Option String := none
  attemptId : Option String := none
  actionId : Option String := none
deriving Repr, DecidableEq, Inhabited

/-- The truth value of an optional identifier, with the identifier. -/
def given (s : Option String) : Option String := s.filter (· ≠ "")

theorem given_eq_some {s : Option String} {text : String} (h : given s = some text) :
    s = some text := by
  rw [given, Option.filter_eq_some_iff] at h
  exact h.1

namespace ExecutionStore

variable {σ : Type} (ops : ExecutionStore σ)

def saveChecked (now : Time) (st : σ) (k : Kind) (value : Model k) : Result σ := do
  ops.gate now st k value
  return ops.save st k value

def getStep (st : σ) (id : String) : Option Step := ops.get st .step id
def getAttempt (st : σ) (id : String) : Option StepAttempt := ops.get st .attempt id

def saveStep (now : Time) (st : σ) (value : Step) : Result σ := ops.saveChecked now st .step value
def saveAttempt (now : Time) (st : σ) (value : StepAttempt) : Result σ :=
  ops.saveChecked now st .attempt value
def saveAction (now : Time) (st : σ) (value : Action) : Result σ :=
  ops.saveChecked now st .action value

def listSteps (st : σ) (runId : String) : List Step :=
  (ops.steps st).filter (fun v => v.runId = runId)

def listAttempts (st : σ) (stepId : String) : List StepAttempt :=
  (ops.attempts st).filter (fun v => v.stepId = stepId)

/-! ## Before the provider call -/

/-- The facts that selection and permit hand to the precommit, and the fresh identifiers
it draws. -/
structure Precommit where
  providerId : String
  permitDigest : String
  sideEffect : Bool
  sideEffectClass : SideEffectClass
  effectSemantics : SideEffectClass
  reversibility : Reversibility
  freshStep : String
  freshAttempt : String
  freshAction : String

def stepKey (request : CapabilityRequest) : String :=
  (given request.stepKey).getD
    s!"{request.capability}:{(given request.idempotencyKey).getD request.id}"

/-- `capability.split(".")[0] if "." in capability else "generic"`. -/
def stepKind (capability : String) : String :=
  if capability.toList.contains '.' then String.ofList (capability.toList.takeWhile (· ≠ '.'))
  else "generic"

def newStep (now : Time) (request : CapabilityRequest) (runId : String) (p : Precommit) : Step :=
  { id := p.freshStep, createdAt := now, runId, stepKey := stepKey request,
    kind := stepKind request.capability, status := .running,
    effectSemantics := p.effectSemantics, sideEffectClass := p.sideEffectClass,
    reversibility := p.reversibility, inputDigest := some p.permitDigest,
    leaseGeneration := request.leaseGeneration, updatedAt := now }

def newAttempt (now : Time) (request : CapabilityRequest) (p : Precommit) (stepId : String)
    (attemptNo : Int) (metadata : Fields) : StepAttempt :=
  { id := p.freshAttempt, createdAt := now, stepId, attemptNo, providerId := some p.providerId,
    requestRef := some request.id,
    idempotencyKey := some ((given request.idempotencyKey).getD request.id),
    startedAt := some now, status := .running, leaseGeneration := request.leaseGeneration, metadata }

/-- The Step of a run under a key: the first that the store lists. -/
def findStep (st : σ) (runId key : String) : Option Step :=
  (ops.listSteps st runId).find? (fun candidate => candidate.stepKey = key)

/-- Action-critical requests fail closed when the durable precommit is unavailable. -/
def precommitSideEffect (now : Time) (st : σ) (request : CapabilityRequest) (p : Precommit) :
    Result (ExecutionRecordIds × σ) :=
  match given request.workId, given request.runId with
  | some workId, some runId => do
    let step := match ops.findStep st runId (stepKey request) with
      | none => newStep now request runId p
      | some step =>
        { step with
          status := .running
          updatedAt := now
          inputDigest := some p.permitDigest
          effectSemantics := p.effectSemantics
          sideEffectClass := p.sideEffectClass
          leaseGeneration := request.leaseGeneration
          version := step.version + 1 }
    let attemptNo := (((ops.listAttempts st step.id).map StepAttempt.attemptNo).max?).getD 0 + 1
    let attempt := newAttempt now request p step.id attemptNo [("action_ref", .str p.freshAction)]
    let action : Action :=
      { id := p.freshAction, createdAt := now, workId, runId, capability := request.capability,
        providerId := p.providerId, requestRef := request.id, status := "running" }
    let st ← ops.saveStep now st step
    let st ← ops.saveStep now st { step with currentAttempt := attemptNo }
    let st ← ops.saveAttempt now st attempt
    let st ← ops.saveAction now st action
    return (⟨some step.id, some attempt.id, some action.id⟩, st)
  | _, _ => .error (.runtimeError "side-effect invocation requires durable work/run precommit")

/-- Pure requests keep best-effort records: an exception ends the stage where it is. -/
def precommitPure (now : Time) (st : σ) (request : CapabilityRequest) (p : Precommit) :
    ExecutionRecordIds × σ :=
  match given request.workId, given request.runId with
  | some _, some runId =>
    let step := match ops.findStep st runId (stepKey request) with
      | none => newStep now request runId p
      | some step =>
        { step with status := .running, updatedAt := now, inputDigest := some p.permitDigest }
    match ops.saveStep now st step with
    | .error _ => ({}, st)
    | .ok st' =>
      match ops.saveAttempt now st' (newAttempt now request p step.id 1 []) with
      | .error _ => ({}, st')
      | .ok st'' => (⟨some step.id, some p.freshAttempt, none⟩, st'')
  | _, _ => ({}, st)

/-- Persist execution records without owning provider invocation.  The side-effect
branch runs in a transaction, which a failure undoes. -/
def precommitExecutionRecords (now : Time) (st : σ) (request : CapabilityRequest)
    (p : Precommit) : Result (ExecutionRecordIds × σ) :=
  if p.sideEffect then ops.precommitSideEffect now st request p
  else .ok (ops.precommitPure now st request p)

/-- Cancel the precommitted records, in a transaction. -/
def abortPreinvocationRecords (now : Time) (st : σ) (request : CapabilityRequest)
    (providerId : String) (records : ExecutionRecordIds) (code reason : String) : Result σ :=
  match records.stepId with
  | none => .ok st
  | some stepId => do
    let error : Fields :=
      [("code", .str code), ("reason", .str reason), ("phase", .str "before-reality-exit")]
    let attempt := (given records.attemptId).bind (ops.getAttempt st)
    match ops.getStep st stepId with
    | none => .error (.runtimeError "pre-invocation abort is missing precommitted execution records")
    | some step =>
      if records.attemptId.isSome && attempt.isNone then
        .error (.runtimeError "pre-invocation abort is missing precommitted execution records")
      else
        let st ← ops.saveStep now st { step with status := .cancelled, updatedAt := now }
        let st ← attempt.elim (.ok st) (fun (a : StepAttempt) =>
          let cancelled : StepAttempt :=
            { a with status := .cancelled, endedAt := some now, error := some error }
          ops.saveAttempt now st cancelled)
        records.actionId.elim (.ok st) (fun actionId =>
          ops.saveAction now st
            { id := actionId, createdAt := now, workId := request.workId.getD "",
              runId := request.runId.getD "", capability := request.capability, providerId,
              requestRef := request.id, status := "cancelled",
              metadata := [("preinvocation_abort", .obj error)] })

/-! ## After the provider call -/

def codeFencingRejected : String := "FencingRejected"
def codeFencingUnavailable : String := "FencingUnavailable"
def codePostFencingRejected : String := "PostFencingRejected"
/-- The verdict of the fencing read, its reason, and the code of a refusal. -/
def readFencing (now : Time) (st : σ) (request : CapabilityRequest) : Bool × String × String :=
  match request.runId with
  | none => (true, "no run fencing required", "")
  | some runId => match ops.getRun st runId with
    | none => (false, s!"{codeFencingUnavailable}: run {Text.pyRepr runId} not found",
        codeFencingUnavailable)
    | some run => match validateFencing request (some run) now with
      | (true, reason) => (true, reason, "")
      | (false, reason) => (false, s!"{codeFencingRejected}: {reason}", codeFencingRejected)

def postFencingError (reason code : String) : Fields :=
  [("code", .str (if code = codeFencingRejected then codePostFencingRejected else code)),
   ("reason", .str reason)]

def demoted (now : Time) (step : Step) : Step := { step with status := .unknown, updatedAt := now }

def demoteStep (now : Time) (st : σ) (stepId : String) : Result σ :=
  match ops.getStep st stepId with
  | none => .ok st
  | some step => ops.saveStep now st (demoted now step)

def demoteAttempt (now : Time) (st : σ) (attemptId : Option String) (error : Fields) : σ :=
  match (given attemptId).bind (ops.getAttempt st) with
  | none => st
  | some attempt =>
    match ops.saveAttempt now st
      { attempt with status := .unknown, endedAt := some now, error := some error } with
    | .error _ => st
    | .ok st' => st'

/-- Mark the Step and the attempt of a refused result as unknown.  An exception is
swallowed, and ends the demotion where it happens. -/
def demote (now : Time) (st : σ) (records : ExecutionRecordIds) (error : Fields) : σ :=
  match given records.stepId with
  | none => st
  | some stepId => match ops.demoteStep now st stepId with
    | .error _ => st
    | .ok st' => ops.demoteAttempt now st' records.attemptId error

def projectedStep : CapabilityResultStatus → StepStatus
  | .succeeded => .succeeded
  | .cancelled => .cancelled
  | .unknown => .unknown
  | _ => .failed

def projectedAttempt : CapabilityResultStatus → AttemptStatus
  | .succeeded => .succeeded
  | .cancelled => .cancelled
  | .unknown => .unknown
  | _ => .failed

/-- Persist execution facts only, in a transaction. -/
def commitExecutionProjection (now : Time) (st : σ) (request : CapabilityRequest)
    (result : CapabilityResult) (providerId : String) (records : ExecutionRecordIds)
    (freshAction : String) : Result σ :=
  match records.stepId with
  | none => .ok st
  | some stepId =>
    match ops.getStep st stepId, (given records.attemptId).bind (ops.getAttempt st) with
    | some step, some attempt => do
      let status := projectedStep result.status
      let st ← ops.saveStep now st { step with status, updatedAt := now }
      let st ← ops.saveAttempt now st
        { attempt with
          status := projectedAttempt result.status
          endedAt := some now
          resultRef := some result.requestId
          error := result.error }
      ops.saveAction now st
        { id := (given records.actionId).getD freshAction, createdAt := now,
          workId := request.workId.getD "", runId := request.runId.getD "",
          capability := request.capability, providerId, requestRef := request.id,
          status := status.text }
    | _, _ => .error (.runtimeError "execution projection missing precommitted records")

/-- One execution that waits for its provider. -/
structure Invocation where
  request : CapabilityRequest
  providerId : String
  records : ExecutionRecordIds
deriving Repr, Inhabited

/-- The rest of an execution once its provider has answered.  A failed projection leaves
the store as it was. -/
def resume (now : Time) (st : σ) (i : Invocation) (result : CapabilityResult)
    (freshAction : String) : σ :=
  match (given i.request.runId).map (fun _ => ops.readFencing now st i.request) with
  | some (false, reason, code) => ops.demote now st i.records (postFencingError reason code)
  | _ =>
    match ops.commitExecutionProjection now st i.request result i.providerId i.records freshAction
    with
    | .ok st' => st'
    | .error _ => st

/-! ## What an execution writes -/

variable {ops} {st st' : σ} {now : Time}

theorem saveChecked_eq_ok {k : Kind} {v : Model k} :
    ops.saveChecked now st k v = .ok st' ↔ ops.gate now st k v = .ok () ∧ ops.save st k v = st' := by
  rw [saveChecked, Result.check_eq_ok, Result.pure_eq_ok]

section Keeps

variable {P : σ → Prop} (hsave : ∀ st k (v : Model k), P st → P (ops.save st k v))

include hsave

theorem saveChecked_keeps {k : Kind} {v : Model k} (h : ops.saveChecked now st k v = .ok st')
    (hP : P st) : P st' := by
  obtain ⟨-, rfl⟩ := saveChecked_eq_ok.mp h
  exact hsave st k v hP

theorem precommitSideEffect_keeps {request : CapabilityRequest} {p : Precommit}
    {records : ExecutionRecordIds}
    (h : ops.precommitSideEffect now st request p = .ok (records, st')) (hP : P st) : P st' := by
  unfold precommitSideEffect at h
  split at h
  · obtain ⟨s₁, h₁, h⟩ := Result.bind_eq_ok.mp h
    obtain ⟨s₂, h₂, h⟩ := Result.bind_eq_ok.mp h
    obtain ⟨s₃, h₃, h⟩ := Result.bind_eq_ok.mp h
    obtain ⟨s₄, h₄, h⟩ := Result.bind_eq_ok.mp h
    obtain ⟨-, rfl⟩ := Prod.mk.inj (Result.pure_eq_ok.mp h)
    have hP₂ := saveChecked_keeps hsave h₂ (saveChecked_keeps hsave h₁ hP)
    exact saveChecked_keeps hsave h₄ (saveChecked_keeps hsave h₃ hP₂)
  · exact absurd h (by simp)

theorem precommitPure_keeps (now : Time) (request : CapabilityRequest) (p : Precommit)
    (hP : P st) : P (ops.precommitPure now st request p).2 := by
  unfold precommitPure
  split
  · dsimp only
    split
    · exact hP
    · rename_i h₁
      have hP₁ := saveChecked_keeps hsave h₁ hP
      split
      · exact hP₁
      · rename_i h₂
        exact saveChecked_keeps hsave h₂ hP₁
  · exact hP

theorem precommitExecutionRecords_keeps {request : CapabilityRequest} {p : Precommit}
    {records : ExecutionRecordIds}
    (h : ops.precommitExecutionRecords now st request p = .ok (records, st')) (hP : P st) :
    P st' := by
  rw [precommitExecutionRecords] at h
  split_ifs at h
  · exact precommitSideEffect_keeps hsave h hP
  · have hkeeps := precommitPure_keeps hsave now request p hP
    rwa [Except.ok.inj h] at hkeeps

theorem abortPreinvocationRecords_keeps {request : CapabilityRequest} {providerId code reason : String}
    {records : ExecutionRecordIds}
    (h : ops.abortPreinvocationRecords now st request providerId records code reason = .ok st')
    (hP : P st) : P st' := by
  unfold abortPreinvocationRecords at h
  split at h
  · exact Except.ok.inj h ▸ hP
  · dsimp only at h
    split at h
    · exact absurd h (by simp)
    · split_ifs at h
      obtain ⟨s₁, h₁, h⟩ := Result.bind_eq_ok.mp h
      obtain ⟨s₂, h₂, h⟩ := Result.bind_eq_ok.mp h
      have hP₁ := saveChecked_keeps hsave h₁ hP
      have hP₂ : P s₂ := by
        cases hattempt : (given records.attemptId).bind (ops.getAttempt st) with
        | none =>
          rw [hattempt] at h₂
          exact Except.ok.inj h₂ ▸ hP₁
        | some attempt =>
          rw [hattempt] at h₂
          exact saveChecked_keeps hsave h₂ hP₁
      cases haction : records.actionId with
      | none =>
        rw [haction] at h
        exact Except.ok.inj h ▸ hP₂
      | some actionId =>
        rw [haction] at h
        exact saveChecked_keeps hsave h hP₂

theorem demote_keeps (now : Time) (records : ExecutionRecordIds) (error : Fields) (hP : P st) :
    P (ops.demote now st records error) := by
  unfold demote
  split
  · exact hP
  · split
    · exact hP
    · rename_i s₁ h₁
      have hP₁ : P s₁ := by
        unfold demoteStep at h₁
        split at h₁
        · exact Except.ok.inj h₁ ▸ hP
        · exact saveChecked_keeps hsave h₁ hP
      unfold demoteAttempt
      split
      · exact hP₁
      · split
        · exact hP₁
        · rename_i h₂
          exact saveChecked_keeps hsave h₂ hP₁

theorem commitExecutionProjection_keeps {request : CapabilityRequest} {result : CapabilityResult}
    {providerId freshAction : String} {records : ExecutionRecordIds}
    (h : ops.commitExecutionProjection now st request result providerId records freshAction =
      .ok st') (hP : P st) : P st' := by
  unfold commitExecutionProjection at h
  split at h
  · exact Except.ok.inj h ▸ hP
  · split at h
    · obtain ⟨s₁, h₁, h⟩ := Result.bind_eq_ok.mp h
      obtain ⟨s₂, h₂, h⟩ := Result.bind_eq_ok.mp h
      have hP₁ := saveChecked_keeps hsave h₁ hP
      exact saveChecked_keeps hsave h (saveChecked_keeps hsave h₂ hP₁)
    · exact absurd h (by simp)

theorem resume_keeps (now : Time) (i : Invocation) (result : CapabilityResult)
    (freshAction : String) (hP : P st) : P (ops.resume now st i result freshAction) := by
  unfold resume
  split
  · exact demote_keeps hsave now i.records _ hP
  · split
    · rename_i h
      exact commitExecutionProjection_keeps hsave h hP
    · exact hP

end Keeps

/-! ## The status of a Step after a completion -/

def stepStatus (ops : ExecutionStore σ) (st : σ) (sid : String) : Option StepStatus :=
  (ops.getStep st sid).map Step.status

/-- The demotion leaves the Step `sid` as it is: it finds another Step or none, or it
finds it unknown already, or the gate refuses the demoted Step. -/
def NothingToDemote (ops : ExecutionStore σ) (now : Time) (st : σ) (records : ExecutionRecordIds)
    (sid : String) : Prop :=
  ∀ stepId step, given records.stepId = some stepId → ops.getStep st stepId = some step →
    step.id = sid →
    ops.stepStatus st sid = some .unknown ∨ ops.gate now st .step (demoted now step) ≠ .ok ()

theorem stepStatus_save (st : σ) (step : Step) (sid : String) :
    ops.stepStatus (ops.save st .step step) sid =
      if sid = step.id then some step.status else ops.stepStatus st sid := by
  have hget : ops.getStep (ops.save st .step step) sid =
      if sid = step.id then some step else ops.getStep st sid :=
    ops.get_save_self st .step step sid
  rw [stepStatus, hget]
  split_ifs <;> rfl

theorem stepStatus_demoteAttempt (now : Time) (st : σ) (attemptId : Option String) (error : Fields)
    (sid : String) :
    ops.stepStatus (ops.demoteAttempt now st attemptId error) sid = ops.stepStatus st sid := by
  unfold demoteAttempt
  split
  · rfl
  · split
    · rfl
    · rename_i h
      obtain ⟨-, rfl⟩ := saveChecked_eq_ok.mp h
      rw [stepStatus, getStep, ops.get_save_of_ne _ _ _ _ _ (by decide)]
      rfl

theorem nothingToDemote_iff {records : ExecutionRecordIds} {stepId sid : String} {step : Step}
    (hrecords : given records.stepId = some stepId) (hget : ops.getStep st stepId = some step) :
    ops.NothingToDemote now st records sid ↔
      (step.id = sid → ops.stepStatus st sid = some .unknown ∨
        ops.gate now st .step (demoted now step) ≠ .ok ()) := by
  constructor
  · intro h
    exact h stepId step hrecords hget
  · intro h stepId' step' hrecords' hget'
    obtain rfl := Option.some.inj (hrecords.symm.trans hrecords')
    obtain rfl := Option.some.inj (hget.symm.trans hget')
    exact h

theorem stepStatus_demote_iff {records : ExecutionRecordIds} {error : Fields} {sid : String} :
    ops.stepStatus (ops.demote now st records error) sid = ops.stepStatus st sid ↔
      ops.NothingToDemote now st records sid := by
  cases hrecords : given records.stepId with
  | none => simp [demote, NothingToDemote, hrecords]
  | some stepId =>
    cases hget : ops.getStep st stepId with
    | none =>
      have hstep : ops.demoteStep now st stepId = .ok st := by rw [demoteStep, hget]
      have hnothing : ops.NothingToDemote now st records sid := by
        intro stepId' step hrecords' hget'
        obtain rfl := Option.some.inj (hrecords.symm.trans hrecords')
        exact absurd (hget.symm.trans hget') (by simp)
      simp [demote, hrecords, hstep, hnothing, stepStatus_demoteAttempt]
    | some step =>
      have hstep : ops.demoteStep now st stepId = ops.saveStep now st (demoted now step) := by
        rw [demoteStep, hget]
      rw [nothingToDemote_iff hrecords hget, demote, hrecords]
      dsimp only
      rw [hstep]
      cases hgate : ops.gate now st .step (demoted now step) with
      | error e =>
        have hsaved : ops.saveStep now st (demoted now step) = .error e := by
          rw [saveStep, saveChecked, hgate]
          rfl
        simp [hsaved]
      | ok _ =>
        have hsaved : ops.saveStep now st (demoted now step) =
            .ok (ops.save st .step (demoted now step)) := saveChecked_eq_ok.mpr ⟨hgate, rfl⟩
        rw [hsaved]
        dsimp only
        rw [stepStatus_demoteAttempt, stepStatus_save]
        by_cases hid : sid = step.id
        · have hnew : sid = (demoted now step).id := hid
          rw [if_pos hnew]
          simp [demoted, hid, eq_comm]
        · have hother : ¬ sid = (demoted now step).id := hid
          rw [if_neg hother]
          simp [Ne.symm hid]

theorem nothingToDemote_of_other {records : ExecutionRecordIds} {stepId sid : String} (other : String)
    (hrecords : given records.stepId = some stepId)
    (hget : (ops.getStep st stepId).map (fun step => step.id) = some other) (hother : other ≠ sid) :
    ops.NothingToDemote now st records sid := by
  obtain ⟨step, hstep, hid⟩ := Option.map_eq_some_iff.mp hget
  rw [nothingToDemote_iff hrecords hstep, hid]
  exact fun hsame => absurd hsame hother

/-- A request that fencing refuses, or whose run is gone, is demoted. -/
theorem resume_of_fenced {i : Invocation} {runId : String} (hrun : given i.request.runId = some runId)
    (hfenced : ∀ run, ops.getRun st runId = some run →
      (validateFencing i.request (some run) now).1 = false)
    (result : CapabilityResult) (freshAction : String) :
    ∃ error, ops.resume now st i result freshAction = ops.demote now st i.records error := by
  have hid := given_eq_some hrun
  obtain ⟨reason, code, hread⟩ : ∃ reason code,
      ops.readFencing now st i.request = (false, reason, code) := by
    rw [readFencing, hid]
    dsimp only
    cases hget : ops.getRun st runId with
    | none => exact ⟨_, _, rfl⟩
    | some run =>
      dsimp only
      have hverdict := hfenced run hget
      split
      · rename_i heq
        rw [heq] at hverdict
        exact absurd hverdict (by simp)
      · exact ⟨_, _, rfl⟩
  refine ⟨postFencingError reason code, ?_⟩
  rw [resume, hrun, Option.map_some, hread]

/-- Without precommitted records a completion writes nothing. -/
theorem resume_of_no_records {i : Invocation} (hrecords : i.records.stepId = none) (now : Time)
    (st : σ) (result : CapabilityResult) (freshAction : String) :
    ops.resume now st i result freshAction = st := by
  unfold resume demote commitExecutionProjection
  rw [hrecords]
  split <;> rfl

/-- Records are precommitted for a named run only. -/
theorem precommitExecutionRecords_run {request : CapabilityRequest} {p : Precommit}
    {records : ExecutionRecordIds}
    (h : ops.precommitExecutionRecords now st request p = .ok (records, st'))
    (hrecords : records.stepId ≠ none) : given request.runId ≠ none := by
  intro hnone
  rw [precommitExecutionRecords] at h
  split_ifs at h
  · unfold precommitSideEffect at h
    rw [hnone] at h
    cases hwork : given request.workId <;> simp [hwork] at h
  · unfold precommitPure at h
    rw [hnone] at h
    cases hwork : given request.workId <;> simp [hwork] at h <;>
      exact hrecords (by rw [← h.1])

end ExecutionStore
end PortableRuntime
