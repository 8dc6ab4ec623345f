import PortableRuntime.Core.Boundary

/-!
# From the precommit to the provider

The gates between the durable precommit and the provider call, and what each exit leaves
behind: the precommitted records and the slot that the reliability accounting took.
-/

namespace PortableRuntime

inductive GovernanceUseAdmissionStatus where
  | notApplicable | allowed | blocked | unavailable | stale
deriving Repr, DecidableEq, Inhabited

structure GovernanceUseAdmissionDecision where
  status : GovernanceUseAdmissionStatus
  requirementDigest : String := ""
  snapshotDigest : String := ""
  reason : String := ""
deriving Repr, Inhabited

/-- What a permit binds of the governance judgment. -/
structure InvocationPermit where
  governanceApplicable : Bool := false
  governanceRequirementDigest : String
  governanceSnapshotDigest : String
deriving Repr, Inhabited

inductive DispatchCommitStatus where
  | notApplicable | committed | blocked | changed | unavailable | stale
deriving Repr, DecidableEq, Inhabited

structure DispatchCommitDecision where
  status : DispatchCommitStatus
  reason : String := ""
deriving Repr, Inhabited

def codeQualificationChanged : String := "QualificationChanged"
def codeGovernanceUnavailable : String := "GovernanceUnavailable"
def codeGovernanceStale : String := "GovernanceStale"
def codeGovernanceChanged : String := "GovernanceChanged"

def governancePermitFailure (permit : InvocationPermit) (current : GovernanceUseAdmissionDecision) :
    Option (String × String) :=
  match current.status with
  | .unavailable => some (codeGovernanceUnavailable, current.reason)
  | .stale => some (codeGovernanceStale, current.reason)
  | .blocked => some (codeGovernanceChanged,
      s!"governance use judgment changed before reality exit: {current.reason}")
  | status =>
    if permit.governanceApplicable ≠ (status == .allowed) ||
        permit.governanceRequirementDigest = "" || permit.governanceSnapshotDigest = "" ||
        permit.governanceRequirementDigest ≠ current.requirementDigest ||
        permit.governanceSnapshotDigest ≠ current.snapshotDigest then
      some (codeGovernanceChanged,
        "invocation permit governance binding does not match current admission")
    else none

def dispatchFailure (decision : DispatchCommitDecision) : Option (String × String) :=
  match decision.status with
  | .committed | .notApplicable => none
  | .unavailable => some (codeGovernanceUnavailable, decision.reason)
  | .stale => some (codeGovernanceStale, decision.reason)
  | _ => some (codeGovernanceChanged, decision.reason)

/-- How the provider call ends. -/
inductive ProviderCall where
  | answered
  | failed
  /-- A cancellation, which no handler of the boundary catches. -/
  | cancelled
deriving Repr, DecidableEq

/-- What each collaborator of the boundary does when it is called: it returns a value or
raises.  Without an assessment nothing is refreshed, and a reliability object may have no
`complete_action`. -/
structure Collaborators where
  recordAction : Result Unit := .ok ()
  registryGet : Result Unit := .ok ()
  refreshMatches : Option (Result Bool) := none
  evaluateGovernance : Result GovernanceUseAdmissionDecision
  commitDispatch : DispatchCommitDecision
  invoke : ProviderCall := .answered
  completeAction : Option (Result Unit) := some (.ok ())

namespace Collaborators

/-- The refusal of the qualification facts, read again before the reality exit. -/
def qualificationFailure (c : Collaborators) : Option (String × String) :=
  match c.refreshMatches with
  | none => none
  | some (.ok true) => none
  | some (.ok false) => some (codeQualificationChanged,
      "authoritative qualification facts changed before reality exit")
  | some (.error (.qualificationResolutionError message)) =>
    some (codeQualificationChanged, message)
  | some (.error e) =>
    some (codeQualificationChanged, s!"qualification final revalidation failed: {e.message}")

/-- The first gate that refuses the dispatch, with its code and reason.  An exception of
the governance evaluation is not handled. -/
def refusal (c : Collaborators) (permit : InvocationPermit) :
    Result (Option (String × String)) :=
  match c.qualificationFailure with
  | some failure => .ok (some failure)
  | none => do
    let current ← c.evaluateGovernance
    return (governancePermitFailure permit current).or (dispatchFailure c.commitDispatch)

/-- How often the slot is released by one clean-up. -/
def releaseSlot (c : Collaborators) (started : Bool) : Result Nat :=
  match started, c.completeAction with
  | true, some completed => completed.map (fun _ => 1)
  | _, _ => .ok 0

/-- An exception leaves `execute` before the provider call. -/
def Escapes (c : Collaborators) (permit : InvocationPermit) : Prop :=
  (c.registryGet.isOk = false ∧ ∃ e, c.completeAction = some (.error e)) ∨
  (c.registryGet.isOk = true ∧ (c.refusal permit).isOk = false)

/-- The slot of a side effect is released once exactly when `complete_action` returns. -/
theorem releaseSlot_eq_one {c : Collaborators} :
    c.releaseSlot true = .ok 1 ↔ c.completeAction = some (.ok ()) := by
  unfold releaseSlot
  cases c.completeAction with
  | none => simp
  | some completed => cases completed <;> simp [Except.map]

theorem releaseSlot_eq_error {c : Collaborators} {e : PyError} :
    c.releaseSlot true = .error e ↔ c.completeAction = some (.error e) := by
  unfold releaseSlot
  cases c.completeAction with
  | none => simp
  | some completed => cases completed <;> simp [Except.map]

theorem releaseSlot_cases (c : Collaborators) :
    c.releaseSlot true = .ok 1 ∨ c.releaseSlot true = .ok 0 ∨ ∃ e, c.releaseSlot true = .error e := by
  unfold releaseSlot
  cases c.completeAction with
  | none => exact .inr (.inl rfl)
  | some completed =>
    cases completed with
    | ok _ => exact .inl rfl
    | error e => exact .inr (.inr ⟨e, rfl⟩)

end Collaborators

/-- What an execution leaves behind. -/
structure ExecutionEnd (σ : Type) where
  store : σ
  slotTaken : Bool := false
  released : Nat := 0
  invoked : Bool := false
  returned : Bool := true

namespace ExecutionStore

variable {σ : Type} (ops : ExecutionStore σ)

/-- `execute` from the accounting of the action on.  What follows the provider call is
`resume`. -/
def executePrecommitted (now : Time) (st : σ) (request : CapabilityRequest) (providerId : String)
    (records : ExecutionRecordIds) (sideEffect : Bool) (permit : InvocationPermit)
    (c : Collaborators) : ExecutionEnd σ :=
  match c.recordAction with
  | .error _ => { store := st }
  | .ok () => match c.registryGet with
    | .error _ => match c.releaseSlot sideEffect with
      | .ok released => { store := st, slotTaken := sideEffect, released }
      | .error _ => { store := st, slotTaken := sideEffect, returned := false }
    | .ok () => match c.refusal permit with
      | .error _ => { store := st, slotTaken := sideEffect, returned := false }
      | .ok (some (code, reason)) =>
        -- The abort swallows what `complete_action` raises.
        let released := (c.releaseSlot sideEffect).toOption.getD 0
        match ops.abortPreinvocationRecords now st request providerId records code reason with
        | .ok aborted => { store := aborted, slotTaken := sideEffect, released }
        | .error _ => { store := st, slotTaken := sideEffect, released }
      | .ok none => match c.releaseSlot sideEffect with
        | .ok released =>
          { store := st, slotTaken := sideEffect, released, invoked := true,
            returned := c.invoke ≠ .cancelled }
        | .error _ =>
          { store := st, slotTaken := sideEffect, invoked := true, returned := false }

/-- The records of a precommit are stored as cancelled. -/
structure Cancelled (st : σ) (records : ExecutionRecordIds) : Prop where
  step : ∃ id, records.stepId = some id ∧ (ops.getStep st id).map Step.status = some .cancelled
  attempt : ∃ id, records.attemptId = some id ∧
    (ops.getAttempt st id).map StepAttempt.status = some .cancelled
  action : ∃ id, records.actionId = some id ∧
    (ops.get st .action id : Option Action).map Action.status = some "cancelled"

/-- Without a provider call nothing stays in flight, and with one the slot is released
once. -/
structure NoOrphan (records : ExecutionRecordIds) (e : ExecutionEnd σ) : Prop where
  aborted : e.returned = true → e.invoked = false →
    ops.Cancelled e.store records ∧ (e.slotTaken = true → 0 < e.released)
  released : e.invoked = true → e.slotTaken = true → e.released = 1

/-! ## The records after the precommit and after the abort -/

variable {ops} {now later : Time} {st st' aborted : σ} {request : CapabilityRequest}
  {providerId code reason : String} {records : ExecutionRecordIds}

/-- The records of a precommit are stored under their identifiers, the Step as running. -/
structure Running (ops : ExecutionStore σ) (st : σ) (records : ExecutionRecordIds)
    (sid aid action : String) : Prop where
  records_eq : records = ⟨some sid, some aid, some action⟩
  step : ∃ step, ops.getStep st sid = some step ∧ step.id = sid ∧ step.status = .running
  attempt : ∃ attempt, ops.getAttempt st aid = some attempt ∧ attempt.id = aid

theorem getStep_saveStep {v : Step} (h : ops.saveStep now st v = .ok st') :
    ops.getStep st' v.id = some v := by
  obtain ⟨-, rfl⟩ := saveChecked_eq_ok.mp h
  exact (ops.get_save_self st .step v v.id).trans (if_pos rfl)

theorem getStep_saveAttempt {v : StepAttempt} (h : ops.saveAttempt now st v = .ok st')
    (id : String) : ops.getStep st' id = ops.getStep st id := by
  obtain ⟨-, rfl⟩ := saveChecked_eq_ok.mp h
  exact ops.get_save_of_ne st .attempt .step v id (by decide)

theorem getStep_saveAction {v : Action} (h : ops.saveAction now st v = .ok st') (id : String) :
    ops.getStep st' id = ops.getStep st id := by
  obtain ⟨-, rfl⟩ := saveChecked_eq_ok.mp h
  exact ops.get_save_of_ne st .action .step v id (by decide)

theorem getAttempt_saveAttempt {v : StepAttempt} (h : ops.saveAttempt now st v = .ok st') :
    ops.getAttempt st' v.id = some v := by
  obtain ⟨-, rfl⟩ := saveChecked_eq_ok.mp h
  exact (ops.get_save_self st .attempt v v.id).trans (if_pos rfl)

theorem getAttempt_saveAction {v : Action} (h : ops.saveAction now st v = .ok st') (id : String) :
    ops.getAttempt st' id = ops.getAttempt st id := by
  obtain ⟨-, rfl⟩ := saveChecked_eq_ok.mp h
  exact ops.get_save_of_ne st .action .attempt v id (by decide)

theorem get_saveAction {v : Action} (h : ops.saveAction now st v = .ok st') :
    ops.get st' .action v.id = some v := by
  obtain ⟨-, rfl⟩ := saveChecked_eq_ok.mp h
  exact (ops.get_save_self st .action v v.id).trans (if_pos rfl)

theorem running_of_precommit {p : Precommit}
    (h : ops.precommitSideEffect now st request p = .ok (records, st')) :
    ∃ sid aid action, Running ops st' records sid aid action := by
  unfold precommitSideEffect at h
  split at h
  · obtain ⟨s₁, h₁, h⟩ := Result.bind_eq_ok.mp h
    obtain ⟨s₂, h₂, h⟩ := Result.bind_eq_ok.mp h
    obtain ⟨s₃, h₃, h⟩ := Result.bind_eq_ok.mp h
    obtain ⟨s₄, h₄, h⟩ := Result.bind_eq_ok.mp h
    obtain ⟨hrecords, rfl⟩ := Prod.mk.inj (Result.pure_eq_ok.mp h)
    have hstep := getStep_saveStep h₂
    have hattempt := getAttempt_saveAttempt h₃
    rw [← getStep_saveAttempt h₃, ← getStep_saveAction h₄] at hstep
    rw [← getAttempt_saveAction h₄] at hattempt
    refine ⟨_, _, _, hrecords.symm, ⟨_, hstep, rfl, ?_⟩, ⟨_, hattempt, rfl⟩⟩
    dsimp only
    split <;> rfl
  · exact absurd h (by simp)

/-- An abort whose writes succeed leaves the records cancelled. -/
theorem cancelled_of_abort {sid aid action : String} (hrunning : Running ops st records sid aid action)
    (h : ops.abortPreinvocationRecords now st request providerId records code reason =
      .ok aborted) : ops.Cancelled aborted records := by
  obtain ⟨rfl, ⟨step, hstep, hsid, -⟩, ⟨attempt, hattempt, haid⟩⟩ := hrunning
  unfold abortPreinvocationRecords at h
  simp only [hstep, Option.isSome_some, Bool.true_and] at h
  split_ifs at h with hmissing
  obtain ⟨s₁, h₁, h⟩ := Result.bind_eq_ok.mp h
  obtain ⟨s₂, h₂, h₃⟩ := Result.bind_eq_ok.mp h
  have hfound : (given (some aid)).bind (ops.getAttempt st) = some attempt := by
    cases hgiven : given (some aid) with
    | none => exact absurd (by rw [hgiven]; rfl) hmissing
    | some id =>
      obtain rfl := Option.some.inj (given_eq_some hgiven)
      exact hattempt
  rw [hfound] at h₂
  have hcancelledStep := getStep_saveStep h₁
  have hcancelledAttempt := getAttempt_saveAttempt h₂
  rw [← getStep_saveAttempt h₂, ← getStep_saveAction h₃] at hcancelledStep
  rw [← getAttempt_saveAction h₃] at hcancelledAttempt
  refine ⟨⟨step.id, by rw [hsid], ?_⟩, ⟨attempt.id, by rw [haid], ?_⟩, ⟨action, rfl, ?_⟩⟩
  · rw [hcancelledStep]
    rfl
  · rw [hcancelledAttempt]
    rfl
  · rw [get_saveAction h₃]
    rfl

theorem not_cancelled_of_running {sid aid action : String}
    (hrunning : Running ops st records sid aid action) : ¬ ops.Cancelled st records := by
  obtain ⟨rfl, ⟨step, hstep, -, hstatus⟩, -⟩ := hrunning
  rintro ⟨⟨id, hid, hcancelled⟩, -, -⟩
  obtain rfl := Option.some.inj hid
  rw [hstep, Option.map_some, hstatus] at hcancelled
  exact absurd hcancelled (by simp)

end ExecutionStore
end PortableRuntime
