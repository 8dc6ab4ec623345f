import PortableRuntime.Stores.Calls
import PortableRuntime.Workflows.Context

/-!
# The status machine of a Run

A transition is checked against the copy it is made from.  Where every accepted save is made from
a copy whose status is still the stored one, the stored statuses follow the table.
-/

namespace PortableRuntime

theorem isValidRunTransition_refl (status : RunStatus) : isValidRunTransition status status = true := by
  simp [isValidRunTransition]

theorem isValidRunTransition_iff {a b : RunStatus} :
    isValidRunTransition a b = true ↔ a = b ∨ b ∈ a.allowedTransitions := by
  rw [isValidRunTransition, Bool.or_eq_true, decide_eq_true_eq, List.contains_iff_mem]

/-- A terminal status has no way out. -/
theorem eq_of_terminal {a b : RunStatus} (hterminal : a.isTerminal = true)
    (h : isValidRunTransition a b = true) : b = a := by
  cases a <;> simp_all [RunStatus.isTerminal, isValidRunTransition, RunStatus.allowedTransitions]

/-! ## What a call writes -/

theorem WorkflowContext.call_status {now : Time} {ctx ctx' : WorkflowContext} {call : ContextCall}
    {written : Run} (h : ctx.call now call = .ok (ctx', some written)) :
    isValidRunTransition ctx.run.status written.status = true := by
  have htransition {toStatus : RunStatus} {currentStep : Option String}
      (h : ctx.transitionRun now toStatus currentStep = .ok (ctx', some written)) :
      isValidRunTransition ctx.run.status written.status = true := by
    rw [transitionRun, Result.check_eq_ok, Result.check_eq_ok, validateRunTransition,
      guardValue_eq_ok, guardValue_eq_ok] at h
    obtain ⟨-, hvalid, h⟩ := h
    simp only [Result.pure_eq_ok, Prod.mk.injEq, Option.some.injEq] at h
    rw [← h.2]
    exact hvalid
  have hsame (hstatus : written.status = ctx.run.status) :
      isValidRunTransition ctx.run.status written.status = true := by
    rw [hstatus]
    exact isValidRunTransition_refl _
  cases call with
  | transitionRun toStatus currentStep => exact htransition h
  | setStep step =>
    simp only [WorkflowContext.call, setStep, Except.ok.injEq, Prod.mk.injEq,
      Option.some.injEq] at h
    exact hsame (by rw [← h.2])
  | storeCache key status =>
    simp only [WorkflowContext.call, storeCache, Except.ok.injEq] at h
    split at h
    · simp at h
    · simp only [Prod.mk.injEq, Option.some.injEq] at h
      exact hsame (by rw [← h.2])
  | resume =>
    simp only [WorkflowContext.call, resume] at h
    split_ifs at h
    · exact htransition h
    · simp at h
  | clearCache =>
    simp only [WorkflowContext.call, clearCache, Except.ok.injEq] at h
    split_ifs at h
    · simp only [Prod.mk.injEq, Option.some.injEq] at h
      exact hsame (by rw [← h.2])
    · simp at h

namespace MemoryStore

variable {now : Time} {st st' : MemoryStore} {run : Run} {id : String}

theorem getRun_save (st : MemoryStore) (run : Run) (id : String) :
    (st.save .run run).getRun id = if id = run.id then some run else st.getRun id := by
  rw [getRun, save, get_put_self]
  rfl

theorem getRun_saveModel (h : st.saveModel now .run run = .ok st') :
    st'.getRun id = if id = run.id then some run else st.getRun id := by
  obtain ⟨-, -, rfl⟩ := saveModel_eq_ok (by decide) h
  exact getRun_save st run id

theorem getRun_saveModel_work {work : Work} (h : st.saveModel now .work work = .ok st') :
    st'.getRun id = st.getRun id := by
  obtain ⟨-, -, rfl⟩ := saveModel_eq_ok (by decide) h
  exact get_put_of_ne st (by decide) _ _ _

/-- A save leaves the Runs alone, or it is accepted and writes its Run. -/
theorem getRun_saveRun (now : Time) (st : MemoryStore) (run : Run) (id : String) :
    (st.saveRun now run).getRun id = st.getRun id ∨
      (st.saveModel now .run run).isOk = true ∧ id = run.id ∧
        (st.saveRun now run).getRun id = some run := by
  rw [saveRun]
  cases hsave : st.saveModel now .run run with
  | error e => exact .inl rfl
  | ok st' =>
    by_cases hid : id = run.id
    · exact .inr ⟨rfl, hid, (getRun_saveModel hsave).trans (if_pos hid)⟩
    · exact .inl ((getRun_saveModel hsave).trans (if_neg hid))

theorem getRun_startRun (now : Time) (st : MemoryStore) (newId workId workflowId id : String) :
    (st.startRun now newId workId workflowId).getRun id = st.getRun id ∨ id = newId ∧
      ∃ run, (st.startRun now newId workId workflowId).getRun id = some run := by
  rw [startRun]
  cases hwork : st.getWork workId with
  | none => exact .inl rfl
  | some work =>
    simp only
    cases hrun : st.saveModel now .run (_ : Run) with
    | error e => exact .inl rfl
    | ok st' =>
      have hwritten : st'.getRun id = st.getRun id ∨ id = newId ∧
          ∃ run, st'.getRun id = some run := by
        by_cases hid : id = newId
        · exact .inr ⟨hid, _, (getRun_saveModel hrun).trans (if_pos hid)⟩
        · exact .inl ((getRun_saveModel hrun).trans (if_neg hid))
      simp only
      cases hsave : st'.saveModel now .work (_ : Work) with
      | error e => exact hwritten
      | ok st'' =>
        simp only [getRun_saveModel_work hsave]
        exact hwritten

end MemoryStore

namespace SharedRuns

variable {s : SharedRuns} {id : String}

/-! ## Copies that are not stale -/

/-- The save, if it is accepted, finds a Run with the status of the copy it was made from. -/
def Fresh (now : Time) (st : MemoryStore) (copy written : Run) : Prop :=
  (st.saveModel now .run written).isOk = true →
    ∀ stored ∈ st.getRun written.id, stored.status = copy.status

/-- A call of a context saves nothing, or saves from a copy that is not stale. -/
def ContextFresh (now : Time) (st : MemoryStore) (copy : Run) :
    Result (WorkflowContext × Option Run) → Prop
  | .ok (_, some written) => Fresh now st copy written
  | _ => True

/-- A call of the runtime, which does not check the table itself, also finds a status that may go
to the one it writes. -/
def RuntimeFresh (now : Time) (st : MemoryStore) (copy : Run) : Option Run → Prop
  | none => True
  | some written => Fresh now st copy written ∧ ((st.saveModel now .run written).isOk = true →
      isValidRunTransition copy.status written.status = true)

/-- An accepted commit finds a Run that may still go to `succeeded`. -/
def CommitFresh (now : Time) (st : MemoryStore) : CompletionAuthority.Phase → Prop
  | .proved q work run => (st.commitTerminal now work run q.refs).isOk = true →
      ∀ stored ∈ st.getRun run.id, isValidRunTransition stored.status .succeeded = true
  | _ => True

/-- What the calls have to find; the identity of a new Run is new. -/
def Current (s : SharedRuns) : Move → Prop
  | .context c now call =>
    ∀ ctx ∈ s.contexts c, ContextFresh now s.store ctx.run (ctx.call now call)
  | .authorize c now => CommitFresh now s.store (s.completing c)
  | .startRun _ id _ _ => s.store.getRun id = none
  | .write caller now =>
    ∀ held ∈ s.holding caller, RuntimeFresh now s.store held.2 (held.1.written now held.2)
  | .openContext _ _ _ | .completeWithProofs _ _ | .read _ _ _ => True

/-! ## One step -/

/-- The Run under the identity is as it was, or it is written with a status that its old one may
go to. -/
def StepsTo (st st' : MemoryStore) (id : String) : Prop :=
  st'.getRun id = st.getRun id ∨ ∃ written, st'.getRun id = some written ∧
    ∀ stored ∈ st.getRun id, isValidRunTransition stored.status written.status = true

theorem stepsTo_saveRun {now : Time} {st : MemoryStore} {copy written : Run}
    (hfresh : Fresh now st copy written)
    (hvalid : (st.saveModel now .run written).isOk = true →
      isValidRunTransition copy.status written.status = true) :
    StepsTo st (st.saveRun now written) id := by
  rcases MemoryStore.getRun_saveRun now st written id with hsame | ⟨hok, rfl, hget⟩
  · exact .inl hsame
  · refine .inr ⟨written, hget, fun stored hstored => ?_⟩
    rw [hfresh hok stored hstored]
    exact hvalid hok

theorem stepsTo_authorize {now : Time} {st : MemoryStore} {phase : CompletionAuthority.Phase}
    (hC : CommitFresh now st phase) :
    StepsTo st (CompletionAuthority.authorize now st phase).2 id := by
  cases phase with
  | proved q work run =>
    rw [CompletionAuthority.authorize]
    cases hcommit : st.commitTerminal now work run q.refs with
    | error e => exact .inl rfl
    | ok st' =>
      obtain ⟨⟨-, hsucceeded⟩, -, -, -, rfl⟩ := MemoryStore.commitTerminal_eq_ok.mp hcommit
      have hget := MemoryStore.getRun_save (st.save .work work) run id
      by_cases hid : id = run.id
      · subst hid
        refine .inr ⟨run, hget.trans (if_pos rfl), fun stored hstored => ?_⟩
        rw [hsucceeded]
        exact hC (by rw [hcommit]; rfl) stored hstored
      · exact .inl (hget.trans (if_neg hid))
  | unconsumed q work run =>
    rw [CompletionAuthority.authorize]
    split <;> exact .inl rfl
  | readRun q work run =>
    rw [CompletionAuthority.authorize]
    split <;> exact .inl rfl
  | readWork q work =>
    rw [CompletionAuthority.authorize]
    split <;> exact .inl rfl
  | called q =>
    rw [CompletionAuthority.authorize]
    split <;> exact .inl rfl
  | idle => exact .inl rfl
  | returned q answer => exact .inl rfl

theorem stepsTo_step (m : Move) (hC : s.Current m) (id : String) :
    StepsTo s.store (s.step m).store id := by
  cases m with
  | openContext c work run => exact .inl rfl
  | context c now call =>
    simp only [step, context]
    cases hctx : s.contexts c with
    | none => exact .inl rfl
    | some ctx =>
      have hC : ContextFresh now s.store ctx.run (ctx.call now call) := hC ctx hctx
      cases hcall : ctx.call now call with
      | error e =>
        simp only [hcall]
        exact .inl rfl
      | ok r =>
        obtain ⟨ctx', written⟩ := r
        rw [hcall] at hC
        simp only [hcall]
        cases written with
        | none => exact .inl rfl
        | some written => exact stepsTo_saveRun hC (fun _ => WorkflowContext.call_status hcall)
  | completeWithProofs c refs =>
    left
    rw [step]
    split <;> rfl
  | authorize c now =>
    have hstore : (s.step (.authorize c now)).store =
        (CompletionAuthority.authorize now s.store (s.completing c)).2 := by
      simp only [step, authorize]
      split <;> rfl
    rw [hstore]
    exact stepsTo_authorize hC
  | startRun now newId workId workflowId =>
    rcases MemoryStore.getRun_startRun now s.store newId workId workflowId id with
      hsame | ⟨rfl, run, hget⟩
    · exact .inl hsame
    · refine .inr ⟨run, hget, fun stored hstored => ?_⟩
      have hnone : s.store.getRun id = none := hC
      rw [hnone] at hstored
      exact absurd hstored (by simp)
  | read caller call runId =>
    left
    rw [step]
    split <;> rfl
  | write caller now =>
    simp only [step]
    cases hheld : s.holding caller with
    | none => exact .inl rfl
    | some held =>
      obtain ⟨call, run⟩ := held
      have hC : RuntimeFresh now s.store run (call.written now run) := hC (call, run) hheld
      cases hwritten : call.written now run with
      | none =>
        simp only [hwritten]
        exact .inl rfl
      | some written =>
        rw [hwritten] at hC
        simp only [hwritten]
        exact stepsTo_saveRun hC.1 hC.2

/-! ## Runs -/

def statusOf (s : SharedRuns) (id : String) : Option RunStatus := (s.store.getRun id).map Run.status

theorem status_step {m : Move} (hC : s.Current m) {a : RunStatus} (ha : s.statusOf id = some a) :
    ∃ b, (s.step m).statusOf id = some b ∧ isValidRunTransition a b = true := by
  obtain ⟨stored, hstored, rfl⟩ := Option.map_eq_some_iff.mp ha
  rcases stepsTo_step m hC id with hsame | ⟨written, hget, hvalid⟩
  · refine ⟨stored.status, ?_, isValidRunTransition_refl _⟩
    rw [statusOf, hsame, hstored]
    rfl
  · refine ⟨written.status, ?_, hvalid stored hstored⟩
    rw [statusOf, hget]
    rfl

/-- A terminal status stays through a run. -/
theorem terminal_along {moves : List Move} (hC : Along step Current s moves) {a : RunStatus}
    (hterminal : a.isTerminal = true) (ha : s.statusOf id = some a) :
    (run step s moves).statusOf id = some a := by
  induction moves generalizing s with
  | nil => exact ha
  | cons m rest ih =>
    obtain ⟨b, hb, hvalid⟩ := status_step hC.1 ha
    rw [eq_of_terminal hterminal hvalid] at hb
    exact ih hC.2 hb

/-- In every run whose saves are made from copies that are not stale, consecutive statuses of a
Run are equal or an edge of the table, and a terminal status is the last one. -/
theorem run_status_machine (s : SharedRuns) (moves : List Move)
    (hC : Along step Current s moves) (id : String) :
    (∀ before m, before ++ [m] <+: moves → ∀ a b, (run step s before).statusOf id = some a →
      (run step s (before ++ [m])).statusOf id = some b → a = b ∨ b ∈ a.allowedTransitions) ∧
    ∀ before a, before <+: moves → a.isTerminal = true →
      (run step s before).statusOf id = some a → (run step s moves).statusOf id = some a := by
  constructor
  · rintro before m ⟨rest, rfl⟩ a b ha hb
    obtain ⟨-, hm, -⟩ := along_append.mp (along_append.mp hC).1
    obtain ⟨b', hb', hvalid⟩ := status_step hm ha
    rw [run_append, run_cons, run_nil] at hb
    obtain rfl := Option.some.inj (hb'.symm.trans hb)
    exact isValidRunTransition_iff.mp hvalid
  · rintro before a ⟨rest, rfl⟩ hterminal ha
    rw [run_append]
    exact terminal_along (along_append.mp hC).2 hterminal ha

/-! ## A run that ends, and a stale context -/

instance (now : Time) (st : MemoryStore) (copy written : Run) :
    Decidable (Fresh now st copy written) :=
  inferInstanceAs (Decidable (_ → ∀ stored ∈ st.getRun written.id, stored.status = copy.status))

instance (now : Time) (st : MemoryStore) (copy : Run) (r : Result (WorkflowContext × Option Run)) :
    Decidable (ContextFresh now st copy r) :=
  match r with
  | .ok (_, some written) => inferInstanceAs (Decidable (Fresh now st copy written))
  | .ok (_, none) | .error _ => .isTrue trivial

instance (now : Time) (st : MemoryStore) (copy : Run) (written : Option Run) :
    Decidable (RuntimeFresh now st copy written) :=
  match written with
  | none => .isTrue trivial
  | some written => inferInstanceAs (Decidable (Fresh now st copy written ∧ (_ → _)))

instance (s : SharedRuns) (c : Nat) (now : Time) (call : ContextCall) :
    Decidable (s.Current (.context c now call)) :=
  inferInstanceAs (Decidable
    (∀ ctx ∈ s.contexts c, ContextFresh now s.store ctx.run (ctx.call now call)))

instance (s : SharedRuns) (caller : Nat) (now : Time) : Decidable (s.Current (.write caller now)) :=
  inferInstanceAs (Decidable
    (∀ held ∈ s.holding caller, RuntimeFresh now s.store held.2 (held.1.written now held.2)))

def sharedWork : Work := { id := "work_1", createdAt := 0, title := "", updatedAt := 0 }

def sharedRun : Run := { id := "run_1", createdAt := 0, workId := "work_1", status := .running }

def shared : SharedRuns :=
  { store := (MemoryStore.empty.save .work sharedWork).save .run sharedRun }

/-- A context waits and resumes, and the runtime cancels the Run. -/
def cancelling : List Move :=
  [.openContext 0 sharedWork sharedRun, .context 0 1 (.transitionRun .waiting none),
   .context 0 2 .resume, .context 0 3 (.setStep "verify"), .read 0 .cancel "run_1", .write 0 4]

/-- A later resume of the runtime finds it cancelled. -/
def resuming : List Move := [.read 0 .resume "run_1", .write 0 5]

theorem run_status_machine_resuming :
    (run step shared (cancelling ++ resuming)).statusOf "run_1" = some .cancelled :=
  (run_status_machine shared (cancelling ++ resuming)
    ⟨trivial, by decide, by decide, by decide, trivial, by decide,
      trivial, by decide, trivial⟩ "run_1").2 cancelling .cancelled
    (List.prefix_append _ _) rfl (by decide)

/-- A context that still holds the running Run sets a step after the cancellation. -/
theorem stale_setStep_revives :
    ¬ ∀ (s : SharedRuns) (moves : List Move) (id : String) (before : List Move) (m : Move),
      before ++ [m] <+: moves → ∀ a b, (run step s before).statusOf id = some a →
      (run step s (before ++ [m])).statusOf id = some b → a = b ∨ b ∈ a.allowedTransitions := by
  intro h
  have hrevives := h shared
    [.openContext 0 sharedWork sharedRun, .read 0 .cancel "run_1", .write 0 1,
     .context 0 2 (.setStep "verify")] "run_1"
    [.openContext 0 sharedWork sharedRun, .read 0 .cancel "run_1", .write 0 1]
    (.context 0 2 (.setStep "verify")) (List.prefix_refl _) .cancelled .running
    (by decide) (by decide)
  exact absurd hrevives (by decide)

end SharedRuns

end PortableRuntime
