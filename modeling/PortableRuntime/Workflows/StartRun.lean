import PortableRuntime.Protocol.Restarting
import PortableRuntime.Stores.TerminalPairs
import PortableRuntime.Workflows.Context

/-!
# Starting a Run

A Run is started with two saves: the new Run, and its Work set running.  Each save is judged
by itself, against the state with the new object, and no transaction holds the two together.
A completed Work cannot be set running, so the second save fails where the first has already
stored the Run.
-/

namespace PortableRuntime

/-- What the clock answers while a Run is started: for the start, for the creation of the Run,
and for the validation of each save. -/
structure StartRunClock where
  now : Time
  created : Time
  savingRun : Time
  savingWork : Time

/-- The exception a start ends with. -/
inductive StartRunError where
  | keyError (message : String)
  | refused (e : PyError)

namespace Runtime

def newRun (clock : StartRunClock) (id workId workflowId : String) : Run :=
  { id, createdAt := clock.created, workId, workflowId, status := .running,
    startedAt := some clock.now }

/-- `start_run`: what it answers with, and the store it leaves. -/
def startRun (clock : StartRunClock) (st : MemoryStore) (id workId workflowId : String) :
    Except StartRunError Run × MemoryStore :=
  match st.getWork workId with
  | none => (.error (.keyError s!"unknown work: {workId}"), st)
  | some work =>
    let run := newRun clock id workId workflowId
    match st.saveModel clock.savingRun .run run with
    | .error e => (.error (.refused e), st)
    | .ok st' =>
      match st'.saveModel clock.savingWork .work (work.restarted clock.now) with
      | .error e => (.error (.refused e), st')
      | .ok st'' => (.ok run, st'')

/-- A start that raises leaves the Works and the Runs as they were. -/
def AllOrNothing (clock : StartRunClock) (st : MemoryStore) (id workId workflowId : String) :
    Prop :=
  ∀ e, (startRun clock st id workId workflowId).1 = .error e →
    (startRun clock st id workId workflowId).2.records .work = st.records .work ∧
    (startRun clock st id workId workflowId).2.records .run = st.records .run

/-- The identity of the new Run is neither that nor the key of a stored one. -/
def NewId (st : MemoryStore) (id : String) : Prop :=
  ∀ key run, st.get .run key = some run → key ≠ id ∧ (run : Run).id ≠ id

/-- The state with the new Run. -/
def withRun (clock : StartRunClock) (st : MemoryStore) (id workId workflowId : String) : State :=
  st.exportState.merge .run [newRun clock id workId workflowId]

/-- With one clock reading this is the start that the moves of shared Runs take. -/
theorem startRun_store (now : Time) (st : MemoryStore) (id workId workflowId : String) :
    (startRun ⟨now, now, now, now⟩ st id workId workflowId).2 =
      st.startRun now id workId workflowId := by
  rw [startRun, MemoryStore.startRun]
  cases hwork : st.getWork workId with
  | none => rfl
  | some work =>
    show _ = match st.saveModel now .run (newRun ⟨now, now, now, now⟩ id workId workflowId) with
      | .error _ => st
      | .ok st' => match st'.saveModel now .work (work.restarted now) with
        | .error _ => st'
        | .ok st'' => st''
    cases hrun : st.saveModel now .run (newRun ⟨now, now, now, now⟩ id workId workflowId) with
    | error e => simp only [hrun]
    | ok st' =>
      simp only [hrun]
      cases st'.saveModel now .work (work.restarted now) <;> rfl

section Start

variable {clock : StartRunClock} {st : MemoryStore} {id workId workflowId : String} {work : Work}

theorem exportState_save_newRun (hnew : NewId st id) :
    (st.save .run (newRun clock id workId workflowId)).exportState =
      withRun clock st id workId workflowId := by
  funext k
  by_cases hk : k = .run
  · subst hk
    have hnone : st.get .run id = none := by
      by_contra hsome
      obtain ⟨run, hrun⟩ := Option.ne_none_iff_exists'.mp hsome
      exact (hnew id run hrun).1 rfl
    have hkept : (st.exportState .run).filter (fun m => !([newRun clock id workId workflowId].map
        (Kind.identifier .run)).contains (Kind.identifier .run m)) = st.exportState .run := by
      rw [List.filter_eq_self]
      intro run hrun
      obtain ⟨key, hkey⟩ := MemoryStore.mem_exportState.mp hrun
      have hne : run.id ≠ id := (hnew key run hkey).2
      simp [Kind.identifier, newRun, hne]
    rw [withRun, State.merge, Function.update_self, mergeBucket, hkept, MemoryStore.exportState,
      MemoryStore.save, MemoryStore.records_put_self]
    have hlast : ((st.records .run).set id (newRun clock id workId workflowId)).values =
        (st.records .run).values ++ [newRun clock id workId workflowId] := by
      rw [Dict.values, Dict.entries_set_of_not_mem hnone, List.map_append]
      rfl
    exact hlast
  · rw [withRun, State.merge, Function.update_of_ne hk]
    exact MemoryStore.exportState_put_of_ne st hk _ _

theorem startRun_unknown (hwork : st.getWork workId = none) :
    startRun clock st id workId workflowId =
      (.error (.keyError s!"unknown work: {workId}"), st) := by
  rw [startRun, hwork]

/-- A refused Run leaves the store as it was. -/
theorem startRun_refused (hwork : st.getWork workId = some work)
    (hrefused : ¬ Valid clock.savingRun (withRun clock st id workId workflowId)) :
    (startRun clock st id workId workflowId).2 = st := by
  rw [startRun, hwork]
  dsimp only
  cases hrun : st.saveModel clock.savingRun .run (newRun clock id workId workflowId) with
  | error e => rfl
  | ok st' => exact absurd (MemoryStore.saveChecked_eq_ok.mp hrun).2.1 hrefused

/-- Where the Run is accepted, the start returns exactly when its Work can be set running. -/
theorem startRun_accepted (hnew : NewId st id) (hwork : st.getWork workId = some work)
    (hvalid : Valid clock.savingRun (withRun clock st id workId workflowId)) :
    (Valid clock.savingWork ((withRun clock st id workId workflowId).restarted work clock.now) ∧
      (startRun clock st id workId workflowId).1 = .ok (newRun clock id workId workflowId)) ∨
    (¬ Valid clock.savingWork
        ((withRun clock st id workId workflowId).restarted work clock.now) ∧
      (∃ e, (startRun clock st id workId workflowId).1 = .error e) ∧
      (startRun clock st id workId workflowId).2 =
        st.save .run (newRun clock id workId workflowId)) := by
  have hrun : st.saveModel clock.savingRun .run (newRun clock id workId workflowId) =
      .ok (st.save .run (newRun clock id workId workflowId)) :=
    MemoryStore.saveChecked_eq_ok.mpr ⟨rfl, hvalid, rfl⟩
  rw [startRun, hwork]
  dsimp only
  rw [hrun]
  dsimp only
  have hgate : ∀ st', (st.save .run (newRun clock id workId workflowId)).saveModel
      clock.savingWork .work (work.restarted clock.now) = .ok st' ↔
      Valid clock.savingWork ((withRun clock st id workId workflowId).restarted work clock.now) ∧
        (st.save .run (newRun clock id workId workflowId)).save .work
          (work.restarted clock.now) = st' := by
    intro st'
    rw [← exportState_save_newRun hnew]
    exact MemoryStore.saveChecked_eq_ok.trans
      ⟨fun h => h.2, fun h => ⟨by simp [MemoryStore.terminalWrite, Work.restarted], h⟩⟩
  cases hsave : (st.save .run (newRun clock id workId workflowId)).saveModel
      clock.savingWork .work (work.restarted clock.now) with
  | ok st' => exact .inl ⟨((hgate st').mp hsave).1, rfl⟩
  | error e =>
    refine .inr ⟨fun hvalid' => ?_, ⟨_, rfl⟩, rfl⟩
    have hok := (hgate _).mpr ⟨hvalid', rfl⟩
    rw [hsave] at hok
    exact absurd hok (by simp)

end Start

/-- A start is all or nothing exactly when its Work is unknown, or the validator refuses the new
Run, or the Work is not completed and the state with the new Run is valid at both saves. -/
theorem startRun_allOrNothing_iff (clock : StartRunClock) {st : MemoryStore} {id : String}
    (hnew : NewId st id) (workId workflowId : String) :
    AllOrNothing clock st id workId workflowId ↔
      ∀ work, st.getWork workId = some work →
        Valid clock.savingRun (withRun clock st id workId workflowId) →
        work.status ≠ .completed ∧
          Valid clock.savingWork (withRun clock st id workId workflowId) := by
  cases hwork : st.getWork workId with
  | none =>
    refine iff_of_true (fun e he => ?_) (fun work h => absurd h (by simp))
    rw [startRun_unknown hwork]
    exact ⟨rfl, rfl⟩
  | some work =>
    by_cases hvalid : Valid clock.savingRun (withRun clock st id workId workflowId)
    · have hmem : work ∈ (withRun clock st id workId workflowId).works := by
        rw [State.works, withRun, State.merge, Function.update_of_ne (by decide)]
        exact MemoryStore.mem_exportState.mpr ⟨workId, hwork⟩
      have hsecond := @State.valid_restarted_iff _ work clock.now clock.savingWork _
        hvalid hmem
      have hcondition : (∀ work', some work = some work' →
          Valid clock.savingRun (withRun clock st id workId workflowId) →
          work'.status ≠ .completed ∧
            Valid clock.savingWork (withRun clock st id workId workflowId)) ↔
          Valid clock.savingWork
            ((withRun clock st id workId workflowId).restarted work clock.now) := by
        rw [hsecond]
        constructor
        · intro h
          exact h work rfl hvalid
        · intro h work' hsame _
          obtain rfl := Option.some.inj hsame
          exact h
      rw [hcondition]
      rcases startRun_accepted hnew hwork hvalid with ⟨hok, hreturns⟩ | ⟨hfails, ⟨e, he⟩, hstore⟩
      · refine iff_of_true (fun e he => ?_) hok
        rw [hreturns] at he
        exact absurd he (by simp)
      · refine iff_of_false (fun h => ?_) hfails
        -- The new Run is stored, and it was not stored before.
        have hruns := (h e he).2
        rw [hstore, MemoryStore.save, MemoryStore.records_put_self] at hruns
        have hstored : (st.records .run).get? id = some (newRun clock id workId workflowId) := by
          rw [← hruns]
          exact Dict.get?_set_self _ _ _
        exact (hnew id _ hstored).1 rfl
    · refine iff_of_true (fun e he => ?_) (fun work' _ h => absurd h hvalid)
      rw [startRun_refused hwork hvalid]
      exact ⟨rfl, rfl⟩

/-! ## A completed Work and an open one -/

def clockAt (now : Time) : StartRunClock := ⟨now, now, now, now⟩

/-- The store after a Work has been completed with its Run. -/
def completedStore : MemoryStore :=
  Prog.execAll (MemoryStore.step (fun _ => "")) .empty MemoryStore.completing

/-- An open Work gets its Run, and is set running. -/
theorem startRun_openWork :
    AllOrNothing (clockAt 2) (MemoryStore.empty.save .work MemoryStore.openWork) "run_2" "work_1"
      "generic-task" := by
  refine (startRun_allOrNothing_iff (clockAt 2) ?_ "work_1" "generic-task").mpr ?_
  · intro key run hrun
    exact absurd hrun (by simp [MemoryStore.get, MemoryStore.save, MemoryStore.put,
      MemoryStore.empty])
  · intro work hwork _
    have hopen : (MemoryStore.empty.save .work MemoryStore.openWork).getWork "work_1" =
        some MemoryStore.openWork := rfl
    obtain rfl := Option.some.inj (hopen.symm.trans hwork)
    exact ⟨by decide, by decide⟩

/-- The start for a completed Work raises, and its Run stays behind. -/
theorem startRun_completedWork :
    ¬ ∀ (clock : StartRunClock) (ps : List (Prog (Time × MemoryStore.Op)))
        (id workId workflowId : String),
      NewId (Prog.execAll (MemoryStore.step (fun _ => "")) .empty ps) id →
      AllOrNothing clock (Prog.execAll (MemoryStore.step (fun _ => "")) .empty ps) id workId
        workflowId := by
  intro h
  have hnew : NewId completedStore "run_2" := by
    have hids : ∀ entry ∈ (completedStore.records .run).entries,
        entry.1 ≠ "run_2" ∧ (entry.2 : Run).id ≠ "run_2" := by
      decide
    intro key run hrun
    exact hids (key, run) (Dict.get?_eq_some.mp hrun)
  have hraises : (startRun (clockAt 2) completedStore "run_2" "work_1" "generic-task").1.isOk =
      false := by
    decide
  have hleft : ((startRun (clockAt 2) completedStore "run_2" "work_1" "generic-task").2.get .run
      "run_2").isSome = true := by
    decide
  cases houtcome : (startRun (clockAt 2) completedStore "run_2" "work_1" "generic-task").1 with
  | ok run =>
    rw [houtcome] at hraises
    exact absurd hraises (by simp [Except.isOk, Except.toBool])
  | error e =>
    have hruns : (startRun (clockAt 2) completedStore "run_2" "work_1" "generic-task").2.records
        .run = completedStore.records .run :=
      (h (clockAt 2) MemoryStore.completing "run_2" "work_1" "generic-task" hnew e houtcome).2
    rw [MemoryStore.get, hruns] at hleft
    exact absurd hleft (by decide)

end Runtime
end PortableRuntime
