import PortableRuntime.Core.AttemptNumbers
import PortableRuntime.Stores.StaleWorkers

/-!
# Runs of precommits on one store

Side effects and pure requests meet at one Step.  The numbers of its attempts stay in order
exactly while no pure request is recorded beside an attempt that already has a number.
-/

namespace PortableRuntime

/-! ## The two stores -/

def MemoryStore.attemptStore (digest : Json → String) : AttemptStore MemoryStore where
  toExecutionStore := (MemoryStore.leased digest).toExecutionStore
  transactional := true
  mem_attempts := by
    intro st a
    show a ∈ List.insertionSort _ _ ↔ _
    rw [List.mem_insertionSort, Dict.mem_values]
    rfl

def SqliteStore.attemptStore (digest : Json → String) : AttemptStore SqliteStore where
  toExecutionStore := (SqliteStore.leased digest).toExecutionStore
  transactional := true
  mem_attempts := by
    intro st a
    show a ∈ (List.insertionSort _ _).map Prod.snd ↔ _
    rw [List.mem_map]
    constructor
    · rintro ⟨e, he, rfl⟩
      exact ⟨e.1, Dict.get?_eq_some.mpr ((List.mem_insertionSort _).mp he)⟩
    · rintro ⟨id, hget⟩
      exact ⟨(id, a), (List.mem_insertionSort _).mpr (Dict.get?_eq_some.mp hget), rfl⟩

namespace AttemptStore

/-- From a store with distinct numbers, with fresh attempts and whatever writes fail: every
call of a run keeps the numbering exactly when every call is aligned. -/
theorem wellNumbered_iff_aligned {σ : Type} (s : AttemptStore σ) {start : σ}
    {calls : List (PrecommitCall σ)} (hstart : s.Distinct start)
    (hfresh : Along s.afterPrecommit s.Fresh start calls) :
    Along s.afterPrecommit s.WellNumbered start calls ↔
      Along s.afterPrecommit s.Aligned start calls := by
  have hsteps : Along s.afterPrecommit (fun st c => s.Fresh st c ∧ s.WellNumbered st c) start calls ↔
      Along s.afterPrecommit (fun st c => s.Fresh st c ∧ s.Aligned st c) start calls := by
    refine along_iff_along_of_kept ?_ ?_ ?_ hstart
    · intro st c h
      exact ⟨h.1, aligned_of_wellNumbered h.1 h.2⟩
    · intro st c hdistinct h
      exact ⟨h.1, wellNumbered_of_aligned hdistinct h.2⟩
    · intro st c hdistinct h
      exact (wellNumbered_of_aligned hdistinct h.2).distinct
  rw [along_and, along_and] at hsteps
  constructor
  · intro h
    exact (hsteps.mp ⟨hfresh, h⟩).2
  · intro h
    exact (hsteps.mpr ⟨hfresh, h⟩).2

/-! ## Two requests of one Step -/

def numbering : AttemptStore MemoryStore := MemoryStore.attemptStore (fun _ => "")

def callOf (sideEffect : Bool) (id attempt action : String) : PrecommitCall MemoryStore :=
  { now := 1, request := writeRequest id "write" "worker_a" 1,
    p := { precommitOf "step_a" attempt action with sideEffect }, gate := numbering.gate }

/-- Two side effects under one step key. -/
def retried : List (PrecommitCall MemoryStore) :=
  [callOf true "request_1" "attempt_a" "action_a", callOf true "request_2" "attempt_b" "action_b"]

/-- The second request has become pure. -/
def thenPure : List (PrecommitCall MemoryStore) :=
  [callOf true "request_1" "attempt_a" "action_a", callOf false "request_2" "attempt_b" "action_b"]

theorem distinct_unleasedStore : numbering.Distinct unleasedStore := by
  intro id _ a _ ha
  cases ha

theorem wellNumbered_retried :
    Along numbering.afterPrecommit numbering.WellNumbered unleasedStore retried := by
  have hfresh : Along numbering.afterPrecommit numbering.Fresh unleasedStore retried :=
    ⟨by decide, by decide, trivial⟩
  exact (wellNumbered_iff_aligned numbering distinct_unleasedStore hfresh).mpr
    ⟨Or.inl rfl, Or.inl rfl, trivial⟩

/-- The attempt of the pure request has the number of the earlier one. -/
theorem thenPure_reuses_number :
    ¬ ∀ (start : MemoryStore) (calls : List (PrecommitCall MemoryStore)),
      numbering.Distinct start → Along numbering.afterPrecommit numbering.Fresh start calls →
        Along numbering.afterPrecommit numbering.WellNumbered start calls := by
  intro h
  have hfresh : Along numbering.afterPrecommit numbering.Fresh unleasedStore thenPure :=
    ⟨by decide, by decide, trivial⟩
  obtain ⟨-, hsecond, -⟩ := h unleasedStore thenPure distinct_unleasedStore hfresh
  have hnumber (id : String) (hid : id = "attempt_a" ∨ id = "attempt_b") :
      ∃ a, numbering.getAttempt (run numbering.afterPrecommit unleasedStore thenPure) id = some a ∧
        a.stepId = "step_a" ∧ a.attemptNo = 1 := by
    have hshown : (numbering.getAttempt (run numbering.afterPrecommit unleasedStore thenPure) id).map
        (fun a => (a.stepId, a.attemptNo)) = some ("step_a", 1) := by
      rcases hid with rfl | rfl <;> decide
    obtain ⟨a, ha, hpair⟩ := Option.map_eq_some_iff.mp hshown
    exact ⟨a, ha, congrArg Prod.fst hpair, congrArg Prod.snd hpair⟩
  obtain ⟨a, ha, hstep, hno⟩ := hnumber "attempt_a" (Or.inl rfl)
  obtain ⟨a', ha', hstep', hno'⟩ := hnumber "attempt_b" (Or.inr rfl)
  have hsame : "attempt_a" = "attempt_b" :=
    hsecond.distinct _ _ a a' ha ha' (by rw [hstep, hstep']) (by rw [hno, hno'])
  exact absurd hsame (by decide)

end AttemptStore
end PortableRuntime
