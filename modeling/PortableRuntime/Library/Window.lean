import Mathlib.Data.List.DropRight
import Mathlib.Data.List.Pairwise

/-
The newest entries of a log that are still fresh.

A log is read oldest entry first.  Of a log, `live fresh n` keeps the fresh entries, and of
these the newest `n`.  Where freshness is lost in the order of the log, what has once been cut
off never counts again (`live_live`), so that a memory which is cut at every reading answers as
the whole log would.
-/

namespace PortableRuntime
namespace Window

variable {α : Type}

def live (fresh : α → Bool) (n : Nat) (log : List α) : List α := (log.filter fresh).rtake n

/-- An entry that is fresh has only fresh ones after it. -/
def Ageing (fresh : α → Bool) (log : List α) : Prop :=
  log.Pairwise (fun older newer => fresh older = true → fresh newer = true)

theorem rtake_eq_self {l : List α} {n : Nat} (h : l.length ≤ n) : l.rtake n = l := by
  rw [List.rtake, Nat.sub_eq_zero_of_le h, List.drop_zero]

theorem length_rtake (l : List α) (n : Nat) : (l.rtake n).length = min n l.length := by
  rw [List.rtake, List.length_drop]
  omega

theorem rtake_append_of_length (front : List α) {back : List α} {n : Nat} (h : back.length = n) :
    (front ++ back).rtake n = back := by
  rw [List.rtake, List.length_append, h, Nat.add_sub_cancel, List.drop_left]

theorem rtake_subset (l : List α) (n : Nat) : l.rtake n ⊆ l := List.drop_subset _ l

/-- The newest of a log with one more entry see only the newest of the log. -/
theorem rtake_append_singleton (l : List α) (a : α) (n : Nat) :
    (l ++ [a]).rtake n = (l.rtake n ++ [a]).rtake n := by
  cases n with
  | zero => rw [List.rtake_zero, List.rtake_zero]
  | succ n =>
    rw [List.rtake_concat_succ, List.rtake_concat_succ, List.rtake_eq_reverse_take_reverse,
      List.rtake_eq_reverse_take_reverse, List.rtake_eq_reverse_take_reverse,
      List.reverse_reverse, List.take_take, Nat.min_eq_left (Nat.le_succ n)]

theorem mem_of_mem_live {fresh : α → Bool} {n : Nat} {log : List α} {a : α}
    (h : a ∈ live fresh n log) : a ∈ log ∧ fresh a = true :=
  List.mem_filter.mp (rtake_subset _ _ h)

/-- The live entries of a log with one more entry see only the live entries of the log. -/
theorem live_append_singleton (fresh : α → Bool) (n : Nat) (log : List α) (a : α) :
    live fresh n (log ++ [a]) =
      if fresh a = true then (live fresh n log ++ [a]).rtake n else live fresh n log := by
  by_cases ha : fresh a = true
  · rw [if_pos ha, live, List.filter_append, List.filter_cons_of_pos ha, List.filter_nil,
      rtake_append_singleton]
    rfl
  · rw [if_neg ha, live, List.filter_append, List.filter_cons_of_neg ha, List.filter_nil,
      List.append_nil]
    rfl

theorem Ageing.filter {fresh : α → Bool} {log : List α} (h : Ageing fresh log) (p : α → Bool) :
    Ageing fresh (log.filter p) := List.Pairwise.filter p h

/-- Cutting a log to its newest entries first does not change which are live. -/
theorem live_rtake {fresh : α → Bool} {log : List α} (h : Ageing fresh log) (n : Nat) :
    live fresh n (log.rtake n) = live fresh n log := by
  by_cases hlength : log.length ≤ n
  · rw [rtake_eq_self hlength]
  have hsplit : log = log.rdrop n ++ log.rtake n := by
    rw [List.rdrop, List.rtake, List.take_append_drop]
  have hback : (log.rtake n).length = n := by
    rw [length_rtake]
    omega
  have hlive : live fresh n log =
      ((log.rdrop n).filter fresh ++ (log.rtake n).filter fresh).rtake n := by
    rw [← List.filter_append, ← hsplit, live]
  by_cases hfresh : ∀ a ∈ log.rtake n, fresh a = true
  · -- The newest are all fresh, and they fill the window.
    have hkept : (log.rtake n).filter fresh = log.rtake n := List.filter_eq_self.mpr hfresh
    rw [hlive, live, hkept, rtake_eq_self hback.le, rtake_append_of_length _ hback]
  · -- One of the newest is not fresh, and so nothing before it is.
    have hstale : (log.rdrop n).filter fresh = [] := by
      rw [List.filter_eq_nil_iff]
      intro older holder holdfresh
      apply hfresh
      intro newer hnewer
      rw [Ageing, hsplit, List.pairwise_append] at h
      exact h.2.2 older holder newer hnewer holdfresh
    rw [hlive, hstale, List.nil_append, live]

/-- What has once been cut off never counts again. -/
theorem live_live {fresh later : α → Bool} {log : List α} (h : Ageing later log)
    (hlater : ∀ a ∈ log, later a = true → fresh a = true) (n : Nat) :
    live later n (live fresh n log) = live later n log := by
  have hfilter : (log.filter fresh).filter later = log.filter later := by
    rw [List.filter_filter]
    refine List.filter_congr (fun a ha => ?_)
    cases hl : later a with
    | true => rw [hlater a ha hl, Bool.and_self]
    | false => rw [Bool.false_and]
  show live later n ((log.filter fresh).rtake n) = live later n log
  rw [live_rtake (h.filter fresh), live, hfilter, live]

/-- An entry of the log that is not live is stale, or as many newer ones as the window holds
follow it. -/
theorem stale_or_outnumbered {fresh : α → Bool} {n : Nat} {front back : List α} {a : α}
    (h : a ∉ live fresh n (front ++ a :: back)) :
    fresh a = false ∨ n ≤ back.length := by
  by_cases ha : fresh a = true
  · refine Or.inr (Nat.le_of_not_lt (fun hlt => h ?_))
    have hshort : (a :: back.filter fresh).length ≤ n := by
      have hback := List.length_filter_le fresh back
      rw [List.length_cons]
      omega
    rw [live, List.filter_append, List.filter_cons_of_pos ha, List.rtake, List.length_append,
      List.drop_append]
    have hdrop : (front.filter fresh).length + (a :: back.filter fresh).length - n -
        (front.filter fresh).length = 0 := by omega
    rw [hdrop, List.drop_zero]
    exact List.mem_append_right _ List.mem_cons_self
  · exact Or.inl (by simpa using ha)

end Window
end PortableRuntime
