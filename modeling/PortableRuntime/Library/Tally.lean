import PortableRuntime.Library.Dict

/-
Counting in a dictionary.

Starting from the empty dictionary, incrementing the entry of each key of a list leaves
the number of times that each key occurs in it.
-/

namespace PortableRuntime
namespace Dict

variable {κ : Type} [DecidableEq κ]

/-- `counts[key] = counts.get(key, 0) + 1`. -/
def increment (counts : Dict κ Nat) (key : κ) : Dict κ Nat :=
  counts.set key ((counts.get? key).getD 0 + 1)

/-- How often a key occurs. -/
def occurrences (keys : List κ) (k : κ) : Nat := keys.countP (fun key => key = k)

theorem getD_foldl_increment (keys : List κ) (counts : Dict κ Nat) (k : κ) :
    ((keys.foldl increment counts).get? k).getD 0 =
      (counts.get? k).getD 0 + occurrences keys k := by
  induction keys generalizing counts with
  | nil => rfl
  | cons key rest ih =>
    rw [List.foldl_cons, ih, increment, get?_set, occurrences, occurrences]
    by_cases hk : k = key
    · rw [if_pos hk, List.countP_cons_of_pos (by simp [hk]), Option.getD_some, hk]
      omega
    · rw [if_neg hk, List.countP_cons_of_neg (by simpa using Ne.symm hk)]

theorem occurrences_pos_iff {keys : List κ} {k : κ} : 0 < occurrences keys k ↔ k ∈ keys := by
  rw [occurrences, List.countP_pos_iff]
  simp

theorem isSome_foldl_increment (keys : List κ) (counts : Dict κ Nat) (k : κ) :
    ((keys.foldl increment counts).get? k).isSome = true ↔
      (counts.get? k).isSome = true ∨ k ∈ keys := by
  induction keys generalizing counts with
  | nil => simp
  | cons key rest ih =>
    rw [List.foldl_cons, ih, increment, get?_set, List.mem_cons]
    by_cases hk : k = key
    · simp [hk]
    · simp [hk]

/-- What a key is given is how often it occurs. -/
theorem get?_tally {keys : List κ} {k : κ} {n : Nat} :
    (keys.foldl increment empty).get? k = some n ↔ 0 < n ∧ occurrences keys k = n := by
  have hcount := getD_foldl_increment keys empty k
  have hsome := isSome_foldl_increment keys empty k
  rw [get?_empty, Option.getD_none, Nat.zero_add] at hcount
  rw [get?_empty, Option.isSome_none, ← occurrences_pos_iff] at hsome
  cases hget : (keys.foldl increment empty).get? k with
  | none =>
    rw [hget, Option.getD_none] at hcount
    constructor
    · exact fun h => nomatch h
    · intro h
      omega
  | some m =>
    rw [hget, Option.getD_some] at hcount
    rw [hget, Option.isSome_some] at hsome
    have hpos : 0 < occurrences keys k := by simpa using hsome
    rw [Option.some.injEq]
    omega

end Dict
end PortableRuntime
