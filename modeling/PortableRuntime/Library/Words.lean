import Mathlib.Data.List.Induction
/-
Words of a partial automaton.

`word.foldlM next s` is the state after a word, if every letter is admitted.  A word that
leaves a set of states has a letter that leaves it, and a word that reaches a property has a
last letter that established it.
-/

namespace PortableRuntime

section Words

variable {σ α : Type} {next : σ → α → Option σ} {s t : σ} {word : List α}

theorem foldlM_concat {x : α} :
    (word ++ [x]).foldlM next s = (word.foldlM next s).bind (fun u => next u x) := by
  rw [List.foldlM_append]
  cases word.foldlM next s with
  | none => rfl
  | some u => simp

theorem foldlM_append_eq_some {word' : List α} :
    (word ++ word').foldlM next s = some t ↔
      ∃ u, word.foldlM next s = some u ∧ word'.foldlM next u = some t := by
  rw [List.foldlM_append]
  exact Option.bind_eq_some_iff

theorem foldlM_cons_eq_some {x : α} :
    (x :: word).foldlM next s = some t ↔ ∃ u, next s x = some u ∧ word.foldlM next u = some t := by
  rw [List.foldlM_cons]
  exact Option.bind_eq_some_iff

theorem foldlM_leaves {S : σ → Prop} (h : word.foldlM next s = some t) (hs : S s) (ht : ¬ S t) :
    ∃ before x after u v, word = before ++ x :: after ∧ S u ∧ ¬ S v ∧ next u x = some v ∧
      after.foldlM next v = some t := by
  induction word generalizing s with
  | nil => exact absurd (Option.some.inj h ▸ hs) ht
  | cons x rest ih =>
    obtain ⟨v, hv, hrest⟩ := foldlM_cons_eq_some.mp h
    by_cases hS : S v
    · obtain ⟨before, y, after, u, w, hsplit, hu, hw, hstep, hafter⟩ := ih hrest hS
      exact ⟨x :: before, y, after, u, w, by rw [hsplit, List.cons_append], hu, hw, hstep, hafter⟩
    · exact ⟨[], x, rest, s, v, rfl, hs, hS, hv, hrest⟩

/-- Where every letter establishes a property or keeps it, a word that reaches the property
has a last letter that established it, or starts with it. -/
theorem foldlM_established {S : σ → Prop} {E K : α → Prop}
    (hstep : ∀ u x v, next u x = some v → S v → E x ∨ S u ∧ K x)
    (h : word.foldlM next s = some t) (ht : S t) :
    (∃ before x after, word = before ++ x :: after ∧ E x ∧ ∀ y ∈ after, K y) ∨
      (S s ∧ ∀ y ∈ word, K y) := by
  induction word using List.reverseRecOn generalizing t with
  | nil => exact .inr ⟨Option.some.inj h ▸ ht, by simp⟩
  | append_singleton rest x ih =>
    rw [foldlM_concat] at h
    obtain ⟨u, hu, hnext⟩ := Option.bind_eq_some_iff.mp h
    rcases hstep u x t hnext ht with hE | ⟨hS, hK⟩
    · exact .inl ⟨rest, x, [], rfl, hE, by simp⟩
    · have hkept : ∀ after : List α, (∀ y ∈ after, K y) → ∀ y ∈ after ++ [x], K y := by
        intro after hafter y hy
        rcases List.mem_append.mp hy with hy | hy
        · exact hafter y hy
        · rwa [List.mem_singleton.mp hy]
      rcases ih hu hS with ⟨before, y, after, hsplit, hy, hafter⟩ | ⟨hs, hrest⟩
      · exact .inl ⟨before, y, after ++ [x], by simp [hsplit], hy, hkept after hafter⟩
      · exact .inr ⟨hs, hkept rest hrest⟩

/-- What a word does where fewer letters are admitted, it does where more are. -/
theorem foldlM_mono {next' : σ → α → Option σ}
    (h : ∀ {u x v}, next u x = some v → next' u x = some v) {s : σ}
    (hword : word.foldlM next s = some t) : word.foldlM next' s = some t := by
  induction word generalizing s with
  | nil => exact hword
  | cons x rest ih =>
    obtain ⟨u, hu, hrest⟩ := foldlM_cons_eq_some.mp hword
    exact foldlM_cons_eq_some.mpr ⟨u, h hu, ih hrest⟩

end Words

end PortableRuntime
