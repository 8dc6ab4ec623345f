import Mathlib.Data.List.Pairwise

/-!
# The first item under each key

A list is gone through once and an item is kept unless its key has been seen.  Which keys are left
does not depend on the order of the list; which item stands for a key does.
-/

namespace PortableRuntime

variable {α β κ : Type} [DecidableEq κ]

def keepFirst (key : α → κ) (seen : List κ) : List α → List α
  | [] => []
  | a :: rest =>
    if key a ∈ seen then keepFirst key seen rest else a :: keepFirst key (key a :: seen) rest

section Keep

attribute [local simp] keepFirst

variable {key : α → κ} {seen seen' : List κ} {l l' : List α} {a b : α}

theorem mem_of_mem_keepFirst (h : a ∈ keepFirst key seen l) : a ∈ l := by
  induction l generalizing seen with
  | nil => cases h
  | cons first rest ih =>
    rw [keepFirst] at h
    split at h
    · exact List.mem_cons_of_mem first (ih h)
    · rcases List.mem_cons.mp h with rfl | h
      · exact List.mem_cons_self
      · exact List.mem_cons_of_mem first (ih h)

theorem not_seen_of_mem_keepFirst (h : a ∈ keepFirst key seen l) : key a ∉ seen := by
  induction l generalizing seen with
  | nil => cases h
  | cons first rest ih =>
    rw [keepFirst] at h
    split at h
    · exact ih h
    · rename_i hfirst
      rcases List.mem_cons.mp h with rfl | h
      · exact hfirst
      · exact fun hmem => ih h (List.mem_cons_of_mem _ hmem)

/-- Every key that has not been seen is left. -/
theorem exists_mem_keepFirst (h : a ∈ l) (hseen : key a ∉ seen) :
    ∃ b ∈ keepFirst key seen l, key b = key a := by
  induction l generalizing seen with
  | nil => cases h
  | cons first rest ih =>
    rw [keepFirst]
    split
    · rename_i hfirst
      rcases List.mem_cons.mp h with rfl | h
      · exact absurd hfirst hseen
      · exact ih h hseen
    · by_cases hkey : key first = key a
      · exact ⟨first, List.mem_cons_self, hkey⟩
      · have hrest : a ∈ rest := by
          rcases List.mem_cons.mp h with rfl | h
          · exact absurd rfl hkey
          · exact h
        have hseen' : key a ∉ key first :: seen := by
          rw [List.mem_cons, not_or]
          exact ⟨fun he => hkey he.symm, hseen⟩
        obtain ⟨b, hb, hbkey⟩ := ih hrest hseen'
        exact ⟨b, List.mem_cons_of_mem first hb, hbkey⟩

theorem mem_keepFirst_id {l : List κ} {k : κ} : k ∈ keepFirst id [] l ↔ k ∈ l := by
  constructor
  · exact mem_of_mem_keepFirst
  · intro h
    have hkept : ∃ b ∈ keepFirst id [] l, id b = id k := exists_mem_keepFirst h List.not_mem_nil
    obtain ⟨b, hb, rfl⟩ := hkept
    exact hb

/-- No key is left twice. -/
theorem eq_of_mem_keepFirst (ha : a ∈ keepFirst key seen l) (hb : b ∈ keepFirst key seen l)
    (hkey : key a = key b) : a = b := by
  induction l generalizing seen with
  | nil => cases ha
  | cons first rest ih =>
    rw [keepFirst] at ha hb
    split at ha
    · rename_i hfirst
      rw [if_pos hfirst] at hb
      exact ih ha hb
    · rename_i hfirst
      rw [if_neg hfirst] at hb
      rcases List.mem_cons.mp ha with rfl | ha <;> rcases List.mem_cons.mp hb with rfl | hb
      · rfl
      · exact absurd (hkey ▸ List.mem_cons_self) (not_seen_of_mem_keepFirst hb)
      · exact absurd (hkey ▸ List.mem_cons_self) (not_seen_of_mem_keepFirst ha)
      · exact ih ha hb

/-- What is kept is the first item of its key, if that has not been seen. -/
theorem mem_keepFirst_iff :
    a ∈ keepFirst key seen l ↔ key a ∉ seen ∧ l.find? (fun b => key b = key a) = some a := by
  induction l generalizing seen with
  | nil => simp
  | cons first rest ih =>
    rw [keepFirst, List.find?_cons]
    by_cases hkey : key first = key a
    · rw [decide_eq_true hkey, ← hkey]
      dsimp only
      rw [Option.some.injEq]
      split
      · next hseen =>
        exact iff_of_false (fun h => not_seen_of_mem_keepFirst h (hkey ▸ hseen))
          (fun h => h.1 hseen)
      · next hseen =>
        rw [List.mem_cons]
        refine ⟨fun h => ⟨hseen, ?_⟩, fun h => Or.inl h.2.symm⟩
        rcases h with rfl | h
        · rfl
        · exact absurd (hkey ▸ List.mem_cons_self) (not_seen_of_mem_keepFirst h)
    · rw [decide_eq_false hkey]
      dsimp only
      split
      · exact ih
      · rw [List.mem_cons, ih, List.mem_cons, not_or]
        refine ⟨fun h => ?_, fun h => Or.inr ⟨⟨fun he => hkey he.symm, h.1⟩, h.2⟩⟩
        rcases h with rfl | h
        · exact absurd rfl hkey
        · exact ⟨h.1.2, h.2⟩

/-- What is kept although more has been seen is kept. -/
theorem mem_keepFirst_mono (hsub : seen' ⊆ seen) (h : a ∈ keepFirst key seen l) :
    a ∈ keepFirst key seen' l := by
  induction l generalizing seen seen' with
  | nil => cases h
  | cons first rest ih =>
    rw [keepFirst] at h ⊢
    by_cases hfirst : key first ∈ seen
    · rw [if_pos hfirst] at h
      by_cases hfirst' : key first ∈ seen'
      · rw [if_pos hfirst']
        exact ih hsub h
      · rw [if_neg hfirst']
        refine List.mem_cons_of_mem first (ih (List.cons_subset.mpr ⟨hfirst, hsub⟩) h)
    · rw [if_neg hfirst] at h
      rw [if_neg (fun hmem => hfirst (hsub hmem))]
      rcases List.mem_cons.mp h with rfl | h
      · exact List.mem_cons_self
      · exact List.mem_cons_of_mem first (ih (List.cons_subset_cons _ hsub) h)

theorem mem_keepFirst_append_left (h : a ∈ keepFirst key seen l) :
    a ∈ keepFirst key seen (l ++ l') := by
  induction l generalizing seen with
  | nil => cases h
  | cons first rest ih =>
    rw [List.cons_append, keepFirst]
    rw [keepFirst] at h
    split at h
    · rename_i hfirst
      rw [if_pos hfirst]
      exact ih h
    · rename_i hfirst
      rw [if_neg hfirst]
      rcases List.mem_cons.mp h with rfl | h
      · exact List.mem_cons_self
      · exact List.mem_cons_of_mem first (ih h)

/-- What is kept of lists one after another is kept of one of them or of those after it. -/
theorem mem_keepFirst_append (h : a ∈ keepFirst key seen (l ++ l')) :
    a ∈ keepFirst key seen l ∨ a ∈ keepFirst key [] l' := by
  induction l generalizing seen with
  | nil => exact Or.inr (mem_keepFirst_mono (List.nil_subset seen) h)
  | cons first rest ih =>
    rw [List.cons_append, keepFirst] at h
    rw [keepFirst]
    split at h
    · rename_i hfirst
      rw [if_pos hfirst]
      exact ih h
    · rename_i hfirst
      rw [if_neg hfirst]
      rcases List.mem_cons.mp h with rfl | h
      · exact Or.inl List.mem_cons_self
      · exact (ih h).imp_left (List.mem_cons_of_mem first)

theorem exists_of_mem_keepFirst_flatMap {f : β → List α} {bs : List β}
    (h : a ∈ keepFirst key [] (bs.flatMap f)) : ∃ b ∈ bs, a ∈ keepFirst key [] (f b) := by
  induction bs with
  | nil => cases h
  | cons first rest ih =>
    rw [List.flatMap_cons] at h
    rcases mem_keepFirst_append h with h | h
    · exact ⟨first, List.mem_cons_self, h⟩
    · obtain ⟨b, hb, h⟩ := ih h
      exact ⟨b, List.mem_cons_of_mem first hb, h⟩

/-- Only which keys have been seen counts. -/
theorem keepFirst_congr (h : ∀ k, k ∈ seen ↔ k ∈ seen') :
    keepFirst key seen l = keepFirst key seen' l := by
  induction l generalizing seen seen' with
  | nil => rfl
  | cons first rest ih =>
    rw [keepFirst, keepFirst]
    by_cases hfirst : key first ∈ seen
    · rw [if_pos hfirst, if_pos ((h _).mp hfirst), ih h]
    · rw [if_neg hfirst, if_neg (fun hmem => hfirst ((h _).mpr hmem))]
      exact congrArg (first :: ·) (ih (fun k => by rw [List.mem_cons, List.mem_cons, h k]))

theorem keepFirst_append : keepFirst key seen (l ++ l') =
    keepFirst key seen l ++ keepFirst key ((keepFirst key seen l).map key ++ seen) l' := by
  induction l generalizing seen with
  | nil => rfl
  | cons first rest ih =>
    rw [List.cons_append, keepFirst, keepFirst]
    split
    · exact ih
    · rw [ih, List.cons_append, List.map_cons, List.cons_append]
      exact congrArg (fun kept => first :: (_ ++ kept))
        (keepFirst_congr (fun k => List.perm_middle.mem_iff))

theorem keepFirst_map {f : β → α} {l : List β} :
    keepFirst key seen (l.map f) = (keepFirst (fun b => key (f b)) seen l).map f := by
  induction l generalizing seen with
  | nil => rfl
  | cons first rest ih =>
    rw [List.map_cons, keepFirst, keepFirst]
    split
    · exact ih
    · rw [ih, List.map_cons]

/-- What has been seen before is dropped from what is kept by itself. -/
theorem keepFirst_eq_filter :
    keepFirst key seen l = (keepFirst key [] l).filter (fun a => key a ∉ seen) := by
  suffices h : ∀ before, keepFirst key (before ++ seen) l =
      (keepFirst key before l).filter (fun a => key a ∉ seen) from h []
  intro before
  induction l generalizing before with
  | nil => rfl
  | cons first rest ih =>
    rw [keepFirst, keepFirst]
    by_cases hbefore : key first ∈ before
    · rw [if_pos (List.mem_append_left seen hbefore), if_pos hbefore]
      exact ih before
    · rw [if_neg hbefore, List.filter_cons]
      by_cases hseen : key first ∈ seen
      · rw [if_pos (List.mem_append_right before hseen), if_neg (by simpa using hseen), ← ih]
        refine keepFirst_congr (fun k => ?_)
        rw [List.cons_append, List.mem_cons]
        exact ⟨Or.inr, fun h => h.elim (fun he => he ▸ List.mem_append_right before hseen) id⟩
      · rw [if_neg (fun hmem => (List.mem_append.mp hmem).elim hbefore hseen),
          if_pos (by simpa using hseen), ← ih, List.cons_append]

theorem nodup_map_keepFirst : ((keepFirst key seen l).map key).Nodup := by
  induction l generalizing seen with
  | nil => exact List.nodup_nil
  | cons first rest ih =>
    rw [keepFirst]
    split
    · exact ih
    · rw [List.map_cons, List.nodup_cons]
      refine ⟨fun hmem => ?_, ih⟩
      obtain ⟨a, ha, hkey⟩ := List.mem_map.mp hmem
      exact not_seen_of_mem_keepFirst ha (hkey ▸ List.mem_cons_self)

end Keep

end PortableRuntime
