import Mathlib.Data.List.Forall2
import Mathlib.Data.List.Sort

/-
One more value in a sorted list.

Where no two values of a list compare both ways, sorting has one result, so a value added
to the list stands somewhere in the sorted list and moves nothing else.  What a filter drops
can be dropped before the list is sorted.
-/

namespace PortableRuntime

section Sorting

variable {α : Type} {r : α → α → Prop} [DecidableRel r] [Std.Total r] [IsTrans α r]
  {l l' : List α} {x : α}

theorem exists_insertionSort_of_perm (hperm : l'.Perm (l ++ [x]))
    (hanti : ∀ a ∈ l, ∀ b ∈ l, r a b → r b a → a = b) :
    ∃ before after, l.insertionSort r = before ++ after ∧
      l'.insertionSort r = before ++ x :: after := by
  have hx : x ∈ l'.insertionSort r := by
    rw [List.mem_insertionSort, hperm.mem_iff]
    simp
  obtain ⟨before, after, hsplit⟩ := List.append_of_mem hx
  have hsorted : (before ++ x :: after).Pairwise r :=
    hsplit ▸ List.pairwise_insertionSort r l'
  have hcons : (before ++ x :: after).Perm (x :: l) :=
    hsplit ▸ (List.perm_insertionSort r l').trans (hperm.trans (List.perm_append_singleton x l))
  have hrest : (before ++ after).Perm l :=
    (List.perm_middle.symm.trans hcons).cons_inv
  refine ⟨before, after, ?_, hsplit⟩
  refine List.Perm.eq_of_pairwise ?_ (List.pairwise_insertionSort r l) ?_
    ((List.perm_insertionSort r l).trans hrest.symm)
  · intro a b ha hb
    exact hanti a ((List.mem_insertionSort r).mp ha) b (hrest.subset hb)
  · exact hsorted.sublist ((List.sublist_cons_self x after).append_left before)

/-- A value that stands before no other one is the last. -/
theorem insertionSort_of_perm_of_last (hperm : l'.Perm (l ++ [x]))
    (hanti : ∀ a ∈ l, ∀ b ∈ l, r a b → r b a → a = b) (hlast : ∀ a ∈ l, ¬ r x a) :
    l'.insertionSort r = l.insertionSort r ++ [x] := by
  obtain ⟨before, after, hl, hl'⟩ := exists_insertionSort_of_perm hperm hanti
  have hsorted : (before ++ x :: after).Pairwise r :=
    hl' ▸ List.pairwise_insertionSort r l'
  have hafter : after = [] := by
    rw [List.eq_nil_iff_forall_not_mem]
    intro a ha
    have hmem : a ∈ l := by
      rw [← List.mem_insertionSort r, hl]
      exact List.mem_append_right before ha
    exact hlast a hmem (List.rel_of_pairwise_cons (List.pairwise_append.mp hsorted).2.1 ha)
  rw [hl', hl, hafter, List.append_nil]

end Sorting

/-- A list sorted by a key that tells its items apart does not depend on their order. -/
theorem insertionSort_of_perm {α κ : Type} {r : κ → κ → Prop} [DecidableRel r] [Std.Total r]
    [IsTrans κ r] {key : α → κ} {l l' : List α} (hperm : l.Perm l')
    (hkey : ∀ a ∈ l, ∀ b ∈ l, r (key a) (key b) → r (key b) (key a) → a = b) :
    l.insertionSort (fun a b => r (key a) (key b)) =
      l'.insertionSort (fun a b => r (key a) (key b)) := by
  have : Std.Total (fun a b : α => r (key a) (key b)) :=
    ⟨fun a b => Std.Total.total (key a) (key b)⟩
  have : IsTrans α (fun a b => r (key a) (key b)) := ⟨fun a b c => IsTrans.trans _ _ _⟩
  have hsorted := ((List.perm_insertionSort (fun a b => r (key a) (key b)) l).trans hperm).trans
    (List.perm_insertionSort (fun a b => r (key a) (key b)) l').symm
  refine List.Perm.eq_of_pairwise (fun a b ha hb hab hba => ?_)
    (List.pairwise_insertionSort _ l) (List.pairwise_insertionSort _ l') hsorted
  rw [List.mem_insertionSort] at ha hb
  exact hkey a ha b (hperm.mem_iff.mpr hb) hab hba

section Keep

variable {α β : Type} {r : α → α → Prop} [DecidableRel r] [IsTrans α r]

theorem filter_orderedInsert {p : α → Bool} {a : α} {l : List α} (hl : l.Pairwise r) :
    (l.orderedInsert r a).filter p =
      if p a then (l.filter p).orderedInsert r a else l.filter p := by
  induction l with
  | nil => cases hp : p a <;> simp [hp]
  | cons b rest ih =>
    obtain ⟨hb, hrest⟩ := List.pairwise_cons.mp hl
    by_cases hab : r a b
    · rw [List.orderedInsert_cons_of_le r rest hab]
      cases hp : p a with
      | false => simp [hp]
      | true =>
        rw [List.filter_cons_of_pos hp, if_pos rfl]
        cases hkept : (b :: rest).filter p with
        | nil => rfl
        | cons c kept =>
          have hc : c ∈ b :: rest := (List.mem_filter.mp (hkept ▸ List.mem_cons_self)).1
          have hac : r a c := by
            rcases List.mem_cons.mp hc with rfl | hc
            · exact hab
            · exact IsTrans.trans a b c hab (hb c hc)
          rw [List.orderedInsert_cons_of_le r kept hac]
    · rw [List.orderedInsert_of_not_le r rest hab]
      cases hpb : p b with
      | false =>
        rw [List.filter_cons_of_neg (by simp [hpb]), List.filter_cons_of_neg (by simp [hpb])]
        exact ih hrest
      | true =>
        rw [List.filter_cons_of_pos hpb, List.filter_cons_of_pos hpb, ih hrest]
        split
        · rw [List.orderedInsert_of_not_le r _ hab]
        · rfl

variable [Std.Total r]

/-- Sorting moves nothing past what a filter drops. -/
theorem filter_insertionSort (p : α → Bool) (l : List α) :
    (l.insertionSort r).filter p = (l.filter p).insertionSort r := by
  induction l with
  | nil => rfl
  | cons a rest ih =>
    rw [List.insertionSort_cons, filter_orderedInsert (List.pairwise_insertionSort r rest), ih]
    cases hp : p a with
    | true => rw [if_pos rfl, List.filter_cons_of_pos hp, List.insertionSort_cons]
    | false => rw [if_neg (by simp), List.filter_cons_of_neg (by simp [hp])]

/-- Values that a partial map drops change nothing of what it reads of a sorted list. -/
theorem filterMap_insertionSort_append {f : α → Option β} {l l' : List α}
    (h : l'.filterMap f = []) :
    ((l ++ l').insertionSort r).filterMap f = (l.insertionSort r).filterMap f := by
  have hkept : ∀ k : List α, k.filterMap f = (k.filter (fun a => (f a).isSome)).filterMap f := by
    intro k
    rw [List.filterMap_filter]
    refine List.filterMap_congr (fun a _ => ?_)
    cases f a <;> rfl
  have hnone : l'.filter (fun a => (f a).isSome) = [] := by
    refine List.filter_eq_nil_iff.mpr (fun a ha => ?_)
    simp [List.filterMap_eq_nil_iff.mp h a ha]
  rw [hkept, hkept (l.insertionSort r), filter_insertionSort, filter_insertionSort,
    List.filter_append, hnone, List.append_nil]

end Keep

/-! ## Lists that correspond -/

theorem map_eq_of_forall₂ {α β γ : Type} {R : α → β → Prop} {f : α → γ} {g : β → γ}
    (hfg : ∀ a b, R a b → f a = g b) {as : List α} {bs : List β} (h : List.Forall₂ R as bs) :
    as.map f = bs.map g := by
  induction h with
  | nil => rfl
  | cons hab _ ih => rw [List.map_cons, List.map_cons, hfg _ _ hab, ih]

theorem flatMap_eq_of_forall₂ {α β γ : Type} {R : α → β → Prop} {f : α → List γ} {g : β → List γ}
    (hfg : ∀ a b, R a b → f a = g b) {as : List α} {bs : List β} (h : List.Forall₂ R as bs) :
    as.flatMap f = bs.flatMap g := by
  rw [List.flatMap_def, List.flatMap_def, map_eq_of_forall₂ hfg h]

theorem forall₂_orderedInsert {α β : Type} {R : α → β → Prop} {r : α → α → Prop}
    {s : β → β → Prop} [DecidableRel r] [DecidableRel s]
    (hrs : ∀ a b a' b', R a b → R a' b' → (r a a' ↔ s b b')) {a : α} {b : β} (hab : R a b)
    {as : List α} {bs : List β} (h : List.Forall₂ R as bs) :
    List.Forall₂ R (as.orderedInsert r a) (bs.orderedInsert s b) := by
  induction h with
  | nil => exact .cons hab .nil
  | @cons a' b' as' bs' hab' hrest ih =>
    rw [List.orderedInsert_cons, List.orderedInsert_cons]
    by_cases hle : r a a'
    · rw [if_pos hle, if_pos ((hrs _ _ _ _ hab hab').mp hle)]
      exact .cons hab (.cons hab' hrest)
    · rw [if_neg hle, if_neg (fun hs => hle ((hrs _ _ _ _ hab hab').mpr hs))]
      exact .cons hab' ih

/-- Sorting keeps a correspondence that keeps the order. -/
theorem forall₂_insertionSort {α β : Type} {R : α → β → Prop} {r : α → α → Prop}
    {s : β → β → Prop} [DecidableRel r] [DecidableRel s]
    (hrs : ∀ a b a' b', R a b → R a' b' → (r a a' ↔ s b b')) {as : List α} {bs : List β}
    (h : List.Forall₂ R as bs) : List.Forall₂ R (as.insertionSort r) (bs.insertionSort s) := by
  induction h with
  | nil => exact .nil
  | cons hab _ ih => exact forall₂_orderedInsert hrs hab ih

/-- Two orders that sort one list alike agree on it. -/
theorem rel_iff_of_pairwise {α : Type} {r r' : α → α → Prop} {l : List α} (h : l.Pairwise r)
    (h' : l.Pairwise r') (hrefl : ∀ a, r a a ∧ r' a a)
    (hanti : ∀ a b, r a b → r b a → a = b) (hanti' : ∀ a b, r' a b → r' b a → a = b)
    {a b : α} (ha : a ∈ l) (hb : b ∈ l) : r a b ↔ r' a b := by
  have hboth := h.and h'
  refine List.Pairwise.forall_of_forall_of_flip (R := fun a b => r a b ↔ r' a b)
    (fun a _ => iff_of_true (hrefl a).1 (hrefl a).2) (hboth.imp (fun hab => ?_))
    (hboth.imp (fun {x y} hxy => ?_)) ha hb
  · exact iff_of_true hab.1 hab.2
  · constructor
    · exact fun hyx => hanti y x hyx hxy.1 ▸ (hrefl y).2
    · exact fun hyx => hanti' y x hyx hxy.2 ▸ (hrefl y).1

end PortableRuntime
