import Mathlib.Data.List.Nodup
import Mathlib.Data.List.Perm.Basic

/-
Insertion-ordered dictionaries.

Setting a key that is present replaces its value where it stands, and setting a
new key appends it, so the order of the entries is the order in which the keys
were first set.  The keys are distinct by construction.
-/

namespace PortableRuntime

structure Dict (κ α : Type) where
  entries : List (κ × α)
  nodup : (entries.map Prod.fst).Nodup

namespace Dict

variable {κ α : Type} [DecidableEq κ]

def empty : Dict κ α := { entries := [], nodup := List.nodup_nil }

instance : Inhabited (Dict κ α) := ⟨empty⟩

instance [DecidableEq α] : DecidableEq (Dict κ α) := fun a b =>
  decidable_of_iff (a.entries = b.entries) (by cases a; cases b; simp)

/-- Equality of dictionaries does not see the order of their entries. -/
instance [BEq α] : BEq (Dict κ α) where
  beq a b := a.entries.length == b.entries.length &&
    a.entries.all (fun e => (b.entries.find? (fun e' => e'.1 = e.1)).any (fun e' => e'.2 == e.2))

def keys (d : Dict κ α) : List κ := d.entries.map Prod.fst

def values (d : Dict κ α) : List α := d.entries.map Prod.snd

/-- The value of the first entry under `k`. -/
def lookup (k : κ) : List (κ × α) → Option α
  | [] => none
  | (k', v) :: rest => if k' = k then some v else lookup k rest

def get? (d : Dict κ α) (k : κ) : Option α := lookup k d.entries

/-- Replace the value under `k`, or append the entry when `k` is new. -/
def place (k : κ) (v : α) : List (κ × α) → List (κ × α)
  | [] => [(k, v)]
  | (k', v') :: rest => if k' = k then (k, v) :: rest else (k', v') :: place k v rest

theorem mem_keys_place {k : κ} {v : α} (l : List (κ × α)) (x : κ) :
    x ∈ (place k v l).map Prod.fst ↔ x = k ∨ x ∈ l.map Prod.fst := by
  induction l with
  | nil => simp [place]
  | cons e rest ih =>
    obtain ⟨k', v'⟩ := e
    by_cases hk : k' = k
    · subst hk
      simp [place]
    · simp only [place, hk, if_false, List.map_cons, List.mem_cons, ih]
      exact or_left_comm

theorem nodup_place {k : κ} {v : α} {l : List (κ × α)} (h : (l.map Prod.fst).Nodup) :
    ((place k v l).map Prod.fst).Nodup := by
  induction l with
  | nil => simp [place]
  | cons e rest ih =>
    obtain ⟨k', v'⟩ := e
    rw [List.map_cons, List.nodup_cons] at h
    by_cases hk : k' = k
    · subst hk
      simpa [place] using h
    · rw [place, if_neg hk, List.map_cons, List.nodup_cons, mem_keys_place, not_or]
      exact ⟨⟨hk, h.1⟩, ih h.2⟩

def set (d : Dict κ α) (k : κ) (v : α) : Dict κ α :=
  { entries := place k v d.entries, nodup := nodup_place d.nodup }

def erase (d : Dict κ α) (k : κ) : Dict κ α :=
  { entries := d.entries.filter (fun e => e.1 ≠ k),
    nodup := (List.filter_sublist.map Prod.fst).nodup d.nodup }

/-- The dictionary that a sequence of assignments builds: a later value under a
key replaces the earlier one. -/
def ofPairs (pairs : List (κ × α)) : Dict κ α :=
  pairs.foldl (fun d p => d.set p.1 p.2) empty

/-- `{**d, **e}`. -/
def update (d e : Dict κ α) : Dict κ α := e.entries.foldl (fun d p => d.set p.1 p.2) d

/-! ## Lookup -/

theorem lookup_eq_some {k : κ} {v : α} {l : List (κ × α)} (h : (l.map Prod.fst).Nodup) :
    lookup k l = some v ↔ (k, v) ∈ l := by
  induction l with
  | nil => simp [lookup]
  | cons e rest ih =>
    obtain ⟨k', v'⟩ := e
    rw [List.map_cons, List.nodup_cons] at h
    by_cases hk : k' = k
    · subst hk
      have hrest : (k', v) ∉ rest := fun hm => h.1 (List.mem_map.mpr ⟨_, hm, rfl⟩)
      simp only [lookup, if_true, Option.some.injEq, List.mem_cons, Prod.mk.injEq, true_and,
        hrest, or_false]
      exact eq_comm
    · simp only [lookup, hk, if_false, List.mem_cons, Prod.mk.injEq, ih h.2]
      constructor
      · exact fun hm => Or.inr hm
      · rintro (⟨hkk, -⟩ | hm)
        · exact absurd hkk.symm hk
        · exact hm

theorem lookup_eq_none {k : κ} {l : List (κ × α)} :
    lookup k l = none ↔ k ∉ l.map Prod.fst := by
  induction l with
  | nil => simp [lookup]
  | cons e rest ih =>
    obtain ⟨k', v'⟩ := e
    by_cases hk : k' = k
    · simp [lookup, hk]
    · simp only [lookup, hk, if_false, ih, List.map_cons, List.mem_cons, not_or]
      exact ⟨fun hm => ⟨fun e => hk e.symm, hm⟩, fun hm => hm.2⟩

theorem get?_eq_some {d : Dict κ α} {k : κ} {v : α} :
    d.get? k = some v ↔ (k, v) ∈ d.entries := lookup_eq_some d.nodup

theorem get?_eq_none {d : Dict κ α} {k : κ} : d.get? k = none ↔ k ∉ d.keys := lookup_eq_none

theorem lookup_place_self (k : κ) (v : α) (l : List (κ × α)) :
    lookup k (place k v l) = some v := by
  induction l with
  | nil => simp [place, lookup]
  | cons e rest ih =>
    obtain ⟨k', v'⟩ := e
    by_cases hk : k' = k
    · simp [place, lookup, hk]
    · simp [place, lookup, hk, ih]

theorem lookup_place_of_ne {k k₁ : κ} (h : k₁ ≠ k) (v : α) (l : List (κ × α)) :
    lookup k₁ (place k v l) = lookup k₁ l := by
  induction l with
  | nil => simp [place, lookup, h.symm]
  | cons e rest ih =>
    obtain ⟨k', v'⟩ := e
    by_cases hk : k' = k
    · subst hk
      simp [place, lookup, h.symm]
    · simp only [place, hk, if_false, lookup, ih]

@[simp] theorem get?_empty (k : κ) : (empty : Dict κ α).get? k = none := rfl

@[simp] theorem get?_set_self (d : Dict κ α) (k : κ) (v : α) : (d.set k v).get? k = some v :=
  lookup_place_self k v d.entries

theorem get?_set_of_ne (d : Dict κ α) {k k₁ : κ} (h : k₁ ≠ k) (v : α) :
    (d.set k v).get? k₁ = d.get? k₁ := lookup_place_of_ne h v d.entries

theorem get?_set (d : Dict κ α) (k k₁ : κ) (v : α) :
    (d.set k v).get? k₁ = if k₁ = k then some v else d.get? k₁ := by
  by_cases h : k₁ = k
  · subst h
    simp
  · rw [get?_set_of_ne d h, if_neg h]

theorem place_of_lookup {k : κ} {v : α} {l : List (κ × α)} (h : lookup k l = some v) :
    place k v l = l := by
  induction l with
  | nil => exact absurd h (by simp [lookup])
  | cons e rest ih =>
    obtain ⟨k', v'⟩ := e
    rw [lookup] at h
    by_cases hk : k' = k
    · rw [if_pos hk, Option.some.injEq] at h
      rw [place, if_pos hk, hk, h]
    · rw [if_neg hk] at h
      rw [place, if_neg hk, ih h]

/-- Assigning what a key holds changes nothing. -/
theorem set_of_get? {d : Dict κ α} {k : κ} {v : α} (h : d.get? k = some v) : d.set k v = d := by
  obtain ⟨l, hl⟩ := d
  simp only [set, place_of_lookup (show lookup k l = some v from h)]

/-- A new key under what is known of the others. -/
theorem get?_set_iff {d : Dict κ α} {Q : κ → α → Prop} (h : ∀ k v, d.get? k = some v ↔ Q k v)
    {k₀ : κ} {v₀ : α} (hnew : d.get? k₀ = none) (k : κ) (v : α) :
    (d.set k₀ v₀).get? k = some v ↔ Q k v ∨ (k = k₀ ∧ v = v₀) := by
  rw [get?_set]
  by_cases hk : k = k₀
  · subst hk
    have hnone : ¬ Q k v := fun hQ => by
      rw [(h k v).mpr hQ] at hnew
      exact absurd hnew (by simp)
    rw [if_pos rfl, Option.some.injEq, eq_comm]
    exact ⟨fun hv => .inr ⟨rfl, hv⟩, fun hor => hor.elim (fun hQ => absurd hQ hnone) And.right⟩
  · rw [if_neg hk, h]
    exact ⟨.inl, fun hor => hor.elim id (fun hv => absurd hv.1 hk)⟩

/-! ## Entries and values -/

theorem get?_erase (d : Dict κ α) (k k₁ : κ) :
    (d.erase k).get? k₁ = if k₁ = k then none else d.get? k₁ := by
  rcases eq_or_ne k₁ k with rfl | h
  · rw [if_pos rfl, get?_eq_none]
    simp [keys, erase]
  · rw [if_neg h]
    ext v
    rw [get?_eq_some, get?_eq_some]
    simp [erase, h]

theorem get?_foldl_erase (ks : List κ) (d : Dict κ α) (k : κ) :
    (ks.foldl erase d).get? k = if k ∈ ks then none else d.get? k := by
  induction ks generalizing d with
  | nil => rfl
  | cons k' rest ih =>
    rw [List.foldl_cons, ih, get?_erase]
    by_cases hrest : k ∈ rest
    · simp [hrest]
    · by_cases hk : k = k' <;> simp [hrest, hk]

theorem mem_values {d : Dict κ α} {v : α} : v ∈ d.values ↔ ∃ k, d.get? k = some v := by
  simp only [values, List.mem_map, Prod.exists, exists_eq_right, get?_eq_some]

theorem mem_entries_set {d : Dict κ α} {k : κ} {v : α} {e : κ × α} :
    e ∈ (d.set k v).entries ↔ e = (k, v) ∨ (e ∈ d.entries ∧ e.1 ≠ k) := by
  obtain ⟨k₁, v₁⟩ := e
  rw [← get?_eq_some, ← get?_eq_some, get?_set]
  by_cases h : k₁ = k
  · subst h
    simp [eq_comm]
  · simp [h]

/-- Setting a key is removing its entry and appending the new one, up to order. -/
theorem entries_set_perm (d : Dict κ α) (k : κ) (v : α) :
    (d.set k v).entries.Perm (d.entries.filter (fun e => e.1 ≠ k) ++ [(k, v)]) := by
  obtain ⟨l, hl⟩ := d
  show (place k v l).Perm _
  induction l with
  | nil => simp [place]
  | cons e rest ih =>
    obtain ⟨k', v'⟩ := e
    rw [List.map_cons, List.nodup_cons] at hl
    by_cases hk : k' = k
    · subst hk
      have hrest : rest.filter (fun e => decide (e.1 ≠ k')) = rest := by
        refine List.filter_eq_self.mpr (fun e he => ?_)
        have hne : e.1 ≠ k' := fun h => hl.1 (List.mem_map.mpr ⟨e, he, h⟩)
        simp [hne]
      simp only [place, if_true, ne_eq, not_true_eq_false, decide_false, Bool.false_eq_true,
        not_false_eq_true, List.filter_cons_of_neg]
      simp only [ne_eq] at hrest
      rw [hrest]
      exact (List.perm_append_singleton _ _).symm
    · simp only [place, hk, if_false, ne_eq, not_false_eq_true, decide_true,
        List.filter_cons_of_pos, List.cons_append]
      exact (ih hl.2).cons _

theorem entries_set_of_not_mem {d : Dict κ α} {k : κ} (h : d.get? k = none) (v : α) :
    (d.set k v).entries = d.entries ++ [(k, v)] := by
  obtain ⟨l, hl⟩ := d
  have hk : k ∉ l.map Prod.fst := get?_eq_none.mp h
  show place k v l = l ++ [(k, v)]
  clear h hl
  induction l with
  | nil => rfl
  | cons e rest ih =>
    obtain ⟨k', v'⟩ := e
    simp only [List.map_cons, List.mem_cons, not_or] at hk
    simp only [place, Ne.symm hk.1, if_false, ih hk.2, List.cons_append]

/-- Setting a key that is there replaces its entry. -/
theorem entries_set_of_get? {d : Dict κ α} {k : κ} {w : α} (h : d.get? k = some w) (v : α) :
    (d.set k v).entries = d.entries.map (fun e => if e.1 = k then (k, v) else e) := by
  obtain ⟨l, hl⟩ := d
  have hlookup : lookup k l = some w := h
  show place k v l = _
  clear h
  induction l with
  | nil => cases hlookup
  | cons e rest ih =>
    obtain ⟨k', v'⟩ := e
    rw [List.map_cons, List.nodup_cons] at hl
    by_cases hk : k' = k
    · subst hk
      have hrest : rest.map (fun e => if e.1 = k' then (k', v) else e) = rest := by
        refine (List.map_congr_left (fun e he => if_neg (fun heq => hl.1 ?_))).trans (List.map_id _)
        exact List.mem_map.mpr ⟨e, he, heq⟩
      rw [place, if_pos rfl, List.map_cons, if_pos rfl, hrest]
    · rw [lookup, if_neg hk] at hlookup
      rw [place, if_neg hk, List.map_cons, if_neg hk, ih hl.2 hlookup]

/-- A key that is set again keeps its place. -/
theorem keys_set_of_mem {d : Dict κ α} {k : κ} (h : k ∈ d.keys) (v : α) :
    (d.set k v).keys = d.keys := by
  have hget : d.get? k ≠ none := fun hnone => get?_eq_none.mp hnone h
  obtain ⟨old, hold⟩ := Option.ne_none_iff_exists'.mp hget
  rw [keys, entries_set_of_get? hold, List.map_map, keys]
  refine List.map_congr_left (fun e _ => ?_)
  by_cases hk : e.1 = k
  · simp only [Function.comp_apply, hk, if_true]
  · simp only [Function.comp_apply, hk, if_false]

theorem keys_set_of_not_mem {d : Dict κ α} {k : κ} (h : k ∉ d.keys) (v : α) :
    (d.set k v).keys = d.keys ++ [k] := by
  rw [keys, entries_set_of_not_mem (get?_eq_none.mpr h), List.map_append, keys]
  rfl

/-- Equal dictionaries have the same values. -/
theorem get?_eq_of_beq [BEq α] [LawfulBEq α] {a b : Dict κ α} (h : (a == b) = true) (k : κ) :
    a.get? k = b.get? k := by
  have hall : (a.entries.length == b.entries.length && a.entries.all (fun e =>
      (b.entries.find? (fun e' => e'.1 = e.1)).any (fun e' => e'.2 == e.2))) = true := h
  rw [Bool.and_eq_true, beq_iff_eq, List.all_eq_true] at hall
  have hsome : ∀ e ∈ a.entries, b.get? e.1 = some e.2 := by
    intro e he
    obtain ⟨e', hfind, hvalue⟩ := (Option.any_eq_true _ _).mp (hall.2 e he)
    have hkey : e'.1 = e.1 := by simpa using List.find?_some hfind
    rw [get?_eq_some, ← eq_of_beq hvalue]
    exact hkey ▸ List.mem_of_find?_eq_some hfind
  cases ha : a.get? k with
  | some v => exact (hsome (k, v) (get?_eq_some.mp ha)).symm
  | none =>
    have hsub : a.keys ⊆ b.keys := by
      intro x hx
      obtain ⟨e, he, rfl⟩ := List.mem_map.mp hx
      exact List.mem_map.mpr ⟨e, get?_eq_some.mp (hsome e he), rfl⟩
    have hperm : a.keys.Perm b.keys :=
      (List.subperm_of_subset a.nodup hsub).perm_of_length_le (by simp [keys, hall.1])
    rw [eq_comm, get?_eq_none, ← hperm.mem_iff]
    exact get?_eq_none.mp ha

theorem beq_self [BEq α] [ReflBEq α] (d : Dict κ α) : (d == d) = true := by
  change (d.entries.length == d.entries.length && d.entries.all (fun e =>
    (d.entries.find? (fun e' => e'.1 = e.1)).any (fun e' => e'.2 == e.2))) = true
  rw [Bool.and_eq_true, List.all_eq_true]
  refine ⟨beq_self_eq_true _, fun e he => ?_⟩
  cases hfind : d.entries.find? (fun e' => e'.1 = e.1) with
  | none => exact absurd (List.find?_eq_none.mp hfind e he) (by simp)
  | some e' =>
    have hkey : e'.1 = e.1 := by simpa using List.find?_some hfind
    have hvalue : e'.2 = e.2 := by
      have hget : d.get? e'.1 = some e'.2 := get?_eq_some.mpr (List.mem_of_find?_eq_some hfind)
      have hget' : d.get? e.1 = some e.2 := get?_eq_some.mpr he
      rw [hkey, hget'] at hget
      exact (Option.some.inj hget).symm
    rw [Option.any_some, hvalue]
    exact beq_self_eq_true _

/-! ## Dictionaries built from pairs -/

theorem entries_foldl_set {pairs : List (κ × α)} :
    ∀ {d : Dict κ α}, ((d.entries ++ pairs).map Prod.fst).Nodup →
      (pairs.foldl (fun d p => d.set p.1 p.2) d).entries = d.entries ++ pairs := by
  induction pairs with
  | nil => intro d _; simp
  | cons p rest ih =>
    intro d hd
    have hp : d.get? p.1 = none := by
      rw [get?_eq_none]
      intro hm
      rw [List.map_append, List.nodup_append] at hd
      exact hd.2.2 _ hm _ (by simp) rfl
    have hset : (d.set p.1 p.2).entries = d.entries ++ [p] := entries_set_of_not_mem hp p.2
    rw [List.foldl_cons, ih (by rw [hset]; simpa using hd), hset]
    simp

/-- With distinct keys no assignment replaces another one. -/
theorem entries_ofPairs {pairs : List (κ × α)} (h : (pairs.map Prod.fst).Nodup) :
    (ofPairs pairs).entries = pairs := by
  have := @entries_foldl_set κ α _ pairs empty (by simpa [empty] using h)
  simpa [ofPairs, empty] using this

theorem get?_ofPairs {pairs : List (κ × α)} (h : (pairs.map Prod.fst).Nodup) {k : κ} {v : α} :
    (ofPairs pairs).get? k = some v ↔ (k, v) ∈ pairs := by
  rw [get?_eq_some, entries_ofPairs h]

/-- The dictionary that is built from a dictionary's entries. -/
theorem get?_ofPairs_entries (d : Dict κ α) (k : κ) : (ofPairs d.entries).get? k = d.get? k := by
  ext v
  rw [get?_ofPairs d.nodup, get?_eq_some]

/-- The dictionary that is built from a dictionary's values, which have their keys. -/
theorem get?_ofPairs_values {key : α → κ} {d : Dict κ α}
    (h : ∀ k v, d.get? k = some v → key v = k) (k : κ) :
    (ofPairs (d.values.map (fun v => (key v, v)))).get? k = d.get? k := by
  have hentries : d.values.map (fun v => (key v, v)) = d.entries := by
    have hkeys : ∀ e ∈ d.entries, ((fun v => (key v, v)) ∘ Prod.snd) e = id e := by
      intro e he
      exact Prod.ext (h e.1 e.2 (get?_eq_some.mpr he)) rfl
    rw [values, List.map_map, List.map_congr_left hkeys, List.map_id]
  rw [hentries, get?_ofPairs_entries]

/-! ## Repeated assignment -/

theorem get?_foldl_set_of_not_mem {l : List (κ × α)} {d : Dict κ α} {k : κ}
    (h : k ∉ l.map Prod.fst) : (l.foldl (fun d e => d.set e.1 e.2) d).get? k = d.get? k := by
  induction l generalizing d with
  | nil => rfl
  | cons e rest ih =>
    obtain ⟨hne, hrest⟩ := not_or.mp (List.mem_cons.not.mp h)
    rw [List.foldl_cons, ih hrest, get?_set_of_ne _ hne]

theorem get?_foldl_set_of_mem {l : List (κ × α)} {d : Dict κ α} (hnodup : (l.map Prod.fst).Nodup)
    {e : κ × α} (h : e ∈ l) : (l.foldl (fun d e => d.set e.1 e.2) d).get? e.1 = some e.2 := by
  induction l generalizing d with
  | nil => exact absurd h List.not_mem_nil
  | cons e' rest ih =>
    rw [List.map_cons, List.nodup_cons] at hnodup
    rcases List.mem_cons.mp h with rfl | h
    · rw [List.foldl_cons, get?_foldl_set_of_not_mem hnodup.1, get?_set_self]
    · exact ih hnodup.2 h

theorem mem_of_get?_foldl_set {l : List (κ × α)} {d : Dict κ α} {k : κ} {v : α}
    (h : (l.foldl (fun d e => d.set e.1 e.2) d).get? k = some v) : (k, v) ∈ l ∨ d.get? k = some v := by
  induction l generalizing d with
  | nil => exact .inr h
  | cons e rest ih =>
    rcases ih h with hrest | hset
    · exact .inl (List.mem_cons_of_mem _ hrest)
    · rw [get?_set] at hset
      split_ifs at hset with hk
      · rw [Option.some.injEq] at hset
        exact .inl (List.mem_cons.mpr (.inl (Prod.ext hk hset.symm)))
      · exact .inr hset

theorem exists_get?_foldl_set {l : List (κ × α)} {d : Dict κ α} {k : κ}
    (h : k ∈ l.map Prod.fst ∨ ∃ v, d.get? k = some v) :
    ∃ v, (l.foldl (fun d e => d.set e.1 e.2) d).get? k = some v := by
  induction l generalizing d with
  | nil => exact h.resolve_left List.not_mem_nil
  | cons e rest ih =>
    refine ih ?_
    by_cases hk : k = e.1
    · exact .inr ⟨e.2, by rw [hk, get?_set_self]⟩
    · rw [get?_set_of_ne _ hk]
      exact h.imp_left (fun hmem => (List.mem_cons.mp hmem).resolve_left hk)

/-- Assigning what is there already changes nothing. -/
theorem foldl_set_of_get? {l : List (κ × α)} {d : Dict κ α} (h : ∀ e ∈ l, d.get? e.1 = some e.2) :
    l.foldl (fun d e => d.set e.1 e.2) d = d := by
  induction l with
  | nil => rfl
  | cons e rest ih =>
    rw [List.foldl_cons, set_of_get? (h e List.mem_cons_self)]
    exact ih (fun e' he' => h e' (List.mem_cons_of_mem _ he'))

/-- Assign each value under its key, in order. -/
def setAll (key : α → κ) (d : Dict κ α) (values : List α) : Dict κ α :=
  values.foldl (fun d v => d.set (key v) v) d

/-- A key holds the last value assigned under it, or what it held before. -/
theorem get?_setAll {key : α → κ} {values : List α} {d : Dict κ α} {k : κ} {v : α}
    (h : (d.setAll key values).get? k = some v) :
    (v ∈ values ∧ key v = k) ∨ (k ∉ values.map key ∧ d.get? k = some v) := by
  induction values generalizing d with
  | nil => exact .inr ⟨by simp, h⟩
  | cons w rest ih =>
    rcases ih (d := d.set (key w) w) h with ⟨hv, hkey⟩ | ⟨hrest, hget⟩
    · exact .inl ⟨List.mem_cons_of_mem _ hv, hkey⟩
    · rw [get?_set] at hget
      by_cases hk : k = key w
      · rw [if_pos hk, Option.some.injEq] at hget
        exact .inl ⟨hget ▸ List.mem_cons_self, hget ▸ hk.symm⟩
      · rw [if_neg hk] at hget
        refine .inr ⟨?_, hget⟩
        simp only [List.map_cons, List.mem_cons, not_or]
        exact ⟨hk, hrest⟩

/-- A key that holds a value still holds one. -/
theorem get?_setAll_isSome {key : α → κ} {values : List α} {d : Dict κ α} {k : κ}
    (h : (d.get? k).isSome) : ((d.setAll key values).get? k).isSome := by
  induction values generalizing d with
  | nil => exact h
  | cons w rest ih =>
    refine ih ?_
    rw [get?_set]
    split
    · rfl
    · exact h

theorem setAll_empty (key : α → κ) (values : List α) :
    empty.setAll key values = ofPairs (values.map (fun v => (key v, v))) := by
  rw [setAll, ofPairs, List.foldl_map]

/-- Distinct keys hold the values they were assigned. -/
theorem get?_setAll_empty {key : α → κ} {values : List α} (h : (values.map key).Nodup) {k : κ}
    {v : α} : (empty.setAll key values).get? k = some v ↔ v ∈ values ∧ key v = k := by
  rw [setAll_empty, get?_ofPairs (by simpa [List.map_map, Function.comp_def] using h)]
  simp only [List.mem_map, Prod.mk.injEq]
  constructor
  · rintro ⟨w, hw, rfl, rfl⟩
    exact ⟨hw, rfl⟩
  · rintro ⟨hv, rfl⟩
    exact ⟨v, hv, rfl, rfl⟩

/-- The values of a dictionary under its own keys are that dictionary again. -/
theorem setAll_values {key : α → κ} {d : Dict κ α} (h : ∀ k v, d.get? k = some v → key v = k) :
    empty.setAll key d.values = d := by
  have hentries : d.values.map (fun v => (key v, v)) = d.entries := by
    rw [values, List.map_map]
    refine (List.map_congr_left (fun e he => ?_)).trans (List.map_id _)
    exact Prod.ext (h e.1 e.2 (get?_eq_some.mpr he)) rfl
  have hsame := @entries_ofPairs κ α _ d.entries d.nodup
  rw [setAll_empty, hentries]
  cases hd : ofPairs d.entries with
  | mk l hl =>
    rw [hd] at hsame
    cases d
    simp only [Dict.mk.injEq]
    exact hsame

/-- Assigning values under distinct keys removes the entries of those keys and appends
the new ones, up to order. -/
theorem entries_setAll_perm {key : α → κ} {values : List α} (d : Dict κ α)
    (h : (values.map key).Nodup) :
    (d.setAll key values).entries.Perm
      (d.entries.filter (fun e => e.1 ∉ values.map key) ++ values.map (fun v => (key v, v))) := by
  induction values generalizing d with
  | nil => simp [setAll]
  | cons w rest ih =>
    rw [List.map_cons, List.nodup_cons] at h
    have hset := (d.entries_set_perm (key w) w).filter (fun e => decide (e.1 ∉ rest.map key))
    rw [List.filter_append, List.filter_filter] at hset
    have hlast : [(key w, w)].filter (fun e => decide (e.1 ∉ rest.map key)) = [(key w, w)] := by
      refine List.filter_eq_self.mpr (fun e he => ?_)
      obtain rfl := List.mem_singleton.mp he
      exact decide_eq_true h.1
    have hfilter : (d.entries.filter (fun e => decide (e.1 ∉ rest.map key) && decide (e.1 ≠ key w))) =
        d.entries.filter (fun e => decide (e.1 ∉ (w :: rest).map key)) := by
      congr 1
      funext e
      by_cases he : e.1 = key w <;> by_cases hr : e.1 ∈ rest.map key <;> simp [he, hr]
    rw [hlast, hfilter] at hset
    have := (ih (d.set (key w) w) h.2).trans (hset.append_right _)
    simpa [setAll] using this

section MapValues

variable {κ α β : Type}

/-- The values under a function, each under its key. -/
def mapValues (f : α → β) (d : Dict κ α) : Dict κ β where
  entries := d.entries.map (fun e => (e.1, f e.2))
  nodup := by
    rw [List.map_map]
    exact d.nodup

@[simp] theorem values_mapValues (f : α → β) (d : Dict κ α) :
    (d.mapValues f).values = d.values.map f := by
  simp [values, mapValues, List.map_map, Function.comp_def]

theorem mapValues_congr {f g : α → β} {d : Dict κ α} (h : ∀ v ∈ d.values, f v = g v) :
    d.mapValues f = d.mapValues g := by
  unfold mapValues
  congr 1
  refine List.map_congr_left (fun e he => ?_)
  rw [h e.2 (List.mem_map_of_mem he)]

variable [DecidableEq κ]

theorem get?_mapValues (f : α → β) (d : Dict κ α) (k : κ) :
    (d.mapValues f).get? k = (d.get? k).map f := by
  have hlookup : ∀ l : List (κ × α),
      lookup k (l.map (fun e => (e.1, f e.2))) = (lookup k l).map f := by
    intro l
    induction l with
    | nil => rfl
    | cons e rest ih =>
      by_cases hk : e.1 = k
      · simp [lookup, hk]
      · simp [lookup, hk, ih]
  exact hlookup d.entries

theorem mapValues_set (f : α → β) (d : Dict κ α) (k : κ) (v : α) :
    (d.set k v).mapValues f = (d.mapValues f).set k (f v) := by
  have hplace : ∀ l : List (κ × α), (place k v l).map (fun e => (e.1, f e.2)) =
      place k (f v) (l.map (fun e => (e.1, f e.2))) := by
    intro l
    induction l with
    | nil => rfl
    | cons e rest ih =>
      by_cases hk : e.1 = k
      · simp [place, hk]
      · simp [place, hk, ih]
  unfold mapValues set
  congr 1
  exact hplace d.entries

end MapValues

end Dict

end PortableRuntime
