import Mathlib
import PortableRuntime.Observation.O0

/-!
# What discovery finds

Discovery indexes the formal observations, looks the runtime ones up and counts.  It finds a
coordinate exactly when some case has two observations that agree on it, and counts the runtime
observations that have a partner.
-/

namespace PortableRuntime

/-- Two observations of a case may be compared and agree: the same family, mapped subjects, and the
same bridge key and value. -/
def O0ComparisonCase.Agree (c : O0ComparisonCase) (o f : O0Observation) : Prop :=
  o.bridged.isSome = true ∧ f.bridged = o.bridged ∧ f.family = o.family ∧
    c.runtimeToFormalIds.get? o.subjectRef = some f.subjectRef

/-- A runtime observation of a case that has a partner on a coordinate. -/
def O0ComparisonCase.Partnered (c : O0ComparisonCase) (coordinate : ObservationFamily × String)
    (o : O0Observation) : Prop :=
  o.family = coordinate.1 ∧ o.bridgeKey = some coordinate.2 ∧
    ∃ f ∈ c.formal.observations, c.Agree o f

namespace Discovery

theorem bridged_eq_some {o : O0Observation} {key value : String} :
    o.bridged = some (key, value) ↔ o.bridgeKey = some key ∧ o.bridgeValue = some value ∧
      [ObservationQuality.semanticMismatch, .notRepresented].contains o.quality = false := by
  unfold O0Observation.bridged
  cases o.bridgeKey with
  | none => simp
  | some key' =>
    cases o.bridgeValue with
    | none => simp
    | some value' =>
      cases hquality :
          [ObservationQuality.semanticMismatch, .notRepresented].contains o.quality with
      | true => simp
      | false => simp

/-- An index holds a key when it was there, or one of the observations has it. -/
theorem isSome_index (observations : List O0Observation) (index : FormalIndex)
    (k : ObservationFamily × String × String × String) :
    ((observations.foldl FormalIndex.add index).get? k).isSome = true ↔
      (index.get? k).isSome = true ∨ ∃ f ∈ observations,
        f.family = k.1 ∧ f.subjectRef = k.2.1 ∧ f.bridged = some k.2.2 := by
  induction observations generalizing index with
  | nil => simp
  | cons f rest ih =>
    rw [List.foldl_cons, ih, FormalIndex.add]
    cases hbridged : f.bridged with
    | none => simp [hbridged]
    | some kv =>
      obtain ⟨key, value⟩ := kv
      simp only [List.mem_cons, exists_eq_or_imp, Dict.get?_set, hbridged]
      by_cases hk : k = (f.family, f.subjectRef, key, value)
      · simp [hk]
      · have hne : ¬ (f.family = k.1 ∧ f.subjectRef = k.2.1 ∧ some (key, value) = some k.2.2) := by
          rintro ⟨hfamily, hsubject, hvalue⟩
          exact hk (Prod.ext hfamily.symm (Prod.ext hsubject.symm (Option.some.inj hvalue).symm))
        rw [if_neg hk]
        simp only [hne, false_or]

theorem isSome_formalIndex (c : O0ComparisonCase)
    (k : ObservationFamily × String × String × String) :
    (c.formalIndex.get? k).isSome = true ↔ ∃ f ∈ c.formal.observations,
      f.family = k.1 ∧ f.subjectRef = k.2.1 ∧ f.bridged = some k.2.2 := by
  rw [O0ComparisonCase.formalIndex, isSome_index]
  simp

theorem witnessed_eq_some {c : O0ComparisonCase} {o : O0Observation}
    {coordinate : ObservationFamily × String} :
    c.witnessed o = some coordinate ↔ c.Partnered coordinate o := by
  unfold O0ComparisonCase.witnessed O0ComparisonCase.Partnered O0ComparisonCase.Agree
  cases hbridged : o.bridged with
  | none => simp
  | some kv =>
    obtain ⟨key, value⟩ := kv
    obtain ⟨hkey, -, -⟩ := bridged_eq_some.mp hbridged
    simp only [hkey, Option.isSome_some, true_and]
    cases hsubject : c.runtimeToFormalIds.get? o.subjectRef with
    | none => simp
    | some subject =>
      simp only [isSome_formalIndex]
      constructor
      · intro h
        split at h
        · rename_i hindex
          obtain ⟨f, hf, hfamily, hsubject', hvalue⟩ := hindex
          cases h
          exact ⟨rfl, rfl, f, hf, hvalue, hfamily, congrArg some hsubject'.symm⟩
        · cases h
      · rintro ⟨hfamily, hkey', f, hf, hvalue, hfamily', hsubject'⟩
        rw [if_pos ⟨f, hf, hfamily', (Option.some.inj hsubject').symm, hvalue⟩]
        exact congrArg some (Prod.ext hfamily (Option.some.inj hkey'))

/-- The coordinates that the runtime observations of a case are witnesses for, in their order. -/
def found (c : O0ComparisonCase) : List (ObservationFamily × String) :=
  c.runtime.observations.filterMap c.witnessed

theorem foldl_witnesses (c : O0ComparisonCase) (observations : List O0Observation)
    (counts : WitnessCounts) :
    observations.foldl c.count counts =
      (observations.filterMap c.witnessed).foldl Dict.increment counts := by
  induction observations generalizing counts with
  | nil => rfl
  | cons o rest ih =>
    rw [List.foldl_cons, ih, List.filterMap_cons, O0ComparisonCase.count]
    cases c.witnessed o with
    | none => rfl
    | some key => rfl

theorem witnessCounts_eq (cases : List O0ComparisonCase) :
    witnessCounts cases = (cases.flatMap found).foldl Dict.increment .empty := by
  rw [witnessCounts]
  generalize (Dict.empty : WitnessCounts) = counts
  induction cases generalizing counts with
  | nil => rfl
  | cons c rest ih =>
    rw [List.foldl_cons, ih, foldl_witnesses, List.flatMap_cons, List.foldl_append]
    rfl

/-! ## The order of the coordinates -/

theorem text_injective {a b : ObservationFamily} (h : a.text = b.text) : a = b := by
  cases a <;> cases b <;> first | rfl | exact absurd h (by decide)

instance : Std.Total coordinatePrecedes where
  total a b := by
    rcases lt_trichotomy a.1.1.text b.1.1.text with hlt | heq | hgt
    · exact Or.inl (Or.inl hlt)
    · rcases le_total a.1.2 b.1.2 with hle | hle
      · exact Or.inl (Or.inr ⟨heq, hle⟩)
      · exact Or.inr (Or.inr ⟨heq.symm, hle⟩)
    · exact Or.inr (Or.inl hgt)

instance : IsTrans _ coordinatePrecedes where
  trans a b c hab hbc := by
    rcases hab with hab | ⟨hab, hab'⟩
    · rcases hbc with hbc | ⟨hbc, -⟩
      · exact Or.inl (lt_trans hab hbc)
      · exact Or.inl (lt_of_lt_of_eq hab hbc)
    · rcases hbc with hbc | ⟨hbc, hbc'⟩
      · exact Or.inl (lt_of_eq_of_lt hab hbc)
      · exact Or.inr ⟨hab.trans hbc, le_trans hab' hbc'⟩

/-- The order is strict between the entries of a dictionary. -/
theorem strict_of_precedes {a b : (ObservationFamily × String) × Nat} (h : coordinatePrecedes a b)
    (hne : a.1 ≠ b.1) :
    a.1.1.text < b.1.1.text ∨ (a.1.1 = b.1.1 ∧ a.1.2 < b.1.2) := by
  rcases h with h | ⟨hfamily, hkey⟩
  · exact Or.inl h
  · have hfamily' := text_injective hfamily
    exact Or.inr ⟨hfamily', lt_of_le_of_ne hkey (fun heq => hne (Prod.ext hfamily' heq))⟩

end Discovery

/-! ## Exactness -/

instance (c : O0ComparisonCase) (coordinate : ObservationFamily × String) :
    DecidablePred (c.Partnered coordinate) := fun _ =>
  decidable_of_iff _ Discovery.witnessed_eq_some

/-- How many runtime observations of the cases have a partner on a coordinate. -/
def partners (cases : List O0ComparisonCase) (coordinate : ObservationFamily × String) : Nat :=
  (cases.map (fun c => c.runtime.observations.countP (fun o => c.Partnered coordinate o))).sum

namespace Discovery

theorem occurrences_found (cases : List O0ComparisonCase)
    (coordinate : ObservationFamily × String) :
    Dict.occurrences (cases.flatMap found) coordinate = partners cases coordinate := by
  rw [Dict.occurrences, List.countP_flatMap, partners]
  refine congrArg List.sum (List.map_congr_left (fun c _ => ?_))
  show (c.runtime.observations.filterMap c.witnessed).countP _ = _
  rw [List.countP_filterMap]
  refine List.countP_congr (fun o _ => ?_)
  rw [decide_eq_true_eq, ← witnessed_eq_some]
  cases c.witnessed o with
  | none => simp
  | some key => simp

/-- Coordinates in the order of discovery. -/
def Before (b b' : B0Coordinate) : Prop :=
  b.family.text < b'.family.text ∨ (b.family = b'.family ∧ b.bridgeKey < b'.bridgeKey)

theorem before_irrefl (b : B0Coordinate) : ¬ Before b b := by
  intro h
  rcases h with h | ⟨-, h⟩
  · exact lt_irrefl _ h
  · exact lt_irrefl _ h

theorem before_asymm {b b' : B0Coordinate} (h : Before b b') (h' : Before b' b) : False := by
  rcases h with h | ⟨hfamily, h⟩
  · rcases h' with h' | ⟨hfamily', -⟩
    · exact lt_asymm h h'
    · exact lt_irrefl _ (hfamily' ▸ h)
  · rcases h' with h' | ⟨-, h'⟩
    · exact lt_irrefl _ (hfamily ▸ h')
    · exact lt_asymm h h'

/-- Two lists of coordinates in the order of discovery are equal when they have the same members. -/
theorem eq_of_before {l l' : List B0Coordinate} (hl : l.Pairwise Before)
    (hl' : l'.Pairwise Before) (hmem : ∀ b, b ∈ l ↔ b ∈ l') : l = l' := by
  have hnodup : ∀ {l : List B0Coordinate}, l.Pairwise Before → l.Nodup := by
    intro l h
    apply h.imp
    intro b b' hb heq
    exact before_irrefl b' (heq ▸ hb)
  refine List.Perm.eq_of_pairwise (fun b b' _ _ hb hb' => (before_asymm hb hb').elim) hl hl' ?_
  exact (List.perm_ext_iff_of_nodup (hnodup hl) (hnodup hl')).mpr hmem

theorem pairwise_discoverB0 (cases : List O0ComparisonCase) :
    (discoverB0 cases).Pairwise Before := by
  rw [discoverB0, List.pairwise_map]
  have hsorted := List.pairwise_insertionSort coordinatePrecedes (witnessCounts cases).entries
  have hkeys : ((witnessCounts cases).entries.insertionSort coordinatePrecedes).Pairwise
      (fun a b => a.1 ≠ b.1) := by
    have hnodup := (witnessCounts cases).nodup
    rw [← ((List.perm_insertionSort coordinatePrecedes
      (witnessCounts cases).entries).map Prod.fst).nodup_iff] at hnodup
    exact List.pairwise_map.mp hnodup
  exact (hsorted.and hkeys).imp (fun h => strict_of_precedes h.1 h.2)

theorem mem_discoverB0 {cases : List O0ComparisonCase} {b : B0Coordinate} :
    b ∈ discoverB0 cases ↔ b.key = b.family.text ++ ":" ++ b.bridgeKey ∧
      0 < b.witnesses ∧ b.witnesses = partners cases (b.family, b.bridgeKey) := by
  rw [discoverB0, List.mem_map]
  constructor
  · rintro ⟨⟨coordinate, n⟩, hmem, rfl⟩
    rw [List.mem_insertionSort, ← Dict.get?_eq_some, witnessCounts_eq, Dict.get?_tally,
      occurrences_found] at hmem
    exact ⟨rfl, hmem.1, hmem.2.symm⟩
  · rintro ⟨hkey, hpos, hwitnesses⟩
    refine ⟨((b.family, b.bridgeKey), b.witnesses), ?_, ?_⟩
    · rw [List.mem_insertionSort, ← Dict.get?_eq_some, witnessCounts_eq, Dict.get?_tally,
        occurrences_found]
      exact ⟨hpos, hwitnesses.symm⟩
    · rw [← hkey]

end Discovery

/-- Whatever the snapshots are, discovery admits a coordinate exactly when some runtime observation
has a partner on it, counts the runtime observations that have one, and lists each coordinate once,
in the order of the families and keys. -/
theorem discovery_exact (cases : List O0ComparisonCase) :
    (∀ b, b ∈ discoverB0 cases ↔ b.key = b.family.text ++ ":" ++ b.bridgeKey ∧
      0 < b.witnesses ∧ b.witnesses = partners cases (b.family, b.bridgeKey)) ∧
    (discoverB0 cases).Pairwise Discovery.Before :=
  ⟨fun _ => Discovery.mem_discoverB0, Discovery.pairwise_discoverB0 cases⟩

end PortableRuntime
