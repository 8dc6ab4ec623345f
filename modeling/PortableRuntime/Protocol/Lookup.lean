import PortableRuntime.Protocol.Validation

/-!
# Lookups in a well identified state

When no identity is empty or repeated, every lookup of the validator is decided by what
the buckets hold, so none of them depends on the order of the objects.
-/

namespace PortableRuntime
namespace State

variable {s s' : State}

/-- No object lacks an identity, and no two objects share one. -/
structure WellIdentified (s : State) : Prop where
  nonempty : ∀ e ∈ s.identities, e.1 ≠ ""
  nodup : (s.identities.map Prod.fst).Nodup

theorem mem_identities {id : String} {k : Kind} :
    (id, k) ∈ s.identities ↔ ∃ m ∈ s k, k.identifier m = id := by
  simp only [identities, List.mem_flatMap, List.mem_map, Prod.mk.injEq]
  constructor
  · rintro ⟨k', -, m, hm, hid, rfl⟩
    exact ⟨m, hm, hid⟩
  · rintro ⟨m, hm, hid⟩
    exact ⟨k, Kind.mem_all k, m, hm, hid, rfl⟩

theorem indexed_eq (s : State) : s.indexed.map Prod.snd = s.identities := by
  simp only [indexed, identities, List.map_flatMap, List.map_map]
  congr 1
  funext k
  have h : (Prod.snd ∘ fun e : Model k × Nat => (e.2, k.identifier e.1, k)) =
      (fun m => (k.identifier m, k)) ∘ Prod.fst := rfl
  rw [h, ← List.map_map, List.zipIdx_map_fst]

theorem identityErrorsFrom_eq_nil {seen : List (String × Kind)}
    {l : List (Nat × String × Kind)} :
    identityErrorsFrom seen l = [] ↔ (∀ e ∈ l, e.2.1 ≠ "") ∧ (l.map (fun e => e.2.1)).Nodup ∧
      ∀ e ∈ l, e.2.1 ∉ seen.map Prod.fst := by
  induction l generalizing seen with
  | nil => simp [identityErrorsFrom]
  | cons e rest ih =>
    obtain ⟨index, id, kind⟩ := e
    by_cases hid : id = ""
    · simp [identityErrorsFrom, hid]
    · cases hfind : seen.find? (fun e => e.1 = id) with
      | some previous =>
        have hmem : id ∈ seen.map Prod.fst := List.mem_map.mpr
          ⟨previous, List.mem_of_find?_eq_some hfind, by simpa using List.find?_some hfind⟩
        simp only [identityErrorsFrom, hid, if_false, hfind]
        constructor
        · exact fun h => absurd h (by simp)
        · exact fun h => absurd hmem (h.2.2 _ List.mem_cons_self)
      | none =>
        have hnot : id ∉ seen.map Prod.fst := by
          intro hmem
          obtain ⟨e, he, rfl⟩ := List.mem_map.mp hmem
          exact absurd (List.find?_eq_none.mp hfind e he) (by simp)
        simp only [identityErrorsFrom, hid, if_false, hfind, ih, List.forall_mem_cons,
          List.map_cons, List.nodup_cons]
        constructor
        · rintro ⟨hne, hnodup, hseen⟩
          refine ⟨⟨hid, hne⟩, ⟨?_, hnodup⟩, hnot, fun e he hmem =>
            hseen e he (List.mem_cons_of_mem _ hmem)⟩
          intro hmem
          obtain ⟨e, he, heq⟩ := List.mem_map.mp hmem
          exact hseen e he (List.mem_cons.mpr (.inl heq))
        · rintro ⟨⟨-, hne⟩, ⟨hrest, hnodup⟩, -, hseen⟩
          refine ⟨hne, hnodup, fun e he hmem => ?_⟩
          rcases List.mem_cons.mp hmem with heq | hmem
          · exact hrest (List.mem_map.mpr ⟨e, he, heq⟩)
          · exact hseen e he hmem

theorem identityErrors_eq_nil : identityErrors s = [] ↔ s.WellIdentified := by
  have hmap : s.indexed.map (fun e => e.2.1) = s.identities.map Prod.fst := by
    rw [← indexed_eq, List.map_map]
    rfl
  rw [identityErrors, identityErrorsFrom_eq_nil, hmap]
  constructor
  · rintro ⟨hne, hnodup, -⟩
    refine ⟨fun e he => ?_, hnodup⟩
    rw [← indexed_eq] at he
    obtain ⟨e', he', rfl⟩ := List.mem_map.mp he
    exact hne e' he'
  · rintro ⟨hne, hnodup⟩
    exact ⟨fun e he => hne e.2 (by rw [← indexed_eq]; exact List.mem_map.mpr ⟨e, he, rfl⟩),
      hnodup, by simp⟩

/-! ## Lookups by membership -/

theorem WellIdentified.bucket_nodup (h : s.WellIdentified) (k : Kind) :
    ((s k).map k.identifier).Nodup := by
  have hsub : ((s k).map (fun m => (k.identifier m, k))).Sublist s.identities :=
    List.sublist_flatten_of_mem (List.mem_map.mpr ⟨k, Kind.mem_all k, rfl⟩)
  have := (hsub.map Prod.fst).nodup h.nodup
  simpa [List.map_map, Function.comp_def] using this

theorem kindOf_eq_some (h : s.WellIdentified) {ref : String} {k : Kind} :
    s.kindOf ref = some k ↔ ∃ m ∈ s k, k.identifier m = ref := by
  rw [← mem_identities, kindOf, Option.map_eq_some_iff]
  constructor
  · rintro ⟨⟨id, k'⟩, hfind, rfl⟩
    have hid : id = ref := by simpa using List.find?_some hfind
    exact hid ▸ List.mem_of_find?_eq_some hfind
  · intro hmem
    cases hfind : s.identities.find? (fun e => decide (e.1 = ref)) with
    | none => exact absurd (List.find?_eq_none.mp hfind _ hmem) (by simp)
    | some e =>
      have hid : e.1 = ref := by simpa using List.find?_some hfind
      have := List.inj_on_of_nodup_map h.nodup (List.mem_of_find?_eq_some hfind) hmem hid
      exact ⟨e, rfl, by rw [this]⟩

theorem hasId_iff (h : s.WellIdentified) {ref : String} :
    s.hasId ref = true ↔ ∃ k, ∃ m ∈ s k, k.identifier m = ref := by
  simp only [hasId, ne_eq, decide_eq_true_eq, Option.isSome_iff_exists, kindOf_eq_some h]
  constructor
  · exact fun hr => hr.2
  · rintro ⟨k, m, hm, hid⟩
    exact ⟨fun he => h.nonempty (ref, k) (mem_identities.mpr ⟨m, hm, hid⟩) he, k, m, hm, hid⟩

theorem find_eq_some {k : Kind} {values : List (Model k)}
    (h : (values.map k.identifier).Nodup) {ref : String} {m : Model k} :
    find values ref = some m ↔ m ∈ values ∧ k.identifier m = ref := by
  constructor
  · intro hfind
    exact ⟨List.mem_of_find?_eq_some hfind, by simpa using List.find?_some hfind⟩
  · rintro ⟨hm, hid⟩
    cases hfind : find values ref with
    | none => exact absurd (List.find?_eq_none.mp hfind m hm) (by simp [hid])
    | some m' =>
      have hid' : k.identifier m' = ref := by simpa using List.find?_some hfind
      have := List.inj_on_of_nodup_map h (List.mem_of_find?_eq_some hfind) hm (hid'.trans hid.symm)
      rw [this]

theorem get?_byId {k : Kind} {values : List (Model k)} (h : (values.map k.identifier).Nodup)
    {ref : String} {m : Model k} :
    (byId values).get? ref = some m ↔ m ∈ values ∧ k.identifier m = ref := by
  rw [byId, Dict.get?_ofPairs (by simpa [List.map_map, Function.comp_def] using h)]
  simp only [List.mem_map, Prod.mk.injEq]
  constructor
  · rintro ⟨m', hm', rfl, rfl⟩
    exact ⟨hm', rfl⟩
  · rintro ⟨hm, rfl⟩
    exact ⟨m, hm, rfl, rfl⟩

/-- Under distinct identities a bucket is its own index. -/
theorem values_byId {k : Kind} {values : List (Model k)} (h : (values.map k.identifier).Nodup) :
    (byId values).values = values := by
  rw [byId, Dict.values, Dict.entries_ofPairs (by simpa [List.map_map, Function.comp_def] using h),
    List.map_map]
  simp [Function.comp_def]

theorem get?_dumps (h : s.WellIdentified) {ref : String} {raw : Fields} :
    s.dumps.get? ref = some raw ↔ ∃ k, ∃ m ∈ s k, k.identifier m = ref ∧ k.dump m = raw := by
  have hnodup : ((Kind.all.flatMap (fun k => (s k).map
      (fun m => (k.identifier m, k.dump m)))).map Prod.fst).Nodup := by
    have heq : (Kind.all.flatMap (fun k => (s k).map
        (fun m => (k.identifier m, k.dump m)))).map Prod.fst = s.identities.map Prod.fst := by
      simp [identities, List.map_flatMap, List.map_map, Function.comp_def]
    rw [heq]
    exact h.nodup
  rw [dumps, Dict.get?_ofPairs hnodup]
  simp only [List.mem_flatMap, List.mem_map, Prod.mk.injEq, Kind.mem_all, true_and]

/-! ## Rearranged buckets -/

/-- The same objects in each bucket, in some order. -/
def Rearranged (s s' : State) : Prop := ∀ k, (s k).Perm (s' k)

theorem Rearranged.trans {s'' : State} (h : Rearranged s s') (h' : Rearranged s' s'') :
    Rearranged s s'' := fun k => (h k).trans (h' k)

theorem Rearranged.merge (h : Rearranged s s') (k : Kind) (values : List (Model k)) :
    Rearranged (s.merge k values) (s'.merge k values) := by
  intro k'
  by_cases hk : k' = k
  · subst hk
    simp only [State.merge, Function.update_self, mergeBucket]
    exact ((h k').filter _).append_right values
  · rw [State.merge, State.merge, Function.update_of_ne hk, Function.update_of_ne hk]
    exact h k'

theorem Rearranged.identities (h : Rearranged s s') : s.identities.Perm s'.identities :=
  List.Perm.flatMap_left _ (fun k _ => (h k).map _)

theorem Rearranged.wellIdentified (h : Rearranged s s') (hs : s.WellIdentified) :
    s'.WellIdentified where
  nonempty := fun e he => hs.nonempty e (h.identities.mem_iff.mpr he)
  nodup := ((h.identities.map Prod.fst).nodup_iff).mp hs.nodup

section Equal

variable (h : Rearranged s s') (hs : s.WellIdentified)
include h hs

theorem Rearranged.kindOf (ref : String) : s'.kindOf ref = s.kindOf ref := by
  ext k
  rw [kindOf_eq_some (h.wellIdentified hs), kindOf_eq_some hs]
  simp only [(h k).mem_iff]

theorem Rearranged.hasId (ref : String) : s'.hasId ref = s.hasId ref := by
  simp only [State.hasId, h.kindOf hs ref]

theorem Rearranged.find (k : Kind) (ref : String) :
    State.find (s' k) ref = State.find (s k) ref := by
  ext m
  rw [find_eq_some ((h.wellIdentified hs).bucket_nodup k), find_eq_some (hs.bucket_nodup k),
    (h k).mem_iff]

theorem Rearranged.get?_byId (k : Kind) (ref : String) :
    (byId (s' k)).get? ref = (byId (s k)).get? ref := by
  ext m
  rw [State.get?_byId ((h.wellIdentified hs).bucket_nodup k), State.get?_byId (hs.bucket_nodup k),
    (h k).mem_iff]

theorem Rearranged.get?_dumps (ref : String) : s'.dumps.get? ref = s.dumps.get? ref := by
  ext raw
  rw [State.get?_dumps (h.wellIdentified hs), State.get?_dumps hs]
  simp only [(h _).mem_iff]

end Equal

end State
end PortableRuntime
