import PortableRuntime.Python.Json

/-
Equality of JSON values is an equivalence relation.

Two objects are equal when they have the same names and equal values under each
name, so the order of the fields does not count.  The proofs go by induction on the
first value, with one case for a list and one for an object.
-/

namespace PortableRuntime

namespace Fields

theorem get?_eq_some_mem {name : String} {v : Json} {fields : Fields}
    (h : get? name fields = some v) : (name, v) ∈ fields := by
  induction fields with
  | nil => simp [get?] at h
  | cons f rest ih =>
    obtain ⟨n, w⟩ := f
    by_cases hn : n = name
    · simp only [get?, hn, if_true, Option.some.injEq] at h
      exact List.mem_cons.mpr (.inl (by rw [hn, h]))
    · exact List.mem_cons_of_mem _ (ih (by simpa [get?, hn] using h))

theorem get?_isSome_iff {name : String} {fields : Fields} :
    (get? name fields).isSome = true ↔ name ∈ fields.names := by
  induction fields with
  | nil => simp [get?, names]
  | cons f rest ih =>
    obtain ⟨n, w⟩ := f
    by_cases hn : n = name
    · simp [get?, names, hn]
    · have : name ≠ n := fun h => hn h.symm
      simp only [names] at ih
      simp [get?, names, hn, this, ih]

theorem get?_pop {name key : String} (fields : Fields) (h : key ≠ name) :
    get? key (fields.pop name) = get? key fields := by
  induction fields with
  | nil => rfl
  | cons f rest ih =>
    obtain ⟨n, v⟩ := f
    by_cases hn : n = name
    · have hk : ¬ n = key := fun e => h (e.symm.trans hn)
      simpa [pop, get?, hn, hk, show ¬ name = key from fun e => h e.symm] using ih
    · by_cases hk : n = key
      · simp [pop, get?, hk, h]
      · simpa [pop, get?, hn, hk] using ih

theorem get?_put_self (name : String) (v : Json) (fields : Fields) :
    get? name (fields.put name v) = some v := by
  induction fields with
  | nil => simp [put, get?]
  | cons f rest ih =>
    obtain ⟨name', v'⟩ := f
    by_cases h : name' = name
    · simp [put, get?, h]
    · simp [put, get?, h, ih]

theorem get?_put_of_ne {name key : String} (v : Json) (fields : Fields) (h : key ≠ name) :
    get? key (fields.put name v) = get? key fields := by
  induction fields with
  | nil => simp [put, get?, Ne.symm h]
  | cons f rest ih =>
    obtain ⟨name', v'⟩ := f
    by_cases hname : name' = name
    · subst hname
      simp [put, get?, Ne.symm h]
    · by_cases hkey : name' = key <;> simp [put, get?, hname, hkey, h, ih]

/-- Updates that do not name a key leave its value. -/
theorem get?_foldl_put {key : String} {updates : Fields} (h : key ∉ updates.names)
    (fields : Fields) :
    get? key (updates.foldl (fun m f => m.put f.1 f.2) fields) = get? key fields := by
  induction updates generalizing fields with
  | nil => rfl
  | cons f rest ih =>
    simp only [names, List.map_cons, List.mem_cons, not_or] at h
    exact (ih h.2 _).trans (get?_put_of_ne _ _ h.1)

theorem get?_append (front back : Fields) (name : String) :
    (front ++ back).get? name = (front.get? name).or (back.get? name) := by
  induction front with
  | nil => rfl
  | cons f rest ih =>
    obtain ⟨name', v⟩ := f
    by_cases hname : name' = name
    · rw [List.cons_append, get?, get?, if_pos hname, if_pos hname, Option.some_or]
    · rw [List.cons_append, get?, get?, if_neg hname, if_neg hname, ih]

/-- A field is found without looking at one of another name. -/
theorem get_skip {front back : Fields} {name name' : String} {v : Json} (h : name' ≠ name) :
    (front ++ (name', v) :: back).get name = (front ++ back).get name := by
  rw [get, get, get?_append, get?_append, get?, if_neg h]

theorem get?_pop_self (name : String) (fields : Fields) : get? name (fields.pop name) = none := by
  induction fields with
  | nil => rfl
  | cons f rest ih =>
    obtain ⟨n, v⟩ := f
    by_cases hn : n = name
    · simpa [pop, hn] using ih
    · simpa [pop, get?, hn] using ih

end Fields

namespace Json

attribute [local simp] pyEq pyEqItems pyEqField pyEqFields

/-- Induction over values, through the items of a list and the fields of an object. -/
theorem induct {P : Json → Prop} (null : P .null) (bool : ∀ b, P (.bool b))
    (int : ∀ n, P (.int n)) (float : ∀ t s, P (.float t s)) (str : ∀ s, P (.str s))
    (datetime : ∀ t, P (.datetime t)) (arr : ∀ items, (∀ j ∈ items, P j) → P (.arr items))
    (obj : ∀ fields : Fields, (∀ f ∈ fields, P f.2) → P (.obj fields)) (j : Json) : P j := by
  refine @Json.rec P (fun items => ∀ j ∈ items, P j) (fun fields => ∀ f ∈ fields, P f.2)
    (fun f => P f.2)
    null bool int float str datetime (fun items h => arr items h) (fun fields h => obj fields h)
    (by simp) ?_ (by simp) ?_ (fun _ _ h => h) j
  · intro head tail hhead htail j hj
    rcases List.mem_cons.mp hj with rfl | hj
    · exact hhead
    · exact htail j hj
  · intro head tail hhead htail f hf
    rcases List.mem_cons.mp hf with rfl | hf
    · exact hhead
    · exact htail f hf

theorem pyEqItems_iff {a b : List Json} :
    pyEqItems a b = true ↔ List.Forall₂ (fun x y => x.pyEq y = true) a b := by
  induction a generalizing b with
  | nil => cases b <;> simp [pyEqItems]
  | cons x xs ih =>
    cases b with
    | nil => simp [pyEqItems]
    | cons y ys => simp [pyEqItems, ih]

theorem pyEqField_iff {name : String} {v : Json} {other : Fields} :
    pyEqField (name, v) other = true ↔
      ∃ w, Fields.get? name other = some w ∧ v.pyEq w = true := by
  cases h : Fields.get? name other <;> simp [pyEqField, h]

theorem pyEqFields_iff {seen : List String} {a b : Fields} :
    pyEqFields seen a b = true ↔ ∀ name v, name ∉ seen → Fields.get? name a = some v →
      ∃ w, Fields.get? name b = some w ∧ v.pyEq w = true := by
  induction a generalizing seen with
  | nil => simp [pyEqFields, Fields.get?]
  | cons f rest ih =>
    obtain ⟨n, v⟩ := f
    simp only [pyEqFields, Bool.and_eq_true, Bool.or_eq_true, ih, pyEqField_iff,
      List.contains_iff_mem, List.mem_cons, not_or]
    constructor
    · rintro ⟨hhead, htail⟩ name w hseen hget
      by_cases hn : n = name
      · subst hn
        simp only [Fields.get?, if_true, Option.some.injEq] at hget
        subst hget
        exact hhead.resolve_left hseen
      · exact htail name w ⟨fun h => hn h.symm, hseen⟩ (by simpa [Fields.get?, hn] using hget)
    · intro h
      refine ⟨?_, ?_⟩
      · by_cases hs : n ∈ seen
        · exact .inl hs
        · exact .inr (h n v hs (by simp [Fields.get?]))
      · rintro name w ⟨hne, hseen⟩ hget
        exact h name w hseen (by simpa [Fields.get?, Ne.symm hne] using hget)

/-- Two objects are equal when they have the same names and equal values. -/
theorem pyEq_obj_iff {a b : Fields} :
    (Json.obj a).pyEq (.obj b) = true ↔ (∀ name ∈ b.names, name ∈ a.names) ∧
      ∀ name v, Fields.get? name a = some v →
        ∃ w, Fields.get? name b = some w ∧ v.pyEq w = true := by
  simp only [pyEq, Bool.and_eq_true, List.all_eq_true, pyEqFields_iff, Fields.has,
    Fields.get?_isSome_iff, List.not_mem_nil, not_false_eq_true, true_implies]
  refine and_congr ⟨fun h name hn => ?_, fun h f hf => ?_⟩ Iff.rfl
  · obtain ⟨f, hf, rfl⟩ := List.mem_map.mp hn
    exact h f hf
  · exact h f.1 (List.mem_map.mpr ⟨f, hf, rfl⟩)

/-- Equal objects have equal values under one name. -/
theorem pyEq_get {a b : Fields} (name : String) {v w : Json}
    (h : (Json.obj a).pyEq (.obj b) = true) (ha : Fields.get? name a = some v)
    (hb : Fields.get? name b = some w) : v.pyEq w = true := by
  obtain ⟨w', hw', hvw⟩ := (pyEq_obj_iff.mp h).2 name v ha
  obtain rfl : w' = w := Option.some.inj (hw'.symm.trans hb)
  exact hvw

theorem exists_get_of_pyEq {a b : Fields} {name : String} {w : Json}
    (h : (Json.obj a).pyEq (.obj b) = true) (hb : Fields.get? name b = some w) :
    ∃ v, Fields.get? name a = some v ∧ v.pyEq w = true := by
  have hname : name ∈ a.names :=
    (pyEq_obj_iff.mp h).1 name (Fields.get?_isSome_iff.mp (by rw [hb]; rfl))
  obtain ⟨v, ha⟩ := Option.isSome_iff_exists.mp (Fields.get?_isSome_iff.mpr hname)
  exact ⟨v, ha, pyEq_get name h ha hb⟩

theorem pyEq_refl (j : Json) : j.pyEq j = true := by
  induction j using induct with
  | null => rfl
  | bool b => simp [pyEq]
  | int n => simp [pyEq]
  | float t s => simp [pyEq]
  | str s => simp [pyEq]
  | datetime t => simp [pyEq]
  | arr items ih =>
    rw [pyEq, pyEqItems_iff]
    exact List.forall₂_same.mpr ih
  | obj fields ih =>
    rw [pyEq_obj_iff]
    exact ⟨fun _ h => h, fun name v h => ⟨v, h, ih _ (Fields.get?_eq_some_mem h)⟩⟩

theorem pyEq_str {j : Json} {s : String} : j.pyEq (.str s) = true ↔ j = .str s := by
  cases j <;> simp [pyEq]

/-- A list of strings equals only itself. -/
theorem pyEq_ofStrings {j : Json} {items : List String} :
    j.pyEq (.ofStrings items) = true ↔ j = .ofStrings items := by
  cases j with
  | arr l =>
    rw [ofStrings, pyEq, pyEqItems_iff, Json.arr.injEq]
    constructor
    · intro h
      induction items generalizing l with
      | nil => exact List.forall₂_nil_right_iff.mp h
      | cons s rest ih =>
        obtain ⟨x, xs, hx, hxs, rfl⟩ := List.forall₂_cons_right_iff.mp h
        rw [pyEq_str.mp hx, ih xs hxs]
        rfl
    · rintro rfl
      exact List.forall₂_same.mpr (fun x _ => pyEq_refl x)
  | _ => simp [pyEq, ofStrings]

theorem ofStrings_injective : Function.Injective ofStrings := fun _ _ h =>
  List.map_injective_iff.mpr (fun _ _ => Json.str.inj) (Json.arr.inj h)

theorem pyEq_trans {a b c : Json} (hab : a.pyEq b = true) (hbc : b.pyEq c = true) :
    a.pyEq c = true := by
  induction a using induct generalizing b c with
  | null => cases b <;> cases c <;> simp_all [pyEq]
  | bool x =>
    cases b <;> cases c <;> simp_all [pyEq]
    rename_i y _
    cases x <;> cases y <;> simp_all
  | int n => cases b <;> cases c <;> simp_all [pyEq]
  | float t s => cases b <;> cases c <;> simp_all [pyEq]
  | str s => cases b <;> cases c <;> simp_all [pyEq]
  | datetime t => cases b <;> cases c <;> simp_all [pyEq]
  | arr items ih =>
    cases b with
    | arr bs =>
      cases c with
      | arr cs =>
        rw [pyEq, pyEqItems_iff] at hab hbc ⊢
        induction hab generalizing cs with
        | nil => exact hbc
        | cons hxy _ ih' =>
          cases hbc with
          | cons hyz hrest =>
            exact .cons (ih _ List.mem_cons_self hxy hyz)
              (ih' (fun j hj => ih j (List.mem_cons_of_mem _ hj)) _ hrest)
      | _ => simp [pyEq] at hbc
    | _ => simp [pyEq] at hab
  | obj fields ih =>
    cases b with
    | obj bs =>
      cases c with
      | obj cs =>
        rw [pyEq_obj_iff] at hab hbc ⊢
        refine ⟨fun name h => hab.1 name (hbc.1 name h), fun name v h => ?_⟩
        obtain ⟨w, hw, hvw⟩ := hab.2 name v h
        obtain ⟨x, hx, hwx⟩ := hbc.2 name w hw
        exact ⟨x, hx, ih _ (Fields.get?_eq_some_mem h) hvw hwx⟩
      | _ => simp [pyEq] at hbc
    | _ => simp [pyEq] at hab

end Json

/-- A value in both objects may be compared apart from the rest. -/
theorem Fields.pyEq_pop_iff {a b : Fields} {name : String} {v w : Json}
    (ha : Fields.get? name a = some v) (hb : Fields.get? name b = some w) :
    a.pyEq b = true ↔ v.pyEq w = true ∧ (a.pop name).pyEq (b.pop name) = true := by
  have hnames {fields : Fields} {key : String} (hne : key ≠ name) :
      key ∈ (fields.pop name).names ↔ key ∈ fields.names := by
    rw [← Fields.get?_isSome_iff, Fields.get?_pop fields hne, Fields.get?_isSome_iff]
  have hself {fields : Fields} : name ∉ (fields.pop name).names := by
    rw [← Fields.get?_isSome_iff, Fields.get?_pop_self]
    simp
  constructor
  · intro h
    obtain ⟨hincluded, hvalues⟩ := Json.pyEq_obj_iff.mp h
    refine ⟨Json.pyEq_get name h ha hb, Json.pyEq_obj_iff.mpr ⟨fun key hkey => ?_, ?_⟩⟩
    · have hne : key ≠ name := by
        rintro rfl
        exact hself hkey
      exact (hnames hne).mpr (hincluded key ((hnames hne).mp hkey))
    · intro key value hget
      have hne : key ≠ name := by
        rintro rfl
        rw [Fields.get?_pop_self] at hget
        exact absurd hget (by simp)
      rw [Fields.get?_pop _ hne] at hget ⊢
      exact hvalues key value hget
  · rintro ⟨hvalue, h⟩
    obtain ⟨hincluded, hvalues⟩ := Json.pyEq_obj_iff.mp h
    refine Json.pyEq_obj_iff.mpr ⟨fun key hkey => ?_, fun key value hget => ?_⟩
    · by_cases hne : key = name
      · rw [hne, ← Fields.get?_isSome_iff, ha]
        rfl
      · exact (hnames hne).mp (hincluded key ((hnames hne).mpr hkey))
    · by_cases hne : key = name
      · subst hne
        rw [ha] at hget
        exact ⟨w, hb, Option.some.inj hget ▸ hvalue⟩
      · rw [← Fields.get?_pop _ hne] at hget ⊢
        exact hvalues key value hget

theorem Json.pyEq_symm {a b : Json} (h : a.pyEq b = true) : b.pyEq a = true := by
  induction a using Json.induct generalizing b with
  | null => cases b <;> simp_all [pyEq]
  | bool x =>
    cases b <;> simp_all [pyEq]
  | int n => cases b <;> simp_all [pyEq]
  | float t s => cases b <;> simp_all [pyEq]
  | str s => cases b <;> simp_all [pyEq]
  | datetime t => cases b <;> simp_all [pyEq]
  | arr items ih =>
    cases b with
    | arr bs =>
      rw [pyEq, pyEqItems_iff] at h ⊢
      induction h with
      | nil => exact .nil
      | cons hxy _ ih' =>
        exact .cons (ih _ List.mem_cons_self hxy)
          (ih' (fun j hj => ih j (List.mem_cons_of_mem _ hj)))
    | _ => simp [pyEq] at h
  | obj fields ih =>
    cases b with
    | obj bs =>
      obtain ⟨hnames, hvalues⟩ := pyEq_obj_iff.mp h
      refine pyEq_obj_iff.mpr ⟨fun name hname => ?_, fun name w hw => ?_⟩
      · obtain ⟨v, hv⟩ := Option.isSome_iff_exists.mp (Fields.get?_isSome_iff.mpr hname)
        obtain ⟨w, hw, -⟩ := hvalues name v hv
        exact Fields.get?_isSome_iff.mp (by rw [hw]; rfl)
      · obtain ⟨v, hv, hvw⟩ := exists_get_of_pyEq h hw
        exact ⟨v, hv, ih _ (Fields.get?_eq_some_mem hv) hvw⟩
    | _ => simp [pyEq] at h

theorem Fields.pyEq_refl (a : Fields) : a.pyEq a = true := Json.pyEq_refl _

theorem Fields.pyEq_trans {a b c : Fields} (hab : a.pyEq b = true) (hbc : b.pyEq c = true) :
    a.pyEq c = true := Json.pyEq_trans (show (Json.obj a).pyEq (.obj b) = true from hab) hbc

/-! ### Identity of representations -/

namespace Json

mutual
/-- The same value, fields in the same order. -/
def same : Json → Json → Bool
  | .null, .null => true
  | .bool a, .bool b => a == b
  | .int a, .int b => a == b
  | .float a s, .float b t => a == b && s == t
  | .str a, .str b => a == b
  | .datetime a, .datetime b => a == b
  | .arr a, .arr b => sameItems a b
  | .obj a, .obj b => sameFields a b
  | _, _ => false

def sameItems : List Json → List Json → Bool
  | [], [] => true
  | x :: xs, y :: ys => same x y && sameItems xs ys
  | _, _ => false

def sameFields : List (String × Json) → List (String × Json) → Bool
  | [], [] => true
  | f :: fs, g :: gs => f.1 == g.1 && same f.2 g.2 && sameFields fs gs
  | _, _ => false
end

mutual
theorem same_iff (a b : Json) : same a b = true ↔ a = b := by
  cases a with
  | arr xs => cases b <;> simp [same, sameItems_iff xs]
  | obj fs => cases b <;> simp [same, sameFields_iff fs]
  | _ => cases b <;> simp [same]

theorem sameItems_iff (xs ys : List Json) : sameItems xs ys = true ↔ xs = ys := by
  cases xs with
  | nil => cases ys <;> simp [sameItems]
  | cons x xs => cases ys <;> simp [sameItems, same_iff x, sameItems_iff xs]

theorem sameFields_iff (fs gs : List (String × Json)) : sameFields fs gs = true ↔ fs = gs := by
  cases fs with
  | nil => cases gs <;> simp [sameFields]
  | cons f fs =>
    cases gs with
    | nil => simp [sameFields]
    | cons g gs => simp [sameFields, same_iff f.2, sameFields_iff fs, Prod.ext_iff]
end

instance : DecidableEq Json := fun a b => decidable_of_iff _ (same_iff a b)

end Json

end PortableRuntime
