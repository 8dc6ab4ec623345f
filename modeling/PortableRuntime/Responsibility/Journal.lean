import Mathlib.Data.List.Sort
import PortableRuntime.Core.Models
import PortableRuntime.Responsibility.Models

/-!
# The responsibility journal

Objects are recorded as events whose ids are made of the object ids, so an object is found
under its own id.  `entries` keeps the order in which they were recorded; the journal lists
them by creation time and id.
-/

namespace PortableRuntime

structure ResponsibilityStore where
  objects : Dict String ResponsibilityObject
  works : Dict String Work
  keyed : ∀ k v, objects.get? k = some v → v.id = k

namespace ResponsibilityStore

def empty : ResponsibilityStore where
  objects := Dict.empty
  works := Dict.empty
  keyed := by
    intro k v h
    exact absurd h (by simp)

/-- `append_event` of the object's event. -/
def record (s : ResponsibilityStore) (v : ResponsibilityObject) : ResponsibilityStore where
  objects := s.objects.set v.id v
  works := s.works
  keyed := by
    intro k w h
    rw [Dict.get?_set] at h
    split at h
    · next hk => exact (Option.some.inj h ▸ hk.symm)
    · exact s.keyed k w h

def putWork (s : ResponsibilityStore) (work : Work) : ResponsibilityStore :=
  { s with works := s.works.set work.id work }

def journalGet (s : ResponsibilityStore) (objectId : String) : Option ResponsibilityObject :=
  s.objects.get? objectId

def journalSave (s : ResponsibilityStore) (value : ResponsibilityObject) :
    Result (ResponsibilityObject × ResponsibilityStore) :=
  match s.journalGet value.id with
  | some existing =>
    if existing == value then .ok (existing, s)
    else raiseValue s!"responsibility object {Text.pyRepr value.id} is append-only"
  | none => .ok (value, s.record value)

/-- The key `(created_at, id)`. -/
def createdBefore (a b : ResponsibilityObject) : Prop :=
  a.base.createdAt < b.base.createdAt ∨ (a.base.createdAt = b.base.createdAt ∧ a.id ≤ b.id)

instance : DecidableRel createdBefore := fun a b => by
  unfold createdBefore
  infer_instance

/-- `list_events(subject_ref)`, then the objects of one type, by creation time and id. -/
def list (s : ResponsibilityStore) (objectType : String) (responsibilityRef : Option String) :
    List ResponsibilityObject :=
  ((s.objects.values.filter (fun v => responsibilityRef.all (· = v.subjectRef))).filter
    (fun v => v.typeName = objectType)).insertionSort createdBefore

/-- `list_work`, newest first. -/
def listWork (s : ResponsibilityStore) : List Work :=
  s.works.values.insertionSort (fun a b => b.createdAt ≤ a.createdAt)

theorem journalGet_record (s : ResponsibilityStore) (v : ResponsibilityObject) (k : String) :
    (s.record v).journalGet k = if k = v.id then some v else s.journalGet k :=
  Dict.get?_set s.objects v.id k v

theorem journalGet_record_of_some {s : ResponsibilityStore} {v w : ResponsibilityObject}
    {k : String} (hfresh : s.journalGet v.id = none) (h : s.journalGet k = some w) :
    (s.record v).journalGet k = some w := by
  rw [journalGet_record, if_neg, h]
  rintro rfl
  rw [hfresh] at h
  exact absurd h (by simp)

theorem entries_record {s : ResponsibilityStore} {v : ResponsibilityObject}
    (hfresh : s.journalGet v.id = none) :
    (s.record v).objects.entries = s.objects.entries ++ [(v.id, v)] :=
  Dict.entries_set_of_not_mem hfresh v

theorem values_record {s : ResponsibilityStore} {v : ResponsibilityObject}
    (hfresh : s.journalGet v.id = none) :
    (s.record v).objects.values = s.objects.values ++ [v] := by
  rw [Dict.values, entries_record hfresh, List.map_append]
  rfl

theorem journalGet_eq_some {s : ResponsibilityStore} {v : ResponsibilityObject} :
    s.journalGet v.id = some v ↔ v ∈ s.objects.values := by
  rw [Dict.mem_values]
  constructor
  · intro h
    exact ⟨v.id, h⟩
  · rintro ⟨k, hk⟩
    rw [s.keyed k v hk]
    exact hk

theorem id_of_journalGet {s : ResponsibilityStore} {k : String} {v : ResponsibilityObject}
    (h : s.journalGet k = some v) : v.id = k := s.keyed k v h

theorem mem_list {s : ResponsibilityStore} {objectType : String} {ref : Option String}
    {v : ResponsibilityObject} :
    v ∈ s.list objectType ref ↔
      s.journalGet v.id = some v ∧ (∀ r ∈ ref, r = v.subjectRef) ∧ v.typeName = objectType := by
  rw [journalGet_eq_some]
  simp [list, Option.all_eq_true, and_comm]

/-- An object of another type, or of another responsibility, leaves a listing alone. -/
theorem list_record_of_ne {s : ResponsibilityStore} {v : ResponsibilityObject}
    {objectType : String} {ref : Option String} (hfresh : s.journalGet v.id = none)
    (hne : v.typeName ≠ objectType ∨ ∃ r ∈ ref, r ≠ v.subjectRef) :
    (s.record v).list objectType ref = s.list objectType ref := by
  have hskip : ([v].filter (fun v => ref.all (· = v.subjectRef))).filter
      (fun v => v.typeName = objectType) = [] := by
    rcases hne with htype | ⟨r, hr, hsubject⟩
    · simp [List.filter_filter, htype]
    · obtain rfl := hr
      simp [hsubject]
  rw [list, values_record hfresh, List.filter_append, List.filter_append, hskip, List.append_nil]
  rfl

/-- An object that is listed joins the listing. -/
theorem list_record_perm {s : ResponsibilityStore} {v : ResponsibilityObject}
    {ref : Option String} (hfresh : s.journalGet v.id = none)
    (href : ∀ r ∈ ref, r = v.subjectRef) :
    ((s.record v).list v.typeName ref).Perm (s.list v.typeName ref ++ [v]) := by
  have hkeep : ([v].filter (fun v => ref.all (· = v.subjectRef))).filter
      (fun w => w.typeName = v.typeName) = [v] := by
    have hall : ref.all (· = v.subjectRef) = true := by
      simpa [Option.all_eq_true] using href
    simp [hall]
  rw [list, values_record hfresh, List.filter_append, List.filter_append, hkeep]
  refine (List.perm_insertionSort _ _).trans (List.Perm.append_right [v] ?_)
  exact (List.perm_insertionSort _ _).symm

/-- The `isinstance` reading of a listing. -/
def listed {α : Type} (s : ResponsibilityStore) (as : ResponsibilityObject → Option α)
    (objectType : String) (responsibilityRef : Option String) : List α :=
  (s.list objectType responsibilityRef).filterMap as

theorem listed_record_of_ne {α : Type} {as : ResponsibilityObject → Option α}
    {s : ResponsibilityStore} {v : ResponsibilityObject} {objectType : String}
    {ref : Option String} (hfresh : s.journalGet v.id = none)
    (hne : v.typeName ≠ objectType ∨ ∃ r ∈ ref, r ≠ v.subjectRef) :
    (s.record v).listed as objectType ref = s.listed as objectType ref := by
  rw [listed, list_record_of_ne hfresh hne]
  rfl

theorem listed_record_perm {α : Type} {as : ResponsibilityObject → Option α}
    {s : ResponsibilityStore} {v : ResponsibilityObject} {a : α} {ref : Option String}
    (hfresh : s.journalGet v.id = none) (has : as v = some a)
    (href : ∀ r ∈ ref, r = v.subjectRef) :
    ((s.record v).listed as v.typeName ref).Perm (s.listed as v.typeName ref ++ [a]) := by
  have h := (list_record_perm hfresh href).filterMap as
  simpa [listed, List.filterMap_append, has] using h

end ResponsibilityStore
end PortableRuntime
