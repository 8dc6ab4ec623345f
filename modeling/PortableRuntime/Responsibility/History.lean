import PortableRuntime.Library.Sorting
import PortableRuntime.Responsibility.Growth

/-!
# Objects and the journal before them

`before n` is the store when it held its first `n` objects.  Each object was admitted by the
store before it (`History`), so what the kernel checked of an object can be compared with
what it would read now: the objects recorded between the two make the difference.
-/

namespace PortableRuntime
namespace ResponsibilityStore

theorem eq_of_entries {s s' : ResponsibilityStore} (h : s.objects.entries = s'.objects.entries)
    (hworks : s.works = s'.works) : s = s' := by
  obtain ⟨⟨entries, _⟩, works, _⟩ := s
  obtain ⟨⟨entries', _⟩, works', _⟩ := s'
  obtain rfl : entries = entries' := h
  obtain rfl : works = works' := hworks
  rfl

def before (s : ResponsibilityStore) (n : Nat) : ResponsibilityStore where
  objects := ⟨s.objects.entries.take n, ((List.take_sublist n _).map _).nodup s.objects.nodup⟩
  works := s.works
  keyed := by
    intro k v h
    rw [Dict.get?_eq_some] at h
    exact s.keyed k v (Dict.get?_eq_some.mpr (List.mem_of_mem_take h))

@[simp] theorem entries_before (s : ResponsibilityStore) (n : Nat) :
    (s.before n).objects.entries = s.objects.entries.take n := rfl

theorem before_of_length_le {s : ResponsibilityStore} {n : Nat}
    (h : s.objects.entries.length ≤ n) : s.before n = s :=
  eq_of_entries (List.take_of_length_le h) rfl

theorem journalGet_of_before {s : ResponsibilityStore} {n : Nat} {k : String}
    {v : ResponsibilityObject} (h : (s.before n).journalGet k = some v) :
    s.journalGet k = some v := by
  have hmem : (k, v) ∈ s.objects.entries.take n := Dict.get?_eq_some.mp h
  exact Dict.get?_eq_some.mpr (List.mem_of_mem_take hmem)

theorem journalGet_of_getElem? {s : ResponsibilityStore} {n : Nat} {k : String}
    {v : ResponsibilityObject} (h : s.objects.entries[n]? = some (k, v)) :
    s.journalGet k = some v :=
  Dict.get?_eq_some.mpr (List.mem_of_getElem? h)

theorem exists_getElem?_of_journalGet {s : ResponsibilityStore} {k : String}
    {v : ResponsibilityObject} (h : s.journalGet k = some v) :
    ∃ n : Nat, s.objects.entries[n]? = some (k, v) :=
  List.getElem?_of_mem (Dict.get?_eq_some.mp h)

/-- The object at a position is new to the store before it. -/
theorem journalGet_before_eq_none {s : ResponsibilityStore} {n : Nat} {k : String}
    {v : ResponsibilityObject} (h : s.objects.entries[n]? = some (k, v)) :
    (s.before n).journalGet k = none := by
  refine Dict.get?_eq_none.mpr (fun hk => ?_)
  obtain ⟨hn, hget⟩ := List.getElem?_eq_some_iff.mp h
  have hnodup := s.objects.nodup
  rw [← List.take_append_drop n s.objects.entries, List.map_append, List.nodup_append] at hnodup
  refine hnodup.2.2 k hk k ?_ rfl
  rw [List.drop_eq_getElem_cons hn, hget]
  simp

theorem before_succ {s : ResponsibilityStore} {n : Nat} {k : String} {v : ResponsibilityObject}
    (h : s.objects.entries[n]? = some (k, v)) : s.before (n + 1) = (s.before n).record v := by
  have hid : v.id = k := id_of_journalGet (journalGet_of_getElem? h)
  refine eq_of_entries ?_ rfl
  rw [entries_record (hid ▸ journalGet_before_eq_none h), entries_before, entries_before,
    List.take_add_one, h, hid]
  rfl

/-- Each object was admitted by a call on the store before it. -/
def History (s : ResponsibilityStore) : Prop :=
  ∀ (n : Nat) k v, s.objects.entries[n]? = some (k, v) → ∃ call, (s.before n).Admits call v

theorem before_record_of_le {s : ResponsibilityStore} {v : ResponsibilityObject} {n : Nat}
    (hfresh : s.journalGet v.id = none) (hn : n ≤ s.objects.entries.length) :
    (s.record v).before n = s.before n := by
  refine eq_of_entries ?_ rfl
  rw [entries_before, entries_record hfresh, List.take_append_of_le_length hn, entries_before]

theorem admits_putWork {s : ResponsibilityStore} {call : KernelCall} {v : ResponsibilityObject}
    {work : Work} (h : s.Admits call v) : (s.putWork work).Admits call v := by
  cases v with
  | commitment c =>
    obtain ⟨t, proposal, priority, portfolio, reservation, hcall, hadmissible⟩ := h
    exact ⟨t, proposal, priority, portfolio, reservation, hcall, { hadmissible with }⟩
  | _ => exact h

theorem History.step {ids : StableId} {s : ResponsibilityStore} (call : KernelCall)
    (h : History s) : History (call.step ids s) := by
  refine step_induction (fun s work hs n k v hn => ?_) (fun s v hs hfresh hadmits => ?_) h
  · obtain ⟨call, hadmits⟩ := hs n k v hn
    exact ⟨call, admits_putWork hadmits⟩
  intro n k w hn
  rw [entries_record hfresh] at hn
  rcases Nat.lt_or_ge n s.objects.entries.length with hlt | hge
  · rw [List.getElem?_append_left hlt] at hn
    rw [before_record_of_le hfresh hlt.le]
    exact hs n k w hn
  · rw [List.getElem?_append_right hge, List.getElem?_eq_some_iff] at hn
    obtain ⟨hlast, hget⟩ := hn
    have hlength : n = s.objects.entries.length := by
      simp only [List.length_singleton] at hlast
      omega
    obtain rfl : v = w := by simpa using congrArg Prod.snd hget
    rw [before_record_of_le hfresh hlength.le, before_of_length_le hlength.ge]
    exact ⟨call, hadmits⟩

theorem History.empty : History empty :=
  fun n k v h => absurd h (by simp [ResponsibilityStore.empty, Dict.empty])

/-! ## What is recorded between two positions -/

/-- The values of the entries after the one under a key. -/
def after (id : String) : List (String × ResponsibilityObject) → List ResponsibilityObject
  | [] => []
  | (k, _) :: rest => if k = id then rest.map Prod.snd else after id rest

def recordedAfter (s : ResponsibilityStore) (id : String) : List ResponsibilityObject :=
  after id s.objects.entries

theorem after_append {id : String} {v : ResponsibilityObject}
    {l l' : List (String × ResponsibilityObject)} (h : id ∉ l.map Prod.fst) :
    after id (l ++ (id, v) :: l') = l'.map Prod.snd := by
  induction l with
  | nil => simp [after]
  | cons e rest ih =>
    rw [List.map_cons, List.mem_cons, not_or] at h
    rw [List.cons_append, after, if_neg (Ne.symm h.1)]
    exact ih h.2

theorem recordedAfter_eq {s : ResponsibilityStore} {n : Nat} {id : String}
    {v : ResponsibilityObject} (h : s.objects.entries[n]? = some (id, v)) :
    s.recordedAfter id = (s.objects.entries.drop (n + 1)).map Prod.snd := by
  obtain ⟨hn, hget⟩ := List.getElem?_eq_some_iff.mp h
  have hsplit : s.objects.entries =
      s.objects.entries.take n ++ (id, v) :: s.objects.entries.drop (n + 1) := by
    rw [← hget, ← List.drop_eq_getElem_cons hn, List.take_append_drop]
  rw [recordedAfter]
  conv_lhs => rw [hsplit]
  exact after_append (Dict.get?_eq_none.mp (journalGet_before_eq_none h))

/-- What the store before a position satisfies, and every object from there on keeps, holds
of the store. -/
theorem before_induction {I : ResponsibilityStore → Prop} {s : ResponsibilityStore} {n : Nat}
    (hstart : I (s.before n))
    (hstep : ∀ (m : Nat) k v, n ≤ m → s.objects.entries[m]? = some (k, v) → I (s.before m) →
      I ((s.before m).record v)) : I s := by
  have hall : ∀ j, I (s.before (n + j)) := by
    intro j
    induction j with
    | zero => exact hstart
    | succ j ih =>
      cases hentry : s.objects.entries[n + j]? with
      | none =>
        have hlength := List.getElem?_eq_none_iff.mp hentry
        rw [before_of_length_le hlength] at ih
        rwa [before_of_length_le (by omega)]
      | some e =>
        rw [← Nat.add_assoc, before_succ hentry]
        exact hstep (n + j) e.1 e.2 (by omega) hentry ih
  have hlast := hall s.objects.entries.length
  rwa [before_of_length_le (by omega)] at hlast

theorem mem_drop_values {s : ResponsibilityStore} {n m : Nat} {k : String}
    {v : ResponsibilityObject} (hle : n ≤ m) (h : s.objects.entries[m]? = some (k, v)) :
    v ∈ (s.objects.entries.drop n).map Prod.snd := by
  refine List.mem_map.mpr ⟨(k, v), ?_, rfl⟩
  refine List.mem_of_getElem? (i := m - n) ?_
  rw [List.getElem?_drop, Nat.add_sub_cancel' hle, h]

theorem before_before {s : ResponsibilityStore} {n m : Nat} (h : n ≤ m) :
    (s.before m).before n = s.before n := by
  refine eq_of_entries ?_ rfl
  rw [entries_before, entries_before, entries_before, List.take_take, Nat.min_eq_left h]

theorem journalGet_before_mono {s : ResponsibilityStore} {n m : Nat} {k : String}
    {v : ResponsibilityObject} (hle : n ≤ m) (h : (s.before n).journalGet k = some v) :
    (s.before m).journalGet k = some v :=
  journalGet_of_before (before_before hle ▸ h)

/-- The last of the objects from a position on that a reading accepts. -/
theorem exists_last_of_filterMap {α : Type} {f : ResponsibilityObject → Option α}
    {s : ResponsibilityStore} {n : Nat} {a : α}
    (h : (((s.objects.entries.drop n).map Prod.snd).filterMap f).getLast? = some a) :
    ∃ (m : Nat) (k : String) (v : ResponsibilityObject), n ≤ m ∧
      s.objects.entries[m]? = some (k, v) ∧ f v = some a ∧
      ∀ w ∈ (s.objects.entries.drop (m + 1)).map Prod.snd, f w = none := by
  obtain ⟨earlier, hlast⟩ := List.getLast?_eq_some_iff.mp h
  obtain ⟨l₁, l₂, hsplit, -, hl₂⟩ := List.filterMap_eq_append_iff.mp hlast
  obtain ⟨skipped, v, rest, hcons, -, hv, hrest⟩ := List.filterMap_eq_cons_iff.mp hl₂
  rw [hcons, ← List.append_assoc] at hsplit
  obtain ⟨front, back, hdrop, -, hback⟩ := List.map_eq_append_iff.mp hsplit
  obtain ⟨⟨k, v'⟩, tail, hback', hv', htail⟩ := List.map_eq_cons_iff.mp hback
  obtain rfl : v' = v := hv'
  refine ⟨n + front.length, k, v', Nat.le_add_right _ _, ?_, hv, ?_⟩
  · rw [← List.getElem?_drop, hdrop, hback']
    simp
  · have hafter : s.objects.entries.drop (n + front.length + 1) = tail := by
      rw [Nat.add_assoc, ← List.drop_drop, hdrop, hback', ← List.drop_drop, List.drop_left]
      rfl
    rw [hafter, htail]
    exact fun w hw => List.filterMap_eq_nil_iff.mp hrest w hw

/-! ## Readings of one responsibility -/

def revisionOf (responsibilityRef : String) (v : ResponsibilityObject) :
    Option ResponsibilityRevision :=
  v.asRevision.filter (·.responsibilityRef = responsibilityRef)

def transitionOf (responsibilityRef : String) (v : ResponsibilityObject) :
    Option ResponsibilityLifecycleTransition :=
  v.asTransition.filter (·.responsibilityRef = responsibilityRef)

theorem revisionOf_eq_some {ref : String} {v : ResponsibilityObject} {r : ResponsibilityRevision} :
    revisionOf ref v = some r ↔ v = .revision r ∧ r.responsibilityRef = ref := by
  rw [revisionOf, Option.filter_eq_some_iff]
  simp

theorem transitionOf_eq_some {ref : String} {v : ResponsibilityObject}
    {t : ResponsibilityLifecycleTransition} :
    transitionOf ref v = some t ↔ v = .transition t ∧ t.responsibilityRef = ref := by
  rw [transitionOf, Option.filter_eq_some_iff]
  simp

/-- An object is its own subject, or that of the responsibility it names. -/
theorem subjectRef_cases (v : ResponsibilityObject) :
    v.subjectRef = v.id ∨ v.responsibilityRef = some v.subjectRef := by
  rw [ResponsibilityObject.subjectRef]
  cases href : v.responsibilityRef with
  | none => exact .inl rfl
  | some r =>
    by_cases hblank : r = ""
    · exact .inl (by simp [hblank, Option.filter_some])
    · exact .inr (by simp [hblank, Option.filter_some])

/-- A new object that does not name a stored responsibility is not listed under it. -/
theorem listed_record_of_other {α : Type} {as : ResponsibilityObject → Option α}
    {s : ResponsibilityStore} {v o : ResponsibilityObject} {objectType ref : String}
    (hstored : s.journalGet ref = some o) (hfresh : s.journalGet v.id = none)
    (hother : v.typeName = objectType → v.responsibilityRef ≠ some ref) :
    (s.record v).listed as objectType ref = s.listed as objectType ref := by
  refine listed_record_of_ne hfresh ?_
  by_cases htype : v.typeName = objectType
  · refine .inr ⟨ref, rfl, fun hsubject => ?_⟩
    rcases subjectRef_cases v with hself | hnamed
    · rw [hsubject, hself, hfresh] at hstored
      exact absurd hstored (by simp)
    · exact hother htype (hsubject ▸ hnamed)
  · exact .inl htype

theorem subjectRef_of_ref {v : ResponsibilityObject} {ref : String}
    (href : v.responsibilityRef = some ref) (hne : ref ≠ "") : v.subjectRef = ref := by
  simp [ResponsibilityObject.subjectRef, href, hne, Option.filter_some]

/-- A stored id is not blank. -/
theorem ne_empty_of_journalGet {s : ResponsibilityStore} {k : String} {v : ResponsibilityObject}
    (h : s.journalGet k = some v) : k ≠ "" := by
  rintro rfl
  have hnonblank := v.base.idNonblank
  have hid : v.base.id = "" := id_of_journalGet h
  rw [hid] at hnonblank
  exact absurd hnonblank (by decide)

/-! ## The version -/

theorem version_foldlM {l : List ResponsibilityRevision} {d d' : ResponsibilityDefinition}
    (h : l.foldlM applyRevision d = .ok d') : d'.version = d.version + l.length := by
  induction l generalizing d with
  | nil =>
    rw [List.foldlM_nil, Result.pure_eq_ok] at h
    simp [h]
  | cons r rest ih =>
    obtain ⟨d₁, hd₁, hrest⟩ := Result.bind_eq_ok.mp h
    obtain ⟨hfrom, hnext⟩ := Result.check_eq_ok.mp hd₁
    rw [Result.pure_eq_ok] at hnext
    have hversion : d₁.version = d.version + 1 := by
      rw [← of_decide_eq_true (guardValue_eq_ok.mp hfrom), ← hnext]
      rfl
    rw [ih hrest, hversion, List.length_cons]
    push_cast
    omega

/-- The version counts the revisions. -/
theorem version_eq {s : ResponsibilityStore} {ref : String} {d : ResponsibilityDefinition}
    (h : s.currentDefinition ref = .ok d) : d.version = 1 + (s.revisions ref).length := by
  obtain ⟨identity, -, hfold⟩ := Result.bind_eq_ok.mp h
  exact version_foldlM hfold

theorem length_revisions_record {s : ResponsibilityStore} {r : ResponsibilityRevision}
    {o : ResponsibilityObject} (hstored : s.journalGet r.responsibilityRef = some o)
    (hfresh : s.journalGet r.id = none) :
    ((s.record (.revision r)).revisions r.responsibilityRef).length =
      (s.revisions r.responsibilityRef).length + 1 := by
  have hsubject : (ResponsibilityObject.revision r).subjectRef = r.responsibilityRef :=
    subjectRef_of_ref rfl (ne_empty_of_journalGet hstored)
  have hperm : ((s.record (.revision r)).listed (·.asRevision) "ResponsibilityRevision"
      r.responsibilityRef).Perm
      (s.listed (·.asRevision) "ResponsibilityRevision" r.responsibilityRef ++ [r]) :=
    listed_record_perm (v := .revision r) hfresh rfl (by simp [hsubject])
  rw [revisions, List.length_insertionSort, revisions, List.length_insertionSort,
    hperm.length_eq, List.length_append, List.length_singleton]

theorem length_revisions_le_record {s : ResponsibilityStore} {v : ResponsibilityObject}
    {ref : String} (hfresh : s.journalGet v.id = none) :
    (s.revisions ref).length ≤ ((s.record v).revisions ref).length := by
  rw [revisions, List.length_insertionSort, revisions, List.length_insertionSort]
  by_cases hlists : v.typeName = "ResponsibilityRevision" ∧ ref = v.subjectRef
  · cases v with
    | revision r =>
      have hperm : ((s.record (.revision r)).listed (·.asRevision) "ResponsibilityRevision"
          ref).Perm (s.listed (·.asRevision) "ResponsibilityRevision" ref ++ [r]) :=
        listed_record_perm (v := .revision r) hfresh rfl (by simpa using hlists.2)
      rw [hperm.length_eq, List.length_append]
      exact Nat.le_add_right _ _
    | _ => exact absurd hlists.1 (by simp [ResponsibilityObject.typeName])
  · refine le_of_eq (congrArg List.length (listed_record_of_ne hfresh ?_).symm)
    rw [not_and_or] at hlists
    exact hlists.imp_right (fun hsubject => ⟨ref, rfl, hsubject⟩)

theorem length_revisions_before_le {s : ResponsibilityStore} {n m : Nat} {ref : String}
    (hle : n ≤ m) : ((s.before n).revisions ref).length ≤ ((s.before m).revisions ref).length := by
  rw [← before_before hle]
  refine before_induction (s := s.before m)
    (I := fun s' => (((s.before m).before n).revisions ref).length ≤ (s'.revisions ref).length)
    (le_refl _) ?_
  intro j k v _ hentry hlength
  have hid : v.id = k := id_of_journalGet (journalGet_of_getElem? hentry)
  exact hlength.trans (length_revisions_le_record (hid ▸ journalGet_before_eq_none hentry))

theorem length_revisions_le (s : ResponsibilityStore) (n : Nat) (ref : String) :
    ((s.before n).revisions ref).length ≤ (s.revisions ref).length := by
  have hle : ((s.before n).revisions ref).length ≤
      ((s.before (max n s.objects.entries.length)).revisions ref).length :=
    length_revisions_before_le (le_max_left n _)
  rwa [before_of_length_le (le_max_right n _)] at hle

/-! ## The status -/

instance : Std.Total appliedBefore where
  total a b := by
    unfold appliedBefore
    rcases lt_trichotomy a.appliedAt b.appliedAt with h | h | h
    · exact .inl (.inl h)
    · rcases String.le_total a.id b.id with hid | hid
      · exact .inl (.inr ⟨h, hid⟩)
      · exact .inr (.inr ⟨h.symm, hid⟩)
    · exact .inr (.inl h)

instance : IsTrans ResponsibilityLifecycleTransition appliedBefore where
  trans a b c := by
    unfold appliedBefore
    rintro (hab | ⟨hab, hid⟩) (hbc | ⟨hbc, hid'⟩)
    · exact .inl (hab.trans hbc)
    · exact .inl (hbc ▸ hab)
    · exact .inl (hab ▸ hbc)
    · exact .inr ⟨hab.trans hbc, String.le_trans hid hid'⟩

theorem id_eq_of_appliedBefore {a b : ResponsibilityLifecycleTransition}
    (hab : appliedBefore a b) (hba : appliedBefore b a) : a.id = b.id := by
  rcases hab with hlt | ⟨htime, hid⟩
  · rcases hba with hlt' | ⟨htime', -⟩
    · exact absurd (hlt.trans hlt') (lt_irrefl _)
    · exact absurd htime' (ne_of_gt hlt)
  · rcases hba with hlt' | ⟨-, hid'⟩
    · exact absurd htime (ne_of_gt hlt')
    · exact String.le_antisymm hid hid'

theorem journalGet_of_mem_transitions {s : ResponsibilityStore} {ref : Option String}
    {t : ResponsibilityLifecycleTransition}
    (h : t ∈ s.listed (·.asTransition) "ResponsibilityLifecycleTransition" ref) :
    s.journalGet t.id = some (.transition t) := by
  obtain ⟨o, ho, hasT⟩ := List.mem_filterMap.mp h
  obtain rfl := ResponsibilityObject.asTransition_eq_some.mp hasT
  exact (mem_list.mp ho).1

theorem appliedBefore_antisymm {s : ResponsibilityStore} {ref : Option String}
    {a b : ResponsibilityLifecycleTransition}
    (ha : a ∈ s.listed (·.asTransition) "ResponsibilityLifecycleTransition" ref)
    (hb : b ∈ s.listed (·.asTransition) "ResponsibilityLifecycleTransition" ref)
    (hab : appliedBefore a b) (hba : appliedBefore b a) : a = b := by
  have hget := journalGet_of_mem_transitions ha
  rw [id_eq_of_appliedBefore hab hba, journalGet_of_mem_transitions hb] at hget
  simpa using hget.symm

theorem foldlM_append_ok {l l' : List ResponsibilityLifecycleTransition}
    {status status' : ResponsibilityStatus} :
    (l ++ l').foldlM applyTransition status = .ok status' ↔
      ∃ middle, l.foldlM applyTransition status = .ok middle ∧
        l'.foldlM applyTransition middle = .ok status' := by
  rw [List.foldlM_append, Result.bind_eq_ok]

theorem foldlM_cons_ok {t : ResponsibilityLifecycleTransition}
    {rest : List ResponsibilityLifecycleTransition} {status status' : ResponsibilityStatus} :
    (t :: rest).foldlM applyTransition status = .ok status' ↔
      t.fromStatus = status ∧ rest.foldlM applyTransition t.toStatus = .ok status' := by
  rw [List.foldlM_cons, Result.bind_eq_ok]
  constructor
  · rintro ⟨middle, hmiddle, hrest⟩
    obtain ⟨hfrom, hto⟩ := Result.check_eq_ok.mp hmiddle
    rw [Result.pure_eq_ok] at hto
    exact ⟨of_decide_eq_true (guardValue_eq_ok.mp hfrom), hto ▸ hrest⟩
  · rintro ⟨hfrom, hrest⟩
    refine ⟨t.toStatus, ?_, hrest⟩
    exact Result.check_eq_ok.mpr ⟨guardValue_eq_ok.mpr (decide_eq_true hfrom), rfl⟩

/-- A transition put among the others breaks the history unless it is put last: it would
have to start where the next one starts, and also to end there. -/
theorem foldlM_insert {before after : List ResponsibilityLifecycleTransition}
    {t : ResponsibilityLifecycleTransition} {status status' : ResponsibilityStatus}
    (h : (before ++ after).foldlM applyTransition status = .ok t.fromStatus) :
    (before ++ t :: after).foldlM applyTransition status = .ok status' ↔
      after = [] ∧ status' = t.toStatus := by
  obtain ⟨middle, hbefore, hafter⟩ := foldlM_append_ok.mp h
  cases after with
  | nil =>
    rw [List.foldlM_nil, Result.pure_eq_ok] at hafter
    rw [foldlM_append_ok]
    constructor
    · rintro ⟨middle', hmiddle', hlast⟩
      rw [foldlM_cons_ok, List.foldlM_nil, Result.pure_eq_ok] at hlast
      exact ⟨rfl, hlast.2.symm⟩
    · rintro ⟨-, rfl⟩
      exact ⟨middle, hbefore, foldlM_cons_ok.mpr ⟨hafter.symm, rfl⟩⟩
  | cons next rest =>
    refine iff_of_false (fun hinsert => ?_) (by simp)
    obtain ⟨middle', hmiddle', hrest⟩ := foldlM_append_ok.mp hinsert
    rw [hbefore, Except.ok.injEq] at hmiddle'
    obtain ⟨hfrom, hnext⟩ := foldlM_cons_ok.mp hrest
    have hstart : next.fromStatus = middle := (foldlM_cons_ok.mp hafter).1
    have hend : next.fromStatus = t.toStatus := (foldlM_cons_ok.mp hnext).1
    exact t.changes (by rw [hfrom, ← hmiddle', ← hstart, hend])

theorem mem_transitions_record {s : ResponsibilityStore}
    {t t' : ResponsibilityLifecycleTransition} (hfresh : s.journalGet t.id = none)
    (hne : t.responsibilityRef ≠ "") :
    t' ∈ (s.record (.transition t)).transitions t.responsibilityRef ↔
      t' ∈ s.transitions t.responsibilityRef ∨ t' = t := by
  have hsubject : (ResponsibilityObject.transition t).subjectRef = t.responsibilityRef :=
    subjectRef_of_ref rfl hne
  have hperm : ((s.record (.transition t)).listed (·.asTransition)
      "ResponsibilityLifecycleTransition" t.responsibilityRef).Perm
      (s.listed (·.asTransition) "ResponsibilityLifecycleTransition" t.responsibilityRef ++ [t]) :=
    listed_record_perm (v := .transition t) hfresh rfl (by simp [hsubject])
  rw [transitions, List.mem_insertionSort, hperm.mem_iff, List.mem_append, List.mem_singleton,
    transitions, List.mem_insertionSort]

/-- The status after a transition that the kernel admitted: the new one's end if it is also
the last in time, and no status otherwise. -/
theorem currentStatus_record_transition {s : ResponsibilityStore}
    {t : ResponsibilityLifecycleTransition} {status : ResponsibilityStatus}
    (hfresh : s.journalGet t.id = none)
    (hfrom : s.currentStatus t.responsibilityRef = .ok t.fromStatus) :
    (s.record (.transition t)).currentStatus t.responsibilityRef = .ok status ↔
      (∀ t' ∈ s.transitions t.responsibilityRef, ¬ appliedBefore t t') ∧ status = t.toStatus := by
  obtain ⟨identity, hidentity, hrest⟩ := Result.bind_eq_ok.mp hfrom
  obtain ⟨hadmitted, hfold⟩ := Result.check_eq_ok.mp hrest
  rw [getResponsibility_eq_ok] at hidentity
  have hne := ne_empty_of_journalGet hidentity
  have hsubject : (ResponsibilityObject.transition t).subjectRef = t.responsibilityRef :=
    subjectRef_of_ref rfl hne
  have hperm : ((s.record (.transition t)).listed (·.asTransition)
      "ResponsibilityLifecycleTransition" t.responsibilityRef).Perm
      (s.listed (·.asTransition) "ResponsibilityLifecycleTransition" t.responsibilityRef ++ [t]) :=
    listed_record_perm (v := .transition t) hfresh rfl (by simp [hsubject])
  obtain ⟨before, after, hold, hnew⟩ :=
    exists_insertionSort_of_perm (r := appliedBefore) hperm
      (fun a ha b hb => appliedBefore_antisymm ha hb)
  have hold : s.transitions t.responsibilityRef = before ++ after := hold
  have hnew : (s.record (.transition t)).transitions t.responsibilityRef =
      before ++ t :: after := hnew
  have hsorted : (before ++ t :: after).Pairwise appliedBefore :=
    hnew ▸ List.pairwise_insertionSort appliedBefore _
  have hlast : (∀ t' ∈ s.transitions t.responsibilityRef, ¬ appliedBefore t t') ↔ after = [] := by
    constructor
    · intro hnone
      rw [List.eq_nil_iff_forall_not_mem]
      intro t' ht'
      refine hnone t' (hold ▸ List.mem_append_right before ht') ?_
      exact List.rel_of_pairwise_cons (List.pairwise_append.mp hsorted).2.1 ht'
    · rintro rfl t' ht' hbefore
      -- Every earlier one also stands before `t`, so `t'` would be `t`, which is new.
      rw [hold, List.append_nil] at ht'
      have hafter := (List.pairwise_append.mp hsorted).2.2 t' ht' t List.mem_cons_self
      have hmem : t' ∈ s.transitions t.responsibilityRef := by
        rw [hold, List.append_nil]
        exact ht'
      have hstored : s.journalGet t'.id = some (.transition t') :=
        journalGet_of_mem_transitions ((List.mem_insertionSort appliedBefore).mp hmem)
      rw [id_eq_of_appliedBefore hafter hbefore, hfresh] at hstored
      exact absurd hstored (by simp)
  have hadmissions : (s.record (.transition t)).admissions t.responsibilityRef =
      s.admissions t.responsibilityRef :=
    listed_record_of_ne hfresh (.inl (by simp [ResponsibilityObject.typeName]))
  rw [hlast]
  rw [hold] at hfold
  constructor
  · intro hstatus
    obtain ⟨-, -, hrest'⟩ := Result.bind_eq_ok.mp hstatus
    obtain ⟨-, hfold'⟩ := Result.check_eq_ok.mp hrest'
    rw [hnew] at hfold'
    exact (foldlM_insert hfold).mp hfold'
  · intro hend
    refine Result.bind_eq_ok.mpr ⟨identity, ?_, Result.check_eq_ok.mpr ⟨?_, ?_⟩⟩
    · exact getResponsibility_eq_ok.mpr (journalGet_record_of_some hfresh hidentity)
    · rw [hadmissions]
      exact hadmitted
    · rw [hnew]
      exact (foldlM_insert hfold).mpr hend

end ResponsibilityStore
end PortableRuntime
