import PortableRuntime.Records.Reopen

/-!
# What reopening collects, and what it makes of it

The search collects what is reached over the relations, except that it never returns to where it
started.  A later relation overwrites the disposition an earlier one has given, so the order counts
where a record is both contradicted and to be revalidated.
-/

namespace PortableRuntime
namespace ReopenAssembler

/-! ## Reachability -/

/-- A relation joins two references, read in either direction. -/
def Joins (rel : RecordRelation) (a b : String) : Prop :=
  (rel.subjectRef = a ∧ rel.objectRef = b) ∨ (rel.objectRef = a ∧ rel.subjectRef = b)

/-- One relation leads from a reference to one that resolves. -/
def Linked (store : ReopenStore) (a b : String) : Prop :=
  (∃ rel ∈ store.relations, Joins rel a b) ∧ (store.candidate? b).isSome = true

section Searching

variable (store : ReopenStore) (assessment : ReopenAssessment) (originalWork : Work)

/-- Relations lead from the Work or from what is assessed to the reference. -/
def Reached (ref : String) : Prop :=
  ∃ start ∈ starts assessment originalWork, Relation.TransGen (Linked store) start ref

/-- The reference is reached, or it is that of the assessed record. -/
def Collectable (ref : String) : Prop :=
  Reached store assessment originalWork ref ∨
    (ref = assessment.recordRef ∧ (store.record? ref).isSome = true)

/-- The records and grants that are collected. -/
def records : Dict String ReopenNode :=
  (recordsAndRelations (some store) assessment originalWork).1

/-- The dispositions that are given. -/
def dispositions : Dict String HandoffDisposition :=
  dispose (records store assessment originalWork) store.relations

/-- A start that resolves is the assessed record, or no relation joins it to another start or to
anything that resolves. -/
def StartsApart : Prop :=
  ∀ start ∈ starts assessment originalWork, (store.candidate? start).isSome = true →
    (start = assessment.recordRef ∧ (store.record? start).isSome = true) ∨
      ∀ rel ∈ store.relations, ∀ other, Joins rel start other →
        other ∉ starts assessment originalWork ∧ store.candidate? other = none

end Searching

/-- The relation contradicts what is under the reference, at either end. -/
def Contradicts (rel : RecordRelation) (ref : String) : Prop :=
  rel.relationType = .contradicts ∧ (rel.subjectRef = ref ∨ rel.objectRef = ref)

/-- The relation asks to revalidate what is under the reference. -/
def Revalidates (rel : RecordRelation) (ref : String) : Prop :=
  rel.relationType = .requiresRevalidation ∧ rel.subjectRef = ref

instance (rel : RecordRelation) (ref : String) : Decidable (Contradicts rel ref) :=
  inferInstanceAs (Decidable (_ ∧ _))

instance (rel : RecordRelation) (ref : String) : Decidable (Revalidates rel ref) :=
  inferInstanceAs (Decidable (_ ∧ _))

theorem not_revalidates_of_contradicts {rel : RecordRelation} {ref ref' : String}
    (h : Contradicts rel ref) : ¬ Revalidates rel ref' := by
  intro hrevalidates
  rw [Revalidates, h.1] at hrevalidates
  cases hrevalidates.1

/-- Nothing that can be collected is both contradicted and to be revalidated. -/
def Undisputed (store : ReopenStore) (assessment : ReopenAssessment) (originalWork : Work) : Prop :=
  ∀ ref, Collectable store assessment originalWork ref → ∀ rel ∈ store.relations,
    Contradicts rel ref → ∀ rel' ∈ store.relations, ¬ Revalidates rel' ref

/-- The search ends and collects what can be reached and the assessed record.  The dispositions do
not depend on the order of the relations, and what is contradicted is invalidated. -/
structure Exact (store : ReopenStore) (assessment : ReopenAssessment) (originalWork : Work) :
    Prop where
  ends : (searched store assessment originalWork).queue = []
  collected : ∀ ref node, (records store assessment originalWork).get? ref = some node ↔
    Collectable store assessment originalWork ref ∧ store.candidate? ref = some node
  sameOrder : ∀ relations, store.relations.Perm relations → ∀ ref,
    (dispositions (store.listing relations) assessment originalWork).get? ref =
      (dispositions store assessment originalWork).get? ref
  contradicted : ∀ relations, store.relations.Perm relations → ∀ rel ∈ relations, ∀ ref,
    Contradicts rel ref → ∀ d,
      (dispositions (store.listing relations) assessment originalWork).get? ref = some d →
        d = .invalidated

/-! ## The search -/

variable {store : ReopenStore} {assessment : ReopenAssessment} {originalWork : Work}

theorem mem_neighbours {relations : List RecordRelation} {a b : String} :
    b ∈ neighbours relations a ↔ ∃ rel ∈ relations, Joins rel a b := by
  rw [neighbours, List.mem_filterMap]
  constructor
  · intro h
    obtain ⟨rel, hrel, hother⟩ := h
    refine ⟨rel, hrel, ?_⟩
    by_cases hsubject : rel.subjectRef = a
    · simp only [hsubject, ne_eq, not_true_eq_false, false_and, if_false, if_true,
        Option.some.injEq] at hother
      exact .inl ⟨hsubject, hother⟩
    · by_cases hobject : rel.objectRef = a
      · simp only [hsubject, hobject, ne_eq, not_true_eq_false, and_false, if_false,
          Option.some.injEq] at hother
        exact .inr ⟨hobject, hother⟩
      · simp [hsubject, hobject] at hother
  · intro h
    obtain ⟨rel, hrel, hjoins⟩ := h
    refine ⟨rel, hrel, ?_⟩
    rcases hjoins with ⟨hsubject, hobject⟩ | ⟨hobject, hsubject⟩
    · simp [hsubject, hobject]
    · by_cases hself : rel.subjectRef = a
      · simp [hself, hobject, hsubject ▸ hself]
      · have hne : b ≠ a := hsubject ▸ hself
        simp [hobject, hsubject, hne]

theorem step_eq_linked (store : ReopenStore) :
    Worklist.Step (neighbours store.relations) store.candidate? = Linked store := by
  funext a b
  rw [Worklist.Step, Linked, mem_neighbours]

theorem reached_eq (store : ReopenStore) (assessment : ReopenAssessment) (originalWork : Work) :
    Worklist.Reached (neighbours store.relations) store.candidate?
      (starts assessment originalWork) = Reached store assessment originalWork := by
  funext ref
  rw [Worklist.Reached, Reached, step_eq_linked]

/-- The references that the relations name. -/
def named (relations : List RecordRelation) : List String :=
  relations.flatMap (fun rel => [rel.subjectRef, rel.objectRef])

theorem length_named (relations : List RecordRelation) :
    (named relations).length = 2 * relations.length := by
  induction relations with
  | nil => rfl
  | cons rel rest ih =>
    rw [named, List.flatMap_cons, List.length_append, List.length_cons]
    have hrest : (named rest).length = 2 * rest.length := ih
    simp only [named, List.length_cons, List.length_nil] at hrest ⊢
    omega

theorem neighbours_subset (relations : List RecordRelation) (a : String) :
    ∀ b ∈ neighbours relations a, b ∈ named relations := by
  intro b hb
  obtain ⟨rel, hrel, hjoins⟩ := mem_neighbours.mp hb
  apply List.mem_flatMap.mpr
  refine ⟨rel, hrel, ?_⟩
  rcases hjoins with ⟨-, rfl⟩ | ⟨-, rfl⟩
  · simp
  · simp

theorem rounds_suffice (relations : List RecordRelation) (assessment : ReopenAssessment)
    (originalWork : Work) : (starts assessment originalWork).length + (named relations).length ≤
      2 + 2 * relations.length := by
  rw [length_named]
  exact Nat.le_refl _

theorem queue_searched (store : ReopenStore) (assessment : ReopenAssessment)
    (originalWork : Work) : (searched store assessment originalWork).queue = [] := by
  apply Worklist.queue_search (neighbours_subset store.relations)
  apply Nat.le_trans (Worklist.pending_start _)
  exact rounds_suffice store.relations assessment originalWork

theorem get?_searched {ref : String} {node : ReopenNode} :
    (searched store assessment originalWork).found.get? ref = some node ↔
      (Reached store assessment originalWork ref ∧ ref ∉ starts assessment originalWork) ∧
        store.candidate? ref = some node := by
  rw [← reached_eq]
  exact Worklist.get?_search (neighbours_subset store.relations)
    (rounds_suffice store.relations assessment originalWork)

theorem ReopenStore.candidate?_of_record? {ref : String} {r : BaseRecord}
    (h : store.record? ref = some r) : store.candidate? ref = some (.record r) := by
  simp only [ReopenStore.candidate?, h]

theorem recordsAndRelations_eq (store : ReopenStore) (assessment : ReopenAssessment)
    (originalWork : Work) : recordsAndRelations (some store) assessment originalWork =
      (records store assessment originalWork, store.relations) := by
  rw [records, recordsAndRelations]
  cases store.record? assessment.recordRef with
  | none => rfl
  | some target => rfl

/-- What is collected: what the search has found, and the assessed record. -/
theorem get?_records {ref : String} {node : ReopenNode} :
    (records store assessment originalWork).get? ref = some node ↔
      ((Reached store assessment originalWork ref ∧ ref ∉ starts assessment originalWork) ∨
        (ref = assessment.recordRef ∧ (store.record? ref).isSome = true)) ∧
          store.candidate? ref = some node := by
  simp only [records, recordsAndRelations]
  cases htarget : store.record? assessment.recordRef with
  | none =>
    have hnot : ¬ (ref = assessment.recordRef ∧ (store.record? ref).isSome = true) := by
      intro h
      rw [h.1, htarget] at h
      cases h.2
    rw [or_iff_left hnot]
    exact get?_searched
  | some target =>
    show ((searched store assessment originalWork).found.set assessment.recordRef
      (.record target)).get? ref = some node ↔ _
    rw [Dict.get?_set]
    by_cases hrecord : ref = assessment.recordRef
    · subst hrecord
      have hcandidate := ReopenStore.candidate?_of_record? htarget
      simp [hcandidate, htarget]
    · rw [if_neg hrecord, get?_searched, or_iff_left (fun h => hrecord h.1)]

theorem Reached.resolves {ref : String} (h : Reached store assessment originalWork ref) :
    (store.candidate? ref).isSome = true := by
  rw [← reached_eq] at h
  exact Worklist.Reached.resolves h

theorem Collectable.resolves {ref : String} (h : Collectable store assessment originalWork ref) :
    ∃ node, store.candidate? ref = some node := by
  rcases h with hreached | ⟨-, hrecord⟩
  · exact Option.isSome_iff_exists.mp hreached.resolves
  · obtain ⟨r, hr⟩ := Option.isSome_iff_exists.mp hrecord
    exact ⟨_, ReopenStore.candidate?_of_record? hr⟩

/-! ## Starts that are reached again -/

theorem joins_symm {rel : RecordRelation} {a b : String} (h : Joins rel a b) : Joins rel b a := by
  rcases h with ⟨hsubject, hobject⟩ | ⟨hobject, hsubject⟩
  · exact .inr ⟨hobject, hsubject⟩
  · exact .inl ⟨hsubject, hobject⟩

/-- A start is reached again over one relation from another start, or over two from itself. -/
theorem reached_start_iff {start : String} (hstart : start ∈ starts assessment originalWork) :
    Reached store assessment originalWork start ↔ (store.candidate? start).isSome = true ∧
      ∃ rel ∈ store.relations, ∃ other, Joins rel start other ∧
        (other ∈ starts assessment originalWork ∨ (store.candidate? other).isSome = true) := by
  constructor
  · intro h
    refine ⟨h.resolves, ?_⟩
    rw [← reached_eq] at h
    obtain ⟨other, hother, hstep⟩ := h.last
    rw [step_eq_linked] at hstep
    obtain ⟨⟨rel, hrel, hjoins⟩, -⟩ := hstep
    exact ⟨rel, hrel, other, joins_symm hjoins, hother.imp_right Worklist.Reached.resolves⟩
  · intro h
    obtain ⟨hresolves, rel, hrel, other, hjoins, hother⟩ := h
    have hback : Linked store other start := ⟨⟨rel, hrel, joins_symm hjoins⟩, hresolves⟩
    rcases hother with hother | hother
    · exact ⟨other, hother, .single hback⟩
    · have hforth : Linked store start other := ⟨⟨rel, hrel, hjoins⟩, hother⟩
      exact ⟨start, hstart, (Relation.TransGen.single hforth).tail hback⟩

/-- The collection is exact where no start is reached again but the assessed record. -/
theorem collected_iff :
    (∀ ref node, (records store assessment originalWork).get? ref = some node ↔
      Collectable store assessment originalWork ref ∧ store.candidate? ref = some node) ↔
    StartsApart store assessment originalWork := by
  constructor
  · intro h start hstart hresolves
    by_cases hreached : Reached store assessment originalWork start
    · obtain ⟨node, hnode⟩ := Option.isSome_iff_exists.mp hresolves
      have hrecords := get?_records.mp ((h start node).mpr ⟨.inl hreached, hnode⟩)
      rcases hrecords.1 with ⟨-, hnot⟩ | hassessed
      · exact absurd hstart hnot
      · exact .inl hassessed
    · refine .inr (fun rel hrel other hjoins => ?_)
      rw [reached_start_iff hstart, not_and] at hreached
      have hnone := hreached hresolves
      refine ⟨fun hother => hnone ⟨rel, hrel, other, hjoins, .inl hother⟩, ?_⟩
      apply Option.eq_none_iff_forall_ne_some.mpr
      intro node hnode
      exact hnone ⟨rel, hrel, other, hjoins, .inr (by rw [hnode]; rfl)⟩
  · intro h ref node
    rw [get?_records]
    apply and_congr_left
    intro hnode
    constructor
    · intro hfound
      exact hfound.imp_left And.left
    · intro hcollectable
      rcases hcollectable with hreached | hassessed
      · by_cases hstart : ref ∈ starts assessment originalWork
        · rcases h ref hstart hreached.resolves with hassessed | hapart
          · exact .inr hassessed
          · obtain ⟨-, rel, hrel, other, hjoins, hother⟩ := (reached_start_iff hstart).mp hreached
            obtain ⟨hnot, hnone⟩ := hapart rel hrel other hjoins
            rw [hnone] at hother
            exact absurd hother (by simp [hnot])
        · exact .inl ⟨hreached, hstart⟩
      · exact .inr hassessed

/-! ## The order of the relations -/

theorem linked_listing {relations : List RecordRelation} (h : store.relations.Perm relations) :
    Linked (store.listing relations) = Linked store := by
  funext a b
  rw [Linked, Linked]
  simp only [h.mem_iff]
  rfl

theorem reached_listing {relations : List RecordRelation} (h : store.relations.Perm relations) :
    Reached (store.listing relations) assessment originalWork =
      Reached store assessment originalWork := by
  funext ref
  rw [Reached, Reached, linked_listing h]

/-- The same is collected in every order. -/
theorem get?_records_listing {relations : List RecordRelation}
    (h : store.relations.Perm relations) (ref : String) :
    (records (store.listing relations) assessment originalWork).get? ref =
      (records store assessment originalWork).get? ref := by
  apply Option.ext
  intro node
  rw [get?_records, get?_records, reached_listing h]
  rfl

/-! ## The dispositions -/

/-- What a relation makes of the disposition of one reference. -/
def settle (ref : String) (d : HandoffDisposition) (rel : RecordRelation) : HandoffDisposition :=
  if Contradicts rel ref then .invalidated else if Revalidates rel ref then .reconsider else d

theorem settle_of_contradicts {ref : String} {rel : RecordRelation} (h : Contradicts rel ref)
    (d : HandoffDisposition) : settle ref d rel = .invalidated := if_pos h

theorem settle_of_revalidates {ref : String} {rel : RecordRelation} (h : Revalidates rel ref)
    (d : HandoffDisposition) : settle ref d rel = .reconsider := by
  rw [settle, if_neg (fun hcontradicts => not_revalidates_of_contradicts hcontradicts h), if_pos h]

/-- Invalidating a list of references, of which only those that are collected count. -/
theorem get?_invalidate {collected : Dict String ReopenNode} {ref : String}
    (href : ref ∈ collected.keys) (refs : List String) (given : Dict String HandoffDisposition) :
    (refs.foldl (fun dispositions ref =>
      if ref ∈ collected.keys then dispositions.set ref .invalidated else dispositions)
        given).get? ref = if ref ∈ refs then some .invalidated else given.get? ref := by
  induction refs generalizing given with
  | nil => simp
  | cons a rest ih =>
    rw [List.foldl_cons, ih]
    by_cases hrest : ref ∈ rest
    · rw [if_pos hrest, if_pos (List.mem_cons_of_mem a hrest)]
    · rw [if_neg hrest]
      by_cases ha : ref = a
      · subst ha
        rw [if_pos href, Dict.get?_set_self, if_pos List.mem_cons_self]
      · rw [if_neg (List.not_mem_cons_of_ne_of_not_mem ha hrest)]
        by_cases hkey : a ∈ collected.keys
        · rw [if_pos hkey, Dict.get?_set_of_ne _ ha]
        · rw [if_neg hkey]

theorem get?_disposeRelation {collected : Dict String ReopenNode}
    {given : Dict String HandoffDisposition} (rel : RecordRelation) {ref : String}
    (href : ref ∈ collected.keys) {d : HandoffDisposition} (hd : given.get? ref = some d) :
    (disposeRelation collected given rel).get? ref = some (settle ref d rel) := by
  by_cases hskip : rel.subjectRef ∉ collected.keys ∧ rel.objectRef ∉ collected.keys
  · have hsubject : rel.subjectRef ≠ ref := fun heq => hskip.1 (heq ▸ href)
    have hobject : rel.objectRef ≠ ref := fun heq => hskip.2 (heq ▸ href)
    rw [disposeRelation, if_pos hskip, hd, settle,
      if_neg (fun h => h.2.elim hsubject hobject), if_neg (fun h => hsubject h.2)]
  · rw [disposeRelation, if_neg hskip]
    split
    · next htype =>
      rw [get?_invalidate href]
      by_cases hend : rel.subjectRef = ref ∨ rel.objectRef = ref
      · rw [settle_of_contradicts ⟨htype, hend⟩, if_pos (by simpa [eq_comm] using hend)]
      · have hrevalidates : ¬ Revalidates rel ref := fun h => hend (.inl h.2)
        rw [if_neg (by simpa [eq_comm] using hend), hd, settle, if_neg (fun h => hend h.2),
          if_neg hrevalidates]
    · next htype =>
      have hcontradicts : ¬ Contradicts rel ref := by
        intro h
        rw [Contradicts, htype] at h
        cases h.1
      by_cases hsubject : rel.subjectRef = ref
      · rw [if_pos (hsubject ▸ href), hsubject, Dict.get?_set_self,
          settle_of_revalidates ⟨htype, hsubject⟩]
      · have hrevalidates : ¬ Revalidates rel ref := fun h => hsubject h.2
        rw [settle, if_neg hcontradicts, if_neg hrevalidates, ← hd]
        by_cases hkey : rel.subjectRef ∈ collected.keys
        · rw [if_pos hkey, Dict.get?_set_of_ne _ (Ne.symm hsubject)]
        · rw [if_neg hkey]
    · next hcontradicts hrevalidates =>
      rw [hd, settle, if_neg (fun h => hcontradicts h.1), if_neg (fun h => hrevalidates h.1)]

/-- The relations settle each reference that is collected on its own. -/
theorem get?_disposeRelations {collected : Dict String ReopenNode}
    {given : Dict String HandoffDisposition} (relations : List RecordRelation) {ref : String}
    (href : ref ∈ collected.keys) {d : HandoffDisposition} (hd : given.get? ref = some d) :
    (relations.foldl (disposeRelation collected) given).get? ref =
      some (relations.foldl (settle ref) d) := by
  induction relations generalizing given d with
  | nil => exact hd
  | cons rel rest ih => exact ih (get?_disposeRelation rel href hd)

/-- Nothing that is not collected gets a disposition from a relation. -/
theorem get?_disposeRelations_of_not_mem {collected : Dict String ReopenNode}
    {given : Dict String HandoffDisposition} (relations : List RecordRelation) {ref : String}
    (href : ref ∉ collected.keys) :
    (relations.foldl (disposeRelation collected) given).get? ref = given.get? ref := by
  have hset (d : Dict String HandoffDisposition) (a : String) (v : HandoffDisposition) :
      (if a ∈ collected.keys then d.set a v else d).get? ref = d.get? ref := by
    by_cases ha : a ∈ collected.keys
    · have hne : ref ≠ a := fun heq => href (heq ▸ ha)
      rw [if_pos ha, Dict.get?_set_of_ne _ hne]
    · rw [if_neg ha]
  induction relations generalizing given with
  | nil => rfl
  | cons rel rest ih =>
    rw [List.foldl_cons, ih, disposeRelation]
    split
    · rfl
    · split
      · simp only [List.foldl_cons, List.foldl_nil, hset]
      · exact hset given _ _
      · rfl

theorem get?_disposeRecords {collected : Dict String ReopenNode} {ref : String} :
    (collected.entries.foldl disposeRecord .empty).get? ref =
      (collected.get? ref).map ReopenNode.disposition := by
  have hfold : collected.entries.foldl disposeRecord .empty =
      Dict.ofPairs (collected.mapValues ReopenNode.disposition).entries := by
    rw [Dict.ofPairs, Dict.mapValues, List.foldl_map]
    rfl
  rw [hfold, Dict.get?_ofPairs_entries, Dict.get?_mapValues]

theorem get?_dispositions {ref : String} :
    (dispositions store assessment originalWork).get? ref =
      ((records store assessment originalWork).get? ref).map
        (fun node => store.relations.foldl (settle ref) node.disposition) := by
  rw [dispositions, dispose]
  cases hnode : (records store assessment originalWork).get? ref with
  | none =>
    rw [get?_disposeRelations_of_not_mem _ (Dict.get?_eq_none.mp hnode), get?_disposeRecords, hnode]
    rfl
  | some node =>
    have hkey : ref ∈ (records store assessment originalWork).keys := by
      by_contra hnot
      rw [Dict.get?_eq_none.mpr hnot] at hnode
      cases hnode
    have hgiven : ((records store assessment originalWork).entries.foldl disposeRecord .empty).get?
        ref = some node.disposition := by
      rw [get?_disposeRecords, hnode]
      rfl
    exact get?_disposeRelations store.relations hkey hgiven

theorem get?_dispositions_listing {relations : List RecordRelation}
    (h : store.relations.Perm relations) (ref : String) :
    (dispositions (store.listing relations) assessment originalWork).get? ref =
      ((records store assessment originalWork).get? ref).map
        (fun node => relations.foldl (settle ref) node.disposition) := by
  rw [get?_dispositions, get?_records_listing h]
  rfl

/-- The last relation that says something decides. -/
theorem foldl_settle_last (ref : String) (front : List RecordRelation) (rel : RecordRelation)
    (d : HandoffDisposition) :
    (front ++ [rel]).foldl (settle ref) d = settle ref (front.foldl (settle ref) d) rel := by
  rw [List.foldl_append, List.foldl_cons, List.foldl_nil]

/-- Relations of which no one contradicts what another one asks to revalidate settle a reference
in any order. -/
theorem foldl_settle_perm {relations relations' : List RecordRelation} {ref : String}
    (hundisputed : ∀ rel ∈ relations, Contradicts rel ref → ∀ rel' ∈ relations,
      ¬ Revalidates rel' ref) (h : relations.Perm relations') (d : HandoffDisposition) :
    relations.foldl (settle ref) d = relations'.foldl (settle ref) d := by
  apply h.foldl_eq'
  intro rel hrel rel' hrel' given
  by_cases hcontradicts : Contradicts rel ref
  · have hnot := hundisputed rel hrel hcontradicts rel' hrel'
    by_cases hcontradicts' : Contradicts rel' ref
    · simp only [settle_of_contradicts hcontradicts, settle_of_contradicts hcontradicts']
    · have hsame (given : HandoffDisposition) : settle ref given rel' = given := by
        rw [settle, if_neg hcontradicts', if_neg hnot]
      rw [hsame, hsame]
  · by_cases hrevalidates : Revalidates rel ref
    · have hcontradicts' : ¬ Contradicts rel' ref :=
        fun h => hundisputed rel' hrel' h rel hrel hrevalidates
      by_cases hrevalidates' : Revalidates rel' ref
      · simp only [settle_of_revalidates hrevalidates, settle_of_revalidates hrevalidates']
      · have hsame (given : HandoffDisposition) : settle ref given rel' = given := by
          rw [settle, if_neg hcontradicts', if_neg hrevalidates']
        rw [hsame, hsame]
    · have hsame (given : HandoffDisposition) : settle ref given rel = given := by
        rw [settle, if_neg hcontradicts, if_neg hrevalidates]
      rw [hsame, hsame]

/-- A member of a list may come last. -/
theorem perm_last {relations : List RecordRelation} {rel : RecordRelation} (h : rel ∈ relations) :
    ∃ front, relations.Perm (front ++ [rel]) := by
  obtain ⟨front, back, rfl⟩ := List.append_of_mem h
  refine ⟨front ++ back, ?_⟩
  rw [List.append_assoc]
  apply List.Perm.append_left
  exact (List.perm_append_singleton rel back).symm

/-! ## Exactness -/

theorem exact_iff : Exact store assessment originalWork ↔
    StartsApart store assessment originalWork ∧ Undisputed store assessment originalWork := by
  constructor
  · intro h
    refine ⟨collected_iff.mp h.collected, ?_⟩
    intro ref hcollectable rel hrel hcontradicts rel' hrel' hrevalidates
    obtain ⟨node, hnode⟩ := hcollectable.resolves
    have hrecords := (h.collected ref node).mpr ⟨hcollectable, hnode⟩
    -- the order in which the request to revalidate comes last
    obtain ⟨front, hperm⟩ := perm_last hrel'
    have hlast : (dispositions (store.listing (front ++ [rel'])) assessment originalWork).get? ref =
        some .reconsider := by
      rw [get?_dispositions_listing hperm, hrecords, Option.map_some, foldl_settle_last,
        settle_of_revalidates hrevalidates]
    cases h.contradicted _ hperm rel (hperm.mem_iff.mp hrel) ref hcontradicts _ hlast
  · intro h
    obtain ⟨hapart, hundisputed⟩ := h
    have hcollected := collected_iff.mpr hapart
    have hsettled {relations : List RecordRelation} (hperm : store.relations.Perm relations)
        {ref : String} {node : ReopenNode}
        (hnode : (records store assessment originalWork).get? ref = some node) :
        store.relations.foldl (settle ref) node.disposition =
          relations.foldl (settle ref) node.disposition :=
      foldl_settle_perm (hundisputed ref ((hcollected ref node).mp hnode).1) hperm _
    refine ⟨queue_searched store assessment originalWork, hcollected, ?_, ?_⟩
    · intro relations hperm ref
      rw [get?_dispositions_listing hperm, get?_dispositions]
      cases hnode : (records store assessment originalWork).get? ref with
      | none => rfl
      | some node => rw [Option.map_some, Option.map_some, hsettled hperm hnode]
    · intro relations hperm rel hrel ref hcontradicts d hd
      rw [get?_dispositions_listing hperm] at hd
      cases hnode : (records store assessment originalWork).get? ref with
      | none =>
        rw [hnode] at hd
        cases hd
      | some node =>
        obtain ⟨front, hlast⟩ := perm_last hrel
        rw [hnode, Option.map_some, ← hsettled hperm hnode, hsettled (hperm.trans hlast) hnode,
          foldl_settle_last, settle_of_contradicts hcontradicts, Option.some.injEq] at hd
        exact hd.symm

/-- The package carries the handoff of the caller, or else the dispositions of the assembler. -/
theorem handoff_assemble {handoff : Option HandoffEnvelope} {package : ReopenPackage}
    (h : assemble (some store) assessment originalWork handoff = .ok package) :
    (∀ envelope, handoff.or assessment.handoff = some envelope → package.handoff = envelope) ∧
      (handoff.or assessment.handoff = none →
        package.handoff.dispositions = dispositions store assessment originalWork) := by
  rw [assemble, recordsAndRelations_eq] at h
  obtain ⟨-, h⟩ := Result.check_eq_ok.mp h
  obtain ⟨gathered, -, h⟩ := Result.bind_eq_ok.mp h
  obtain ⟨versions, -, h⟩ := Result.bind_eq_ok.mp h
  obtain rfl := Result.pure_eq_ok.mp h
  constructor
  · intro envelope henvelope
    show (handoff.or assessment.handoff).getD _ = envelope
    rw [henvelope]
    rfl
  · intro hnone
    show ((handoff.or assessment.handoff).getD _).dispositions = _
    rw [hnone, dispositions]
    rfl

/-! ## Assembling returns -/

/-- A grant that declares none of the record fields that are asked of it. -/
def Plain : ReopenNode → Prop
  | .record _ => True
  | .grant g => ∀ field ∈ ["assumptions", "unknown_scopes", "invalidation_conditions",
      "environment_versions"], g.extra.get field = .null

/-- Every version gathered is a text under a text. -/
def Worded (versions : List (Json × Json)) : Prop :=
  ∀ e ∈ versions, ∃ name version, e = (.str name, .str version)

theorem exists_texts {node : ReopenNode} {field : String} {own : BaseRecord → List String}
    (h : ∀ g, node = .grant g → g.extra.get field = .null) :
    ∃ texts, node.texts field own = .ok texts := by
  cases node with
  | record r => exact ⟨_, rfl⟩
  | grant g =>
    refine ⟨[], ?_⟩
    rw [ReopenNode.texts, h g rfl]
    rfl

theorem exists_environmentVersions {node : ReopenNode} (h : Plain node) :
    ∃ versions, node.environmentVersions = .ok versions ∧ Worded versions := by
  cases node with
  | record r =>
    refine ⟨_, rfl, ?_⟩
    intro e he
    obtain ⟨version, -, rfl⟩ := List.mem_map.mp he
    exact ⟨version.1, version.2, rfl⟩
  | grant g =>
    refine ⟨[], ?_, fun e he => absurd he List.not_mem_nil⟩
    rw [ReopenNode.environmentVersions, h "environment_versions" (by simp)]
    rfl

theorem environmentVersions_addType (g : Gathered) (ref recordType : String) :
    (addType g ref recordType).environmentVersions = g.environmentVersions := by
  simp only [addType]
  split_ifs <;> rfl

theorem exists_addRecord {g : Gathered} {entry : String × ReopenNode} (h : Plain entry.2)
    (hg : Worded g.environmentVersions) :
    ∃ g', addRecord g entry = .ok g' ∧ Worded g'.environmentVersions := by
  have hfield (field : String) (hfield : field ∈ ["assumptions", "unknown_scopes",
      "invalidation_conditions", "environment_versions"]) (grant : AuthorizationGrant)
      (hgrant : entry.2 = .grant grant) : grant.extra.get field = .null := by
    rw [hgrant] at h
    exact h field hfield
  obtain ⟨assumptions, hassumptions⟩ :=
    @exists_texts entry.2 "assumptions" (·.assumptions) (hfield "assumptions" (by simp))
  obtain ⟨unknown, hunknown⟩ :=
    @exists_texts entry.2 "unknown_scopes" (·.unknownScopes) (hfield "unknown_scopes" (by simp))
  obtain ⟨conditions, hconditions⟩ := @exists_texts entry.2 "invalidation_conditions"
    (·.invalidationConditions) (hfield "invalidation_conditions" (by simp))
  obtain ⟨versions, hversions, hworded⟩ := exists_environmentVersions h
  refine ⟨_, Result.bind_eq_ok.mpr ⟨_, hassumptions, Result.bind_eq_ok.mpr ⟨_, hunknown,
    Result.bind_eq_ok.mpr ⟨_, hconditions, Result.bind_eq_ok.mpr ⟨_, hversions, rfl⟩⟩⟩⟩, ?_⟩
  intro e he
  rcases List.mem_append.mp he with hold | hnew
  · apply hg
    rw [← environmentVersions_addType g entry.1 entry.2.recordType]
    exact hold
  · exact hworded e hnew

theorem exists_addRecords {entries : List (String × ReopenNode)} (h : ∀ e ∈ entries, Plain e.2)
    {g : Gathered} (hg : Worded g.environmentVersions) :
    ∃ g', entries.foldlM addRecord g = .ok g' ∧ Worded g'.environmentVersions := by
  induction entries generalizing g with
  | nil => exact ⟨g, rfl, hg⟩
  | cons entry rest ih =>
    obtain ⟨g₁, hadded, hg₁⟩ := exists_addRecord (h entry List.mem_cons_self) hg
    obtain ⟨g₂, hrest, hg₂⟩ := ih (fun e he => h e (List.mem_cons_of_mem entry he)) hg₁
    refine ⟨g₂, ?_, hg₂⟩
    rw [List.foldlM_cons]
    exact Result.bind_eq_ok.mpr ⟨g₁, hadded, hrest⟩

theorem exists_versionTexts {versions : List (Json × Json)} (h : Worded versions) :
    ∃ texts, versionTexts versions = .ok texts := by
  have hnamed : ∃ named : List (String × Json), versions.mapM (fun e => do
      return (← stringValue e.1, e.2)) = .ok named ∧ ∀ e ∈ named, ∃ version, e.2 = .str version := by
    induction versions with
    | nil => exact ⟨[], rfl, fun e he => absurd he List.not_mem_nil⟩
    | cons e rest ih =>
      obtain ⟨name, version, rfl⟩ := h e List.mem_cons_self
      obtain ⟨named, hrest, hversions⟩ := ih (fun e' he' => h e' (List.mem_cons_of_mem _ he'))
      refine ⟨(name, .str version) :: named, ?_, ?_⟩
      · rw [List.mapM_cons, hrest]
        rfl
      · intro e he
        rcases List.mem_cons.mp he with rfl | he
        · exact ⟨version, rfl⟩
        · exact hversions e he
  obtain ⟨named, hmapped, hversions⟩ := hnamed
  have htexts : ∃ texts : List (String × String), (Dict.ofPairs named).entries.mapM (fun e => do
      return (e.1, ← stringValue e.2)) = .ok texts := by
    apply Result.exists_mapM
    intro e he
    have hget : (Dict.ofPairs named).get? e.1 = some e.2 := Dict.get?_eq_some.mpr he
    rcases Dict.mem_of_get?_foldl_set hget with hmem | hempty
    · obtain ⟨version, hversion⟩ := hversions e hmem
      refine ⟨(e.1, version), ?_⟩
      rw [hversion]
      rfl
    · cases hempty
  obtain ⟨texts, htexts⟩ := htexts
  exact ⟨.ofPairs texts, Result.bind_eq_ok.mpr ⟨named, hmapped,
    Result.bind_eq_ok.mpr ⟨texts, htexts, rfl⟩⟩⟩

theorem environmentVersions_addRelations (collected : Dict String ReopenNode)
    (relations : List RecordRelation) (g : Gathered) :
    (relations.foldl (addRelation collected) g).environmentVersions = g.environmentVersions := by
  induction relations generalizing g with
  | nil => rfl
  | cons rel rest ih =>
    rw [List.foldl_cons, ih]
    simp only [addRelation]
    split
    · rfl
    · split <;> rfl

/-- Where no grant declares a field of a record, assembling returns a package. -/
theorem exists_assemble (hplain : ∀ ref node, store.candidate? ref = some node → Plain node)
    (handoff : Option HandoffEnvelope) :
    ∃ package, assemble (some store) assessment originalWork handoff = .ok package := by
  have hentries : ∀ e ∈ (records store assessment originalWork).entries, Plain e.2 := by
    intro e he
    have hget : (records store assessment originalWork).get? e.1 = some e.2 :=
      Dict.get?_eq_some.mpr he
    exact hplain e.1 e.2 (get?_records.mp hget).2
  have hempty : Worded ({} : Gathered).environmentVersions :=
    fun e he => absurd he List.not_mem_nil
  obtain ⟨g, hgathered, hworded⟩ := exists_addRecords hentries hempty
  rw [← environmentVersions_addRelations (records store assessment originalWork) store.relations g]
    at hworded
  obtain ⟨versions, hversions⟩ := exists_versionTexts hworded
  rw [assemble, recordsAndRelations_eq]
  exact ⟨_, Result.check_eq_ok.mpr ⟨rfl, Result.bind_eq_ok.mpr ⟨g, hgathered,
    Result.bind_eq_ok.mpr ⟨versions, hversions, rfl⟩⟩⟩⟩

/-- The dispositions that assembling derives are exact if and only if the starts lie apart and
nothing that is collected is both contradicted and to be revalidated. -/
theorem assemble_exact_iff (store : ReopenStore) (assessment : ReopenAssessment)
    (originalWork : Work) :
    (∀ package, assemble (some store) assessment originalWork none = .ok package →
      assessment.handoff = none →
        package.handoff.dispositions = dispositions store assessment originalWork) ∧
    (Exact store assessment originalWork ↔
      StartsApart store assessment originalWork ∧ Undisputed store assessment originalWork) := by
  refine ⟨fun package h hnone => ?_, exact_iff⟩
  exact (handoff_assemble h).2 (by rw [hnone]; rfl)

end ReopenAssembler

/-! ### A contradiction and a request to revalidate -/

namespace Reopening

open ReopenAssembler

def work : Work := { id := "work_1", createdAt := 0, title := "Repair the incident", updatedAt := 0 }

def assertion (id : String) : BaseRecord :=
  { cls := .assertion, id, recordType := .assertion, createdAt := 0, lifecycleStatus := .current,
    epistemicStatus := some .supported,
    fields := [("kind", .str "assertion"), ("statement", .str "old frame")] }

def grant : AuthorizationGrant :=
  { id := "authz_1", createdAt := 0, principalRef := "owner", granteeRef := "agent",
    allowedCapabilities := ["record.write"], validFrom := 0,
    subjectVersionRefs := ["assertion_1"] }

def contradiction : RecordRelation :=
  { id := "relation_1", relationType := .contradicts, subjectRef := "assertion_1",
    objectRef := "assertion_2", createdAt := 0 }

def revalidation : RecordRelation :=
  { id := "relation_2", relationType := .requiresRevalidation, subjectRef := "assertion_1",
    objectRef := "work_1", createdAt := 0 }

def authorization : RecordRelation :=
  { id := "relation_3", relationType := .authorizes, subjectRef := "authz_1",
    objectRef := "work_1", createdAt := 0 }

def store (relations : List RecordRelation) : ReopenStore :=
  { listRelations := some relations
    getRecord := some (fun ref =>
      if ["assertion_1", "assertion_2"].contains ref then some (assertion ref) else none)
    getAuthorization := some (fun ref => if ref = "authz_1" then some grant else none) }

def assessing (ref : String) : ReopenAssessment :=
  { recordRef := ref, targetRef := some ref, revisionScope := .problemDefinition }

/-- What the package that is assembled says of a reference. -/
def assembled (relations : List RecordRelation) (ref : String) : Option HandoffDisposition :=
  (assemble (some (store relations)) (assessing ref) work none).toOption.bind
    (fun package => package.handoff.dispositions.get? ref)

/-- A request to revalidate that comes later takes a contradicted record back from invalidated, and
a grant that is assessed is not collected although a relation leads to it from the Work. -/
theorem assemble_not_exact :
    (assembled [revalidation, contradiction] "assertion_1" = some .invalidated ∧
      assembled [contradiction, revalidation] "assertion_1" = some .reconsider ∧
        ¬ Exact (store [contradiction, revalidation]) (assessing "assertion_1") work) ∧
    (assembled [authorization] "authz_1" = none ∧
      ¬ Exact (store [authorization]) (assessing "authz_1") work) := by
  refine ⟨⟨by decide, by decide, fun h => ?_⟩, by decide, fun h => ?_⟩
  · have hd : (dispositions (store [contradiction, revalidation]) (assessing "assertion_1")
        work).get? "assertion_1" = some .reconsider := by decide
    cases h.contradicted _ (List.Perm.refl _) contradiction List.mem_cons_self "assertion_1"
      ⟨rfl, .inl rfl⟩ _ hd
  · have hlinked : Linked (store [authorization]) "work_1" "authz_1" :=
      ⟨⟨authorization, List.mem_cons_self, .inr ⟨rfl, rfl⟩⟩, rfl⟩
    have hcollectable : Collectable (store [authorization]) (assessing "authz_1") work "authz_1" :=
      .inl ⟨"work_1", List.mem_cons_self, .single hlinked⟩
    have hget := (h.collected "authz_1" (.grant grant)).mpr ⟨hcollectable, rfl⟩
    rw [show (records (store [authorization]) (assessing "authz_1") work).get? "authz_1" = none
      from by decide] at hget
    cases hget

end Reopening
end PortableRuntime
