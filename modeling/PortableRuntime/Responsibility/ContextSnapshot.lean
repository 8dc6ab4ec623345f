import PortableRuntime.Library.Decimal
import PortableRuntime.Responsibility.History
import PortableRuntime.Responsibility.Lifecycle
import PortableRuntime.Responsibility.Materialization

/-!
# Two context snapshots with one id

The id of a snapshot hashes the responsibility, its version and the lengths of five
listings.  A journal only grows, so a listing that nothing leaves is the same listing as long
as its length is.  Expectations leave theirs when they are resolved, and Works, reservations
and what the caller adds are not counted, or not by what they are.
-/

namespace PortableRuntime

/-- The ids of two lists of parts are told apart. -/
def StableId.Tells (ids : StableId) (kind : String) (parts parts' : List String) : Prop :=
  ids.text kind parts = ids.text kind parts' → parts = parts'

namespace ResponsibilityStore

/-! ## What a snapshot reads -/

/-- What a snapshot takes from the store, under a definition. -/
structure ContextReading where
  definition : ResponsibilityDefinition
  expectations : List ResponsibilityExpectation
  assessments : List ResponsibilityAssessment
  proposals : List WorkProposal
  commitments : List Commitment
  reservations : List ResourceReservation
  workRefs : List String

/-- An expectation that nothing has resolved. -/
def isOpen (s : ResponsibilityStore) (v : ResponsibilityExpectation) : Bool :=
  (s.resolutions v).isEmpty

def contextReading (s : ResponsibilityStore) (responsibilityId : String)
    (d : ResponsibilityDefinition) : ContextReading where
  definition := d
  expectations := (s.listed (·.asExpectation) "ResponsibilityExpectation" responsibilityId).filter
    s.isOpen
  assessments := s.listed (·.asAssessment) "ResponsibilityAssessment" responsibilityId
  proposals := (s.listed (·.asProposal) "WorkProposal" responsibilityId).filter
    (fun v => v.responsibilityVersion = d.version)
  commitments := (s.listed (·.asCommitment) "Commitment" responsibilityId).filter
    (fun v => v.responsibilityVersion = d.version)
  reservations := s.listed (·.asReservation) "ResourceReservation" responsibilityId
  workRefs := (s.listWork.filter (fun work =>
    (Fields.get work.metadata "standing_responsibility_ref").eqStr responsibilityId)).map (·.id)

namespace ContextReading

/-- What the id of a snapshot hashes. -/
def idParts (read : ContextReading) (responsibilityId : String) : List String :=
  [responsibilityId, toString read.definition.version, toString read.expectations.length,
   toString read.assessments.length, toString read.proposals.length,
   toString read.commitments.length, toString read.workRefs.length]

/-- The snapshot of a reading. -/
def snapshot (ids : StableId) (read : ContextReading) (responsibilityId : String)
    (refs : SnapshotRefs) (clock : Time) : ResponsibilityContextSnapshot :=
  { id := ids.text "responsibility_context" (read.idParts responsibilityId),
    createdAt := clock, idNonblank := ids.nonBlank _ _, responsibilityRef := responsibilityId,
    responsibilityVersion := read.definition.version, scope := read.definition.scope,
    openExpectationRefs := read.expectations.map (·.id),
    openAssessmentRefs := read.assessments.map (·.id),
    unresolvedUnknowns := refs.unresolvedUnknowns,
    activeProposalRefs := read.proposals.map (·.id),
    commitmentRefs := read.commitments.map (·.id), workRefs := read.workRefs,
    reservationRefs := read.reservations.map (·.id), evidenceRefs := refs.evidenceRefs,
    qualificationDependencyRefs := refs.qualificationDependencyRefs,
    reopenConditions := refs.reopenConditions, stopConditions := refs.stopConditions,
    escalationConditions := refs.escalationConditions }

/-- What the id of a snapshot counts. -/
structure SameCounts (a b : ContextReading) : Prop where
  version : b.definition.version = a.definition.version
  expectations : b.expectations.length = a.expectations.length
  assessments : b.assessments.length = a.assessments.length
  proposals : b.proposals.length = a.proposals.length
  commitments : b.commitments.length = a.commitments.length
  works : b.workRefs.length = a.workRefs.length

theorem idParts_eq_iff {a b : ContextReading} {r r' : String} :
    a.idParts r = b.idParts r' ↔ r' = r ∧ a.SameCounts b := by
  have hnat : ∀ {m n : Nat}, toString m = toString n → n = m := fun h =>
    (natRepr_injective (congrArg String.toList h)).symm
  constructor
  · intro h
    simp only [idParts, List.cons.injEq, and_true] at h
    obtain ⟨hr, hversion, hexpectations, hassessments, hproposals, hcommitments, hworks⟩ := h
    exact ⟨hr.symm, (toString_int_injective (congrArg String.toList hversion)).symm,
      hnat hexpectations, hnat hassessments, hnat hproposals, hnat hcommitments, hnat hworks⟩
  · rintro ⟨rfl, hversion, hexpectations, hassessments, hproposals, hcommitments, hworks⟩
    simp only [idParts, hversion, hexpectations, hassessments, hproposals, hcommitments, hworks]

end ContextReading

section Reading

variable {ids : StableId} {s : ResponsibilityStore} {r : String} {refs : SnapshotRefs}
  {clock : Time}

theorem asExpectation_eq_some {o : ResponsibilityObject} {v : ResponsibilityExpectation} :
    o.asExpectation = some v ↔ o = .expectation v := by
  cases o <;> simp [ResponsibilityObject.asExpectation]

theorem mem_listed_expectation {v : ResponsibilityExpectation}
    (hv : v ∈ s.listed (·.asExpectation) "ResponsibilityExpectation" r) :
    s.journalGet v.id = some (.expectation v) := by
  obtain ⟨o, ho, hov⟩ := List.mem_filterMap.mp hv
  obtain rfl := asExpectation_eq_some.mp hov
  exact (mem_list.mp ho).1

/-- A listed expectation is found again, so each is open or not. -/
theorem filterM_expectationOpen :
    (s.listed (·.asExpectation) "ResponsibilityExpectation" r).filterM
        (fun v => s.expectationOpen v.id) =
      .ok ((s.listed (·.asExpectation) "ResponsibilityExpectation" r).filter s.isOpen) := by
  refine filterM_of_ok (fun v hv => ?_)
  have hget : s.getExpectation v.id = .ok v :=
    (get_eq_ok asExpectation_eq_some).mpr (mem_listed_expectation hv)
  rw [expectationOpen, hget]
  rfl

/-- A call takes the snapshot of what it reads, once the definition is readable. -/
theorem createContextSnapshot_eq :
    s.createContextSnapshot ids r refs clock = s.currentDefinition r >>= fun d =>
      s.saveAppendOnly (.snapshot ((s.contextReading r d).snapshot ids r refs clock)) := by
  rw [createContextSnapshot, filterM_expectationOpen]
  rfl

end Reading

/-! ## A journal that has grown -/

instance : Std.Total createdBefore where
  total a b := by
    unfold createdBefore
    rcases lt_trichotomy a.base.createdAt b.base.createdAt with h | h | h
    · exact .inl (.inl h)
    · rcases String.le_total a.id b.id with hid | hid
      · exact .inl (.inr ⟨h, hid⟩)
      · exact .inr (.inr ⟨h.symm, hid⟩)
    · exact .inr (.inl h)

instance : IsTrans ResponsibilityObject createdBefore where
  trans a b c := by
    unfold createdBefore
    rintro (hab | ⟨hab, habId⟩) (hbc | ⟨hbc, hbcId⟩)
    · exact .inl (lt_trans hab hbc)
    · exact .inl (hbc ▸ hab)
    · exact .inl (hab ▸ hbc)
    · exact .inr ⟨hab.trans hbc, String.le_trans habId hbcId⟩

/-- The objects of a store, with later ones behind them. -/
def Extends (s s' : ResponsibilityStore) : Prop :=
  ∃ later, s'.objects.values = s.objects.values ++ later

theorem Extends.refl (s : ResponsibilityStore) : s.Extends s := ⟨[], by simp⟩

theorem Extends.trans {a b c : ResponsibilityStore} (hab : a.Extends b) (hbc : b.Extends c) :
    a.Extends c := by
  obtain ⟨later, hb⟩ := hab
  obtain ⟨last, hc⟩ := hbc
  exact ⟨later ++ last, by rw [hc, hb, List.append_assoc]⟩

theorem extends_step {ids : StableId} {s : ResponsibilityStore} (move : WorkMove) :
    s.Extends (move.step ids s) := by
  cases move with
  | kernel call =>
    refine step_induction (I := s.Extends) (fun t _ ht => ht) (fun t v ht hfresh _ => ?_)
      (Extends.refl s)
    exact ht.trans ⟨[v], values_record hfresh⟩
  | saveWork work => exact Extends.refl s

theorem extends_run {ids : StableId} {s : ResponsibilityStore} (moves : List WorkMove) :
    s.Extends (run (WorkMove.step ids) s moves) :=
  run_preserves (I := s.Extends) (fun _ move hs => hs.trans (extends_step move)) (Extends.refl s)

section Extended

variable {α : Type} {s s' : ResponsibilityStore} {as : ResponsibilityObject → Option α}
  {objectType : String} {ref : Option String}

theorem journalGet_extends (h : s.Extends s') {k : String} {v : ResponsibilityObject}
    (hv : s.journalGet k = some v) : s'.journalGet k = some v := by
  obtain ⟨later, hlater⟩ := h
  obtain rfl := id_of_journalGet hv
  rw [journalGet_eq_some] at hv ⊢
  exact hlater ▸ List.mem_append_left later hv

/-- A listing reads each object of the journal, in the order of the listing. -/
def listedAs (as : ResponsibilityObject → Option α) (objectType : String) (ref : Option String)
    (p : α → Bool) (v : ResponsibilityObject) : Option α :=
  if ref.all (· = v.subjectRef) ∧ v.typeName = objectType then (as v).filter p else none

theorem filter_listed (p : α → Bool) :
    (s.listed as objectType ref).filter p =
      (s.objects.values.insertionSort createdBefore).filterMap
        (listedAs as objectType ref p) := by
  rw [listed, list, List.filter_filter, ← filter_insertionSort, List.filterMap_filter,
    List.filter_filterMap]
  refine List.filterMap_congr (fun v _ => ?_)
  by_cases hv : ref.all (· = v.subjectRef) ∧ v.typeName = objectType
  · simp [listedAs, hv]
  · rw [listedAs, if_neg hv, if_neg]
    · rfl
    · simpa [and_comm] using hv

/-- A listing that nothing leaves is the same while its length is. -/
theorem filter_listed_of_length (h : s.Extends s') {p p' : α → Bool}
    (hp : ∀ a ∈ s.listed as objectType ref, p' a = p a)
    (hlength : ((s'.listed as objectType ref).filter p').length =
      ((s.listed as objectType ref).filter p).length) :
    (s'.listed as objectType ref).filter p' = (s.listed as objectType ref).filter p := by
  obtain ⟨later, hlater⟩ := h
  have hold : ∀ v ∈ s.objects.values,
      listedAs as objectType ref p' v = listedAs as objectType ref p v := by
    intro v hv
    unfold listedAs
    split
    · next hlisted =>
      cases ha : as v with
      | none => rfl
      | some a =>
        have hmem : a ∈ s.listed as objectType ref := by
          refine List.mem_filterMap.mpr ⟨v, mem_list.mpr ⟨?_, ?_, hlisted.2⟩, ha⟩
          · exact journalGet_eq_some.mpr hv
          · simpa [Option.all_eq_true] using hlisted.1
        rw [Option.filter_some, Option.filter_some, hp a hmem]
    · rfl
  have hsort : ∀ (l : List ResponsibilityObject) (f : ResponsibilityObject → Option α),
      ((l.insertionSort createdBefore).filterMap f).length = (l.filterMap f).length :=
    fun l f => ((List.perm_insertionSort createdBefore l).filterMap f).length_eq
  rw [filter_listed, filter_listed, hlater] at hlength ⊢
  rw [hsort, hsort, List.filterMap_append, List.length_append, List.filterMap_congr hold]
    at hlength
  rw [filterMap_insertionSort_append (List.eq_nil_of_length_eq_zero (by omega))]
  exact List.filterMap_congr (fun v hv => hold v ((List.mem_insertionSort _).mp hv))

theorem listed_of_length (h : s.Extends s')
    (hlength : (s'.listed as objectType ref).length = (s.listed as objectType ref).length) :
    s'.listed as objectType ref = s.listed as objectType ref := by
  have hall : (s'.listed as objectType ref).filter (fun _ => true) =
      (s.listed as objectType ref).filter (fun _ => true) :=
    filter_listed_of_length h (fun _ _ => rfl) (by rwa [List.filter_true, List.filter_true])
  rwa [List.filter_true, List.filter_true] at hall

/-- Equal versions of a definition are equal definitions. -/
theorem currentDefinition_of_version (h : s.Extends s') {r : String}
    {d d' : ResponsibilityDefinition} (hd : s.currentDefinition r = .ok d)
    (hd' : s'.currentDefinition r = .ok d') (hversion : d'.version = d.version) : d' = d := by
  have hrevisions : s'.revisions r = s.revisions r := by
    have hlength : (s'.revisions r).length = (s.revisions r).length := by
      have := version_eq hd
      have := version_eq hd'
      omega
    rw [revisions, revisions, List.length_insertionSort, List.length_insertionSort] at hlength
    rw [revisions, revisions, listed_of_length h hlength]
  obtain ⟨identity, hidentity, hfold⟩ := Result.bind_eq_ok.mp hd
  obtain ⟨identity', hidentity', hfold'⟩ := Result.bind_eq_ok.mp hd'
  have hsame := journalGet_extends h (getResponsibility_eq_ok.mp hidentity)
  rw [getResponsibility_eq_ok.mp hidentity', Option.some.injEq,
    ResponsibilityObject.responsibility.injEq] at hsame
  rw [hrevisions, hsame, hfold] at hfold'
  exact (Except.ok.inj hfold').symm

/-- What has been resolved stays resolved. -/
theorem isOpen_of_extends (h : s.Extends s') {v : ResponsibilityExpectation}
    (hopen : s'.isOpen v = true) : s.isOpen v = true := by
  rw [isOpen, resolutions, filter_listed, List.isEmpty_iff, List.filterMap_eq_nil_iff] at hopen ⊢
  obtain ⟨later, hlater⟩ := h
  intro o ho
  refine hopen o ?_
  rw [List.mem_insertionSort] at ho ⊢
  exact hlater ▸ List.mem_append_left later ho

end Extended

/-! ## Equal counts and equal contents -/

/-- Between two calls nothing was done that a snapshot shows and its id does not count: no open
expectation was resolved, nothing was reserved, no Work of the responsibility left its place in
the listing, and the caller adds the same. -/
structure ContextKept (s s' : ResponsibilityStore) (r : String) (d d' : ResponsibilityDefinition)
    (refs refs' : SnapshotRefs) : Prop where
  unresolved : ∀ v ∈ (s.contextReading r d).expectations, s'.resolutions v = []
  unreserved : ∀ v : ResourceReservation, (ResponsibilityObject.reservation v).subjectRef = r →
    s'.journalGet v.id = some (.reservation v) → s.journalGet v.id = some (.reservation v)
  works : (s.contextReading r d).workRefs.Sublist (s'.contextReading r d').workRefs
  refs : refs' = refs

section Content

variable {ids : StableId} {s s' : ResponsibilityStore} {r r' : String}
  {d d' : ResponsibilityDefinition} {refs refs' : SnapshotRefs} {clock clock' : Time}

theorem mem_reservations_reading {v : ResourceReservation} :
    v ∈ s.listed (·.asReservation) "ResourceReservation" (some r) ↔
      s.journalGet v.id = some (.reservation v) ∧
        (ResponsibilityObject.reservation v).subjectRef = r := by
  rw [listed, List.mem_filterMap]
  constructor
  · rintro ⟨o, ho, hov⟩
    obtain rfl := ResponsibilityObject.asReservation_eq_some.mp hov
    obtain ⟨hget, href, -⟩ := mem_list.mp ho
    exact ⟨hget, (href r rfl).symm⟩
  · rintro ⟨hget, href⟩
    refine ⟨.reservation v, mem_list.mpr ⟨hget, fun r' hr' => ?_, rfl⟩, rfl⟩
    rw [← Option.some.inj hr', href]

theorem nodup_values (s : ResponsibilityStore) : s.objects.values.Nodup := by
  have hkeys : s.objects.values.map (·.id) = s.objects.entries.map Prod.fst := by
    rw [Dict.values, List.map_map]
    exact List.map_congr_left (fun e he => s.keyed e.1 e.2 (Dict.get?_eq_some.mpr he))
  exact List.Nodup.of_map (·.id) (hkeys ▸ s.objects.nodup)

/-- The reservations are the same as long as none has been recorded. -/
theorem reservations_eq_iff (h : s.Extends s') :
    s'.listed (·.asReservation) "ResourceReservation" (some r) =
        s.listed (·.asReservation) "ResourceReservation" (some r) ↔
      ∀ v : ResourceReservation, (ResponsibilityObject.reservation v).subjectRef = r →
        s'.journalGet v.id = some (.reservation v) → s.journalGet v.id = some (.reservation v) := by
  constructor
  · intro hsame v href hget
    have hmem : v ∈ s'.listed (·.asReservation) "ResourceReservation" (some r) :=
      mem_reservations_reading.mpr ⟨hget, href⟩
    rw [hsame] at hmem
    exact (mem_reservations_reading.mp hmem).1
  · intro hold
    refine listed_of_length h ?_
    obtain ⟨later, hlater⟩ := h
    have hnodup := nodup_values s'
    rw [hlater, List.nodup_append] at hnodup
    -- a later object is no reservation of this responsibility, for it was not there before
    have hnone : later.filterMap
        (listedAs (·.asReservation) "ResourceReservation" (some r) (fun _ => true)) = [] := by
      refine List.filterMap_eq_nil_iff.mpr (fun o ho => ?_)
      unfold listedAs
      split
      · next hlisted =>
        dsimp only
        cases hreservation : o.asReservation with
        | none => rfl
        | some v =>
          obtain rfl := ResponsibilityObject.asReservation_eq_some.mp hreservation
          have hget : s'.journalGet v.id = some (.reservation v) :=
            journalGet_eq_some.mpr (hlater ▸ List.mem_append_right _ ho)
          have hbefore : ResponsibilityObject.reservation v ∈ s.objects.values :=
            journalGet_eq_some.mp (hold v (by simpa [eq_comm] using hlisted.1) hget)
          exact absurd rfl (hnodup.2.2 _ hbefore _ ho)
      · rfl
    have hall : ∀ t : ResponsibilityStore,
        (t.listed (·.asReservation) "ResourceReservation" (some r)).length =
          (t.objects.values.filterMap (listedAs (·.asReservation) "ResourceReservation" (some r)
            (fun _ => true))).length := by
      intro t
      rw [← List.filter_true (t.listed _ _ _), filter_listed]
      exact ((List.perm_insertionSort createdBefore _).filterMap _).length_eq
    rw [hall, hall, hlater, List.filterMap_append, hnone, List.append_nil]

/-- Stores of equal counts that differ in nothing else a snapshot shows are read alike. -/
theorem contextReading_eq (h : s.Extends s') (hd : s.currentDefinition r = .ok d)
    (hd' : s'.currentDefinition r = .ok d')
    (hcounts : (s.contextReading r d).SameCounts (s'.contextReading r d'))
    (hsame : ContextKept s s' r d d' refs refs') :
    s'.contextReading r d' = s.contextReading r d := by
  obtain rfl := currentDefinition_of_version h hd hd' hcounts.version
  have hexpectations : (s'.contextReading r d').expectations =
      (s.contextReading r d').expectations := by
    refine filter_listed_of_length h (fun v hv => ?_) hcounts.expectations
    rw [Bool.eq_iff_iff]
    constructor
    · exact isOpen_of_extends h
    · intro hbefore
      exact List.isEmpty_iff.mpr (hsame.unresolved v (List.mem_filter.mpr ⟨hv, hbefore⟩))
  have hassessments : (s'.contextReading r d').assessments =
      (s.contextReading r d').assessments := listed_of_length h hcounts.assessments
  have hproposals : (s'.contextReading r d').proposals = (s.contextReading r d').proposals :=
    filter_listed_of_length h (fun _ _ => rfl) hcounts.proposals
  have hcommitments : (s'.contextReading r d').commitments =
      (s.contextReading r d').commitments :=
    filter_listed_of_length h (fun _ _ => rfl) hcounts.commitments
  have hreserved : (s'.contextReading r d').reservations =
      (s.contextReading r d').reservations := (reservations_eq_iff h).mpr hsame.unreserved
  have hworks : (s'.contextReading r d').workRefs = (s.contextReading r d').workRefs :=
    (hsame.works.eq_of_length hcounts.works.symm).symm
  change ContextReading.mk d' (s'.contextReading r d').expectations
    (s'.contextReading r d').assessments (s'.contextReading r d').proposals
    (s'.contextReading r d').commitments (s'.contextReading r d').reservations
    (s'.contextReading r d').workRefs = _
  rw [hexpectations, hassessments, hproposals, hcommitments, hreserved, hworks]
  rfl

/-- The contents of two snapshots, creation times apart, are compared field by field. -/
theorem sameSemantics_snapshot {v v' : ResponsibilityContextSnapshot} :
    (ResponsibilityObject.snapshot v).sameSemantics (.snapshot v') = true ↔
      v.id = v'.id ∧ v.responsibilityRef = v'.responsibilityRef ∧
      v.responsibilityVersion = v'.responsibilityVersion ∧ (v.scope == v'.scope) = true ∧
      v.openExpectationRefs = v'.openExpectationRefs ∧
      v.openAssessmentRefs = v'.openAssessmentRefs ∧
      v.unresolvedUnknowns = v'.unresolvedUnknowns ∧
      v.activeProposalRefs = v'.activeProposalRefs ∧ v.commitmentRefs = v'.commitmentRefs ∧
      v.workRefs = v'.workRefs ∧ v.reservationRefs = v'.reservationRefs ∧
      v.evidenceRefs = v'.evidenceRefs ∧
      v.qualificationDependencyRefs = v'.qualificationDependencyRefs ∧
      v.reopenConditions = v'.reopenConditions ∧ v.stopConditions = v'.stopConditions ∧
      v.escalationConditions = v'.escalationConditions := by
  have hbase : ∀ a b : ObjectBase, instBEqObjectBase.beq a b = true ↔
      a.id = b.id ∧ a.createdAt = b.createdAt := by
    rintro ⟨id, t, hid⟩ ⟨id', t', hid'⟩
    by_cases hsame : id = id'
    · subst hsame
      simp [instBEqObjectBase.beq]
    · simp [instBEqObjectBase.beq, hsame]
  have hlist : ∀ a b : List String, a.beq b = true ↔ a = b :=
    fun a b => @beq_iff_eq (List String) _ _ a b
  have hfields : (ResponsibilityObject.snapshot v).sameSemantics (.snapshot v') =
      (({ v with createdAt := 0 } : ResponsibilityContextSnapshot) ==
        { v' with createdAt := 0 }) := rfl
  rw [hfields]
  simp only [BEq.beq, instBEqResponsibilityContextSnapshot.beq, Bool.and_eq_true, hbase, hlist,
    decide_eq_true_eq, and_true]

variable (ids refs refs' clock clock') in
/-- Two snapshots of equal counts have one content exactly where nothing was disturbed. -/
theorem snapshot_sameSemantics_iff (h : s.Extends s') (hd : s.currentDefinition r = .ok d)
    (hd' : s'.currentDefinition r = .ok d')
    (hcounts : (s.contextReading r d).SameCounts (s'.contextReading r d')) :
    (ResponsibilityObject.snapshot ((s.contextReading r d).snapshot ids r refs clock)).sameSemantics
        (.snapshot ((s'.contextReading r d').snapshot ids r refs' clock')) = true ↔
      ContextKept s s' r d d' refs refs' := by
  constructor
  · intro hcontent
    obtain ⟨-, -, -, -, hexpectations, -, hunknowns, -, -, hworks, hreservations, hevidence,
      hdependencies, hreopen, hstop, hescalation⟩ := sameSemantics_snapshot.mp hcontent
    have hids : (s.contextReading r d).expectations.map (·.id) =
        (s'.contextReading r d').expectations.map (·.id) := hexpectations
    have hreserved : (s.contextReading r d).reservations.map (·.id) =
        (s'.contextReading r d').reservations.map (·.id) := hreservations
    have hlength : (s'.contextReading r d').reservations.length =
        (s.contextReading r d).reservations.length := by
      simpa using (congrArg List.length hreserved).symm
    have hkept : (s'.contextReading r d').reservations = (s.contextReading r d).reservations :=
      listed_of_length h hlength
    refine ⟨fun v hv => ?_, (reservations_eq_iff h).mp hkept, ?_, ?_⟩
    · -- The later snapshot lists the expectation, which is the one that is stored.
      have hid : v.id ∈ (s'.contextReading r d').expectations.map (·.id) :=
        hids ▸ List.mem_map_of_mem hv
      obtain ⟨v', hv', hsame⟩ := List.mem_map.mp hid
      obtain ⟨hlisted', hopen⟩ := List.mem_filter.mp hv'
      have hstored := mem_listed_expectation (List.mem_filter.mp hv).1
      have hstored' := mem_listed_expectation hlisted'
      have hget := journalGet_extends h hstored
      rw [← hsame, hstored', Option.some.injEq, ResponsibilityObject.expectation.injEq] at hget
      exact List.isEmpty_iff.mp (hget ▸ hopen)
    · have hrefs : (s.contextReading r d).workRefs = (s'.contextReading r d').workRefs := hworks
      exact hrefs ▸ List.Sublist.refl _
    · cases refs
      cases refs'
      simp_all [ContextReading.snapshot]
  · intro hsame
    have hread := contextReading_eq h hd hd' hcounts hsame
    obtain ⟨-, -, -, rfl⟩ := hsame
    rw [hread]
    exact sameSemantics_snapshot.mpr
      ⟨rfl, rfl, rfl, Dict.beq_self _, rfl, rfl, rfl, rfl, rfl, rfl, rfl, rfl, rfl, rfl, rfl, rfl⟩

/-- Two calls with one id take one content, and the second is not stopped by what the first
recorded. -/
def Faithful (ids : StableId) (s s' : ResponsibilityStore) (r r' : String)
    (d d' : ResponsibilityDefinition) (refs refs' : SnapshotRefs) (clock clock' : Time) : Prop :=
  let taken := (s.contextReading r d).snapshot ids r refs clock
  let taken' := (s'.contextReading r' d').snapshot ids r' refs' clock'
  taken.id = taken'.id →
    (ResponsibilityObject.snapshot taken).sameSemantics (.snapshot taken') = true ∧
    ((∀ v, s'.journalGet taken'.id = some v → v = .snapshot taken) →
      (s'.createContextSnapshot ids r' refs' clock').isOk = true)

/-- A call that finds nothing under its id, or a snapshot of its own content, returns. -/
theorem createContextSnapshot_isOk (hd : s.currentDefinition r = .ok d)
    (hfree : ∀ v, s.journalGet ((s.contextReading r d).snapshot ids r refs clock).id = some v →
      v.sameSemantics (.snapshot ((s.contextReading r d).snapshot ids r refs clock)) = true) :
    (s.createContextSnapshot ids r refs clock).isOk = true := by
  rw [createContextSnapshot_eq, hd]
  change (s.saveAppendOnly (.snapshot ((s.contextReading r d).snapshot ids r refs clock))).isOk =
    true
  cases hget : s.journalGet ((s.contextReading r d).snapshot ids r refs clock).id with
  | none =>
    rw [saveAppendOnly_of_none (v := .snapshot _) hget]
    rfl
  | some existing =>
    rw [(saveAppendOnly_of_some (v := .snapshot _) hget).mpr ⟨hfree existing hget, rfl, rfl⟩]
    rfl

end Content

/-- At any point of a run and any later one, two calls for readable responsibilities whose ids
do not collide are faithful exactly when, with one responsibility and equal counts, nothing was
disturbed between them. -/
theorem context_snapshot_iff (ids : StableId) (before moves : List WorkMove) {r r' : String}
    {d d' : ResponsibilityDefinition} (refs refs' : SnapshotRefs) (clock clock' : Time)
    (hd : (run (WorkMove.step ids) empty before).currentDefinition r = .ok d)
    (hd' : (run (WorkMove.step ids) empty (before ++ moves)).currentDefinition r' = .ok d')
    (htells : ids.Tells "responsibility_context"
      (((run (WorkMove.step ids) empty before).contextReading r d).idParts r)
      (((run (WorkMove.step ids) empty (before ++ moves)).contextReading r' d').idParts r')) :
    Faithful ids (run (WorkMove.step ids) empty before)
        (run (WorkMove.step ids) empty (before ++ moves)) r r' d d' refs refs' clock clock' ↔
      (r' = r →
        ((run (WorkMove.step ids) empty before).contextReading r d).SameCounts
          ((run (WorkMove.step ids) empty (before ++ moves)).contextReading r' d') →
        ContextKept (run (WorkMove.step ids) empty before)
          (run (WorkMove.step ids) empty (before ++ moves)) r d d' refs refs') := by
  rw [run_append] at hd' htells ⊢
  constructor
  · rintro h rfl hcounts
    refine (snapshot_sameSemantics_iff ids refs refs' clock clock' (extends_run moves) hd hd'
      hcounts).mp (h ?_).1
    show ids.text _ _ = ids.text _ _
    rw [ContextReading.idParts_eq_iff.mpr ⟨rfl, hcounts⟩]
  · intro h hid
    obtain ⟨rfl, hcounts⟩ := ContextReading.idParts_eq_iff.mp (htells hid)
    have hcontent := (snapshot_sameSemantics_iff ids refs refs' clock clock' (extends_run moves) hd
      hd' hcounts).mpr (h rfl hcounts)
    refine ⟨hcontent, fun hstored => createContextSnapshot_isOk hd' (fun v hv => ?_)⟩
    rw [hstored v hv]
    exact hcontent

end ResponsibilityStore

namespace Listing

/-- The first snapshot of the responsibility, with nothing added by the caller. -/
def firstSnapshot : WorkMove := .kernel (.createContextSnapshot "sr_listing" {} 1)

def definition : ResponsibilityDefinition :=
  { version := 1, statement := "Maintain listing integrity", scope := Dict.empty }

end Listing

namespace ResponsibilityStore

/-- Right after the first snapshot, one with the same additions returns. -/
theorem context_snapshot_repeated :
    Faithful Listing.ids
      (run (WorkMove.step Listing.ids) empty
        [.kernel (.register Listing.identity Listing.admission)])
      (run (WorkMove.step Listing.ids) empty
        ([.kernel (.register Listing.identity Listing.admission)] ++ [Listing.firstSnapshot]))
      "sr_listing" "sr_listing" Listing.definition Listing.definition {} {} 1 2 := by
  refine (context_snapshot_iff Listing.ids _ _ {} {} 1 2 rfl rfl ?_).mpr (fun _ _ => ?_)
  · intro _
    exact ContextReading.idParts_eq_iff.mpr ⟨rfl, rfl, rfl, rfl, rfl, rfl, rfl⟩
  · refine ⟨fun _ hv => absurd hv List.not_mem_nil, ?_, List.Sublist.refl _, rfl⟩
    rw [run_append]
    exact (reservations_eq_iff (extends_run _)).mp rfl

/-- Evidence that the caller adds has no part in the id, so the second call raises. -/
theorem context_snapshot_refused :
    (run (WorkMove.step Listing.ids) empty
      ([.kernel (.register Listing.identity Listing.admission)] ++ [Listing.firstSnapshot])
      ).currentDefinition "sr_listing" = .ok Listing.definition ∧
    ((run (WorkMove.step Listing.ids) empty
      ([.kernel (.register Listing.identity Listing.admission)] ++ [Listing.firstSnapshot])
      ).createContextSnapshot Listing.ids "sr_listing" { evidenceRefs := ["evidence"] } 2).isOk =
        false ∧
    ¬ Faithful Listing.ids
      (run (WorkMove.step Listing.ids) empty
        [.kernel (.register Listing.identity Listing.admission)])
      (run (WorkMove.step Listing.ids) empty
        ([.kernel (.register Listing.identity Listing.admission)] ++ [Listing.firstSnapshot]))
      "sr_listing" "sr_listing" Listing.definition Listing.definition {}
      { evidenceRefs := ["evidence"] } 1 2 := by
  refine ⟨rfl, by decide, fun h => ?_⟩
  exact absurd (h rfl).1 (by decide)

end ResponsibilityStore
end PortableRuntime
