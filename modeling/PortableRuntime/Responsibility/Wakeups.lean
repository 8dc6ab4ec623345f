import PortableRuntime.Responsibility.ContextSnapshot

/-!
# Wakeups of an expectation

A wakeup asks whether an expectation has been met.  Evidence resolves the expectation,
and without evidence an overdue one gets an assessment, each under an id that hashes the
expectation.  Whatever was saved before is found under the same id, so a wakeup that is
repeated has nothing left to do, unless a revision or a transition came in between.
-/

namespace PortableRuntime

namespace KernelCall

/-- The calls that decide about an expectation. -/
def decides : KernelCall → Bool
  | assessDueExpectation .. | resolveExpectation _ | revise _ | transition _ => true
  | _ => false

end KernelCall

namespace ResponsibilityStore

/-- The id of the assessment that the signal of an expectation is missing. -/
def missingSignalId (ids : StableId) (e : ResponsibilityExpectation) : String :=
  ids.text "assessment" [e.id, Text.dateTime e.dueAt, "missing"]

/-- The id of the resolution of an expectation by evidence. -/
def satisfiedId (ids : StableId) (e : ResponsibilityExpectation) : String :=
  ids.text "expectation_resolution" [e.id, "satisfied"]

theorem nonBlank_missingSignalId (ids : StableId) (e : ResponsibilityExpectation) :
    Text.nonBlank (missingSignalId ids e) = true := ids.nonBlank _ _

theorem nonBlank_satisfiedId (ids : StableId) (e : ResponsibilityExpectation) :
    Text.nonBlank (satisfiedId ids e) = true := ids.nonBlank _ _

/-- The evidence among the references of a wakeup. -/
def evidence (observed : List String) : List String :=
  observed.filter (fun ref => Text.nonBlank ref)

/-- The resolution by the evidence of a wakeup. -/
def satisfied (ids : StableId) (e : ResponsibilityExpectation) (now clock : Time)
    (observed : List String) : ResponsibilityExpectationResolution :=
  { id := satisfiedId ids e, createdAt := clock, idNonblank := nonBlank_satisfiedId ids e,
    expectationRef := e.id, responsibilityRef := e.responsibilityRef, resolution := .satisfied,
    basisRefs := evidence observed, resolvedAt := now }

/-- The assessment of an overdue expectation, at its version. -/
def missing (ids : StableId) (e : ResponsibilityExpectation) (now clock : Time) :
    ResponsibilityAssessment :=
  { id := missingSignalId ids e, createdAt := clock, idNonblank := nonBlank_missingSignalId ids e,
    responsibilityRef := e.responsibilityRef,
    responsibilityVersion := e.responsibilityVersion, subjectRef := e.subjectRef,
    assessmentKind := "expected-signal-missing", basisRefs := [e.id],
    assessedAt := now,
    freshUntil := e.freshnessWindowSeconds.map (fun n => now + n * 1000000),
    rationale := s!"expected {e.expectedSignalKind} evidence is absent after due_at" }

/-- The object as an assessment that the signal of an expectation is missing. -/
def asMissingSignal (e : ResponsibilityExpectation) (v : ResponsibilityObject) :
    Option ResponsibilityAssessment :=
  v.asAssessment.filter
    (fun a => a.assessmentKind = "expected-signal-missing" ∧ a.basisRefs = [e.id])

/-- The missing-signal assessments of an expectation, oldest first. -/
def missingSignals (s : ResponsibilityStore) (e : ResponsibilityExpectation) :
    List ResponsibilityAssessment :=
  s.objects.values.filterMap (asMissingSignal e)

/-- A wakeup with these arguments has nothing to do. -/
def Quiet (ids : StableId) (s : ResponsibilityStore) (e : ResponsibilityExpectation) (now : Time)
    (observed : List String) : Prop :=
  s.isOpen e = false ∨
  ((∃ d, s.currentDefinition e.responsibilityRef = .ok d ∧ e.responsibilityVersion = d.version) ∧
    ∃ status, s.currentStatus e.responsibilityRef = .ok status ∧
      (status = .active → evidence observed = [] ∧
        (now < e.dueAt ∨ ∃ a, s.journalGet (missingSignalId ids e) = some (.assessment a))))

/-- The responsibility is at the version of the expectation and its status can be read; where
it is active now, it was active before. -/
def Resumable (before now : ResponsibilityStore) (e : ResponsibilityExpectation) : Prop :=
  (∃ d, now.currentDefinition e.responsibilityRef = .ok d ∧
    e.responsibilityVersion = d.version) ∧
  ∃ status, now.currentStatus e.responsibilityRef = .ok status ∧
    (status = .active → before.currentStatus e.responsibilityRef = .ok .active)

/-- What the kernel has checked of an object that a deciding call records. -/
def Decided (ids : StableId) (s : ResponsibilityStore) : ResponsibilityObject → Prop
  | .revision _ | .transition _ => True
  | .resolution v => ∃ e, s.journalGet v.expectationRef = some (.expectation e) ∧
    s.isOpen e = true
  | .assessment v => ∃ e now clock, s.journalGet e.id = some (.expectation e) ∧
    s.isOpen e = true ∧ s.ActiveAt e.responsibilityRef e.responsibilityVersion ∧
    v = missing ids e now clock
  | _ => False

/-! ## Resolutions -/

section Resolution

variable {s s' : ResponsibilityStore} {e : ResponsibilityExpectation}
  {v : ResponsibilityExpectationResolution}

theorem getExpectation_eq_ok {id : String} : s.getExpectation id = .ok e ↔
    s.journalGet id = some (.expectation e) :=
  get_eq_ok asExpectation_eq_some

theorem asResolution_eq_some {o : ResponsibilityObject} :
    o.asResolution = some v ↔ o = .resolution v := by
  cases o <;> simp [ResponsibilityObject.asResolution]

/-- An object as a resolution that is listed for an expectation. -/
def asResolutionOf (e : ResponsibilityExpectation) :
    ResponsibilityObject → Option ResponsibilityExpectationResolution :=
  listedAs (·.asResolution) "ResponsibilityExpectationResolution" (some e.responsibilityRef)
    (fun v => v.expectationRef = e.id)

theorem asResolutionOf_eq_some {o : ResponsibilityObject} :
    asResolutionOf e o = some v ↔ o = .resolution v ∧
      (ResponsibilityObject.resolution v).subjectRef = e.responsibilityRef ∧
      v.expectationRef = e.id := by
  unfold asResolutionOf listedAs
  split
  · next hlisted =>
    rw [Option.filter_eq_some_iff, asResolution_eq_some, decide_eq_true_eq]
    constructor
    · rintro ⟨rfl, hof⟩
      exact ⟨rfl, by simpa [eq_comm] using hlisted.1, hof⟩
    · rintro ⟨rfl, -, hof⟩
      exact ⟨rfl, hof⟩
  · next hlisted =>
    refine iff_of_false (by simp) ?_
    rintro ⟨rfl, hsubject, -⟩
    exact hlisted ⟨by simp [hsubject], rfl⟩

theorem resolutions_perm :
    (s.resolutions e).Perm (s.objects.values.filterMap (asResolutionOf e)) := by
  rw [resolutions, filter_listed]
  exact (List.perm_insertionSort createdBefore _).filterMap _

theorem mem_resolutions : v ∈ s.resolutions e ↔
    s.journalGet v.id = some (.resolution v) ∧
      (ResponsibilityObject.resolution v).subjectRef = e.responsibilityRef ∧
      v.expectationRef = e.id := by
  rw [resolutions_perm.mem_iff, List.mem_filterMap]
  constructor
  · rintro ⟨o, ho, hv⟩
    obtain ⟨rfl, hof⟩ := asResolutionOf_eq_some.mp hv
    exact ⟨journalGet_eq_some.mpr ho, hof⟩
  · intro h
    exact ⟨.resolution v, journalGet_eq_some.mp h.1, asResolutionOf_eq_some.mpr ⟨rfl, h.2⟩⟩

/-- An expectation with a listed resolution is not open. -/
theorem isOpen_eq_false (h : v ∈ s.resolutions e) : s.isOpen e = false := by
  rw [isOpen, List.isEmpty_eq_false_iff]
  exact List.ne_nil_of_mem h

theorem length_resolutions_record {o : ResponsibilityObject} (hfresh : s.journalGet o.id = none) :
    ((s.record o).resolutions e).length =
      (s.resolutions e).length + (asResolutionOf e o).toList.length := by
  rw [resolutions_perm.length_eq, resolutions_perm.length_eq, values_record hfresh,
    List.filterMap_append, List.length_append]
  cases h : asResolutionOf e o <;> simp [h]

/-- An object like a resolution is a resolution of the same expectation. -/
theorem eq_resolution_of_sameSemantics {existing : ResponsibilityObject}
    (h : existing.sameSemantics (.resolution v) = true) :
    ∃ v', existing = .resolution v' ∧ v'.expectationRef = v.expectationRef ∧
      v'.responsibilityRef = v.responsibilityRef := by
  cases existing with
  | resolution v' =>
    have hfields : (({ v' with createdAt := 0 } : ResponsibilityExpectationResolution) ==
        { v with createdAt := 0 }) = true := h
    simp only [BEq.beq, instBEqResponsibilityExpectationResolution.beq, Bool.and_eq_true,
      decide_eq_true_eq] at hfields
    exact ⟨v', rfl, hfields.2.1, hfields.2.2.1⟩
  | _ => exact absurd h Bool.false_ne_true

theorem subjectRef_resolution (hne : e.responsibilityRef ≠ "")
    (href : v.responsibilityRef = e.responsibilityRef) :
    (ResponsibilityObject.resolution v).subjectRef = e.responsibilityRef :=
  subjectRef_of_ref (congrArg some href) hne

theorem resolveExpectation_eq (he : s.journalGet v.expectationRef = some (.expectation e))
    (href : e.responsibilityRef = v.responsibilityRef) (hopen : s.isOpen e = true) :
    s.resolveExpectation v = s.saveAppendOnly (.resolution v) := by
  have hnone : s.resolutions e = [] := List.isEmpty_iff.mp hopen
  rw [resolveExpectation, getExpectation_eq_ok.mpr he]
  have hguard : guardValue (e.responsibilityRef = v.responsibilityRef)
      "expectation resolution responsibility mismatch" = .ok () :=
    guardValue_eq_ok.mpr (decide_eq_true href)
  show (guardValue (e.responsibilityRef = v.responsibilityRef)
      "expectation resolution responsibility mismatch" >>= fun _ => _) = _
  rw [hguard, hnone]
  rfl

/-- A resolution is recorded of an open expectation only. -/
theorem resolveExpectation_cases {w : ResponsibilityObject}
    (h : s.resolveExpectation v = .ok (w, s')) :
    s' = s ∨ (s.journalGet v.id = none ∧ s' = s.record (.resolution v) ∧
      ∃ e, s.journalGet v.expectationRef = some (.expectation e) ∧ s.isOpen e = true) := by
  obtain ⟨e, he, h⟩ := Result.bind_eq_ok.mp h
  have he := getExpectation_eq_ok.mp he
  obtain ⟨hof, h⟩ := Result.check_eq_ok.mp h
  have href : e.responsibilityRef = v.responsibilityRef :=
    of_decide_eq_true (guardValue_eq_ok.mp hof)
  split at h
  · next hnone =>
    rcases saveAppendOnly_cases h with rfl | ⟨hfresh, rfl⟩
    · exact .inl rfl
    · exact .inr ⟨hfresh, rfl, e, he, List.isEmpty_iff.mpr hnone⟩
  · split at h
    · rw [Result.pure_eq_ok, Prod.mk.injEq] at h
      exact .inl h.2.symm
    · exact absurd h (by simp [raiseValue])
  · exact absurd h (by simp [raiseValue])

end Resolution

/-! ## One wakeup -/

section Wakeup

variable {ids : StableId} {s s' : ResponsibilityStore} {id : String}
  {e : ResponsibilityExpectation} {now clock : Time} {observed : List String}

theorem ne_empty_of_currentDefinition {ref : String} {d : ResponsibilityDefinition}
    (h : s.currentDefinition ref = .ok d) : ref ≠ "" := by
  obtain ⟨identity, hidentity, -⟩ := Result.bind_eq_ok.mp h
  exact ne_empty_of_journalGet (getResponsibility_eq_ok.mp hidentity)

theorem expectationOpen_eq (he : s.journalGet id = some (.expectation e)) :
    s.expectationOpen id = .ok (s.isOpen e) := by
  rw [expectationOpen, getExpectation_eq_ok.mpr he]
  rfl

/-- What a wakeup that returns leaves behind. -/
inductive Woken (ids : StableId) (s : ResponsibilityStore) (e : ResponsibilityExpectation)
    (now clock : Time) (observed : List String) : ResponsibilityStore → Prop
  | nothing (h : Quiet ids s e now observed) : Woken ids s e now clock observed s
  | resolved (hopen : s.isOpen e = true)
      (hactive : s.ActiveAt e.responsibilityRef e.responsibilityVersion)
      (hfresh : s.journalGet (satisfiedId ids e) = none) :
      Woken ids s e now clock observed
        (s.record (.resolution (satisfied ids e now clock observed)))
  | assessed (hopen : s.isOpen e = true)
      (hactive : s.ActiveAt e.responsibilityRef e.responsibilityVersion)
      (hquiet : evidence observed = [])
      (hfresh : s.journalGet (missingSignalId ids e) = none) :
      Woken ids s e now clock observed (s.record (.assessment (missing ids e now clock)))

/-- A wakeup that returns has nothing to do, resolves the expectation or assesses it. -/
theorem woken_of_ok {answer : Option ResponsibilityObject}
    (he : s.journalGet id = some (.expectation e))
    (h : s.assessDueExpectation ids id now clock observed = .ok (answer, s')) :
    Woken ids s e now clock observed s' := by
  obtain rfl : e.id = id := id_of_journalGet he
  obtain ⟨e', he', h⟩ := Result.bind_eq_ok.mp h
  obtain rfl : e = e' := by
    have hsame := he.symm.trans (getExpectation_eq_ok.mp he')
    rwa [Option.some.injEq, ResponsibilityObject.expectation.injEq] at hsame
  obtain ⟨isOpen, hisOpen, h⟩ := Result.bind_eq_ok.mp h
  rw [expectationOpen_eq he, Except.ok.injEq] at hisOpen
  subst hisOpen
  split at h
  · next hresolved =>
    rw [Result.pure_eq_ok, Prod.mk.injEq] at h
    exact h.2 ▸ .nothing (.inl (by simpa using hresolved))
  next hopen =>
  have hopen : s.isOpen e = true := by simpa using hopen
  obtain ⟨d, hd, h⟩ := Result.bind_eq_ok.mp h
  obtain ⟨hversion, h⟩ := Result.check_eq_ok.mp h
  have hversion : e.responsibilityVersion = d.version :=
    of_decide_eq_true (guardValue_eq_ok.mp hversion)
  obtain ⟨status, hstatus, h⟩ := Result.bind_eq_ok.mp h
  split at h
  · next hinactive =>
    rw [Result.pure_eq_ok, Prod.mk.injEq] at h
    exact h.2 ▸ .nothing (.inr ⟨⟨d, hd, hversion⟩, status, hstatus,
      fun hactive => absurd hactive hinactive⟩)
  next hactive =>
  obtain rfl : status = .active := by simpa using hactive
  have hactive : s.ActiveAt e.responsibilityRef e.responsibilityVersion :=
    ⟨⟨d, hd, hversion.symm⟩, hstatus⟩
  dsimp only at h
  split at h
  · next hobserved =>
    obtain ⟨⟨w, s''⟩, hsave, h⟩ := Result.bind_eq_ok.mp h
    rw [Result.pure_eq_ok, Prod.mk.injEq] at h
    obtain ⟨-, rfl⟩ := h
    have hsave : s.saveAppendOnly (.resolution (satisfied ids e now clock observed)) =
        .ok (w, s'') := by
      rw [← resolveExpectation_eq (e := e) he rfl hopen]
      exact hsave
    cases hget : s.journalGet (satisfiedId ids e) with
    | none =>
      rw [saveAppendOnly_of_none (v := .resolution (satisfied ids e now clock observed)) hget,
        Except.ok.injEq, Prod.mk.injEq] at hsave
      exact hsave.2 ▸ .resolved hopen hactive hget
    | some existing =>
      -- What is like the resolution is listed for the expectation, which is open.
      have hsame := ((saveAppendOnly_of_some
        (v := .resolution (satisfied ids e now clock observed)) hget).mp hsave).1
      obtain ⟨v, rfl, hof, href⟩ := eq_resolution_of_sameSemantics hsame
      have hlisted : v ∈ s.resolutions e := by
        refine mem_resolutions.mpr ⟨?_, ?_, hof⟩
        · have hid : v.id = satisfiedId ids e := id_of_journalGet hget
          rw [hid, hget]
        · exact subjectRef_resolution (ne_empty_of_currentDefinition hd) href
      exact absurd (isOpen_eq_false hlisted) (by simp [hopen])
  next hquiet =>
  have hquiet : evidence observed = [] := by simpa [evidence] using hquiet
  split at h
  · next hearly =>
    rw [Result.pure_eq_ok, Prod.mk.injEq] at h
    exact h.2 ▸ .nothing (.inr ⟨⟨d, hd, hversion⟩, .active, hstatus, fun _ => ⟨hquiet, .inl hearly⟩⟩)
  split at h
  · next existing hexisting =>
    obtain ⟨hassessment, h⟩ := Result.check_eq_ok.mp h
    rw [Result.pure_eq_ok, Prod.mk.injEq] at h
    obtain ⟨a, ha⟩ := Option.isSome_iff_exists.mp (guardValue_eq_ok.mp hassessment)
    obtain rfl := ResponsibilityObject.asAssessment_eq_some.mp ha
    exact h.2 ▸ .nothing (.inr ⟨⟨d, hd, hversion⟩, .active, hstatus,
      fun _ => ⟨hquiet, .inr ⟨a, hexisting⟩⟩⟩)
  · next hnone =>
    obtain ⟨⟨w, s''⟩, hsave, h⟩ := Result.bind_eq_ok.mp h
    rw [Result.pure_eq_ok, Prod.mk.injEq] at h
    obtain ⟨-, rfl⟩ := h
    have hsave : s.saveAppendOnly (.assessment (missing ids e now clock)) = .ok (w, s'') := by
      rw [← hsave, missing, hversion]
      rfl
    rw [saveAppendOnly_of_none (v := .assessment (missing ids e now clock)) hnone,
      Except.ok.injEq, Prod.mk.injEq] at hsave
    exact hsave.2 ▸ .assessed hopen hactive hquiet hnone

/-- A wakeup that has nothing to do returns, and leaves the journal as it was. -/
theorem ok_of_quiet (he : s.journalGet id = some (.expectation e))
    (h : Quiet ids s e now observed) :
    ∃ answer, s.assessDueExpectation ids id now clock observed = .ok (answer, s) := by
  obtain rfl : e.id = id := id_of_journalGet he
  rw [assessDueExpectation, getExpectation_eq_ok.mpr he]
  simp only [bind, Except.bind, expectationOpen_eq he]
  rcases h with hresolved | ⟨⟨d, hd, hversion⟩, status, hstatus, hactive⟩
  · simp [hresolved, pure, Except.pure]
  by_cases hopen : s.isOpen e = false
  · simp [hopen, pure, Except.pure]
  simp only [hopen, hd, hstatus, guardValue, hversion]
  by_cases hstopped : status = .active
  · obtain ⟨hquiet, hdue⟩ := hactive hstopped
    have hquiet : observed.filter (fun ref => Text.nonBlank ref) = [] := hquiet
    by_cases hearly : now < e.dueAt
    · simp [hstopped, hquiet, hearly, pure, Except.pure]
    · obtain ⟨a, ha⟩ := hdue.resolve_left hearly
      rw [missingSignalId] at ha
      simp [hstopped, hquiet, hearly, ha, ResponsibilityObject.asAssessment, pure, Except.pure]
  · simp [hstopped, pure, Except.pure]

/-- What the recording of an inert object keeps of an active responsibility. -/
theorem activeAt_record {ref : String} {version : Int} {v : ResponsibilityObject}
    (h : s.ActiveAt ref version) (hinert : Inert v) (hfresh : s.journalGet v.id = none) :
    (s.record v).ActiveAt ref version := by
  obtain ⟨⟨d, hd, hversion⟩, hstatus⟩ := h
  have hsteady : s.Steady (s.record v) := hinert.steady hfresh
  exact ⟨⟨d, hsteady.definition hd, hversion⟩, hsteady.status hstatus⟩

/-- A wakeup leaves nothing for another one with the same arguments. -/
theorem Woken.quiet (h : Woken ids s e now clock observed s') : Quiet ids s' e now observed := by
  cases h with
  | nothing h => exact h
  | resolved hopen hactive hfresh =>
    obtain ⟨⟨d, hd, -⟩, -⟩ := hactive
    left
    apply isOpen_eq_false (v := satisfied ids e now clock observed)
    apply mem_resolutions.mpr
    refine ⟨?_, subjectRef_resolution (ne_empty_of_currentDefinition hd) rfl, rfl⟩
    exact (journalGet_record s _ _).trans (if_pos rfl)
  | assessed hopen hactive hquiet hfresh =>
    right
    have hafter : (s.record (.assessment (missing ids e now clock))).ActiveAt
        e.responsibilityRef e.responsibilityVersion :=
      activeAt_record hactive ⟨rfl, rfl⟩ hfresh
    obtain ⟨⟨d, hd, hversion⟩, hstatus⟩ := hafter
    refine ⟨⟨d, hd, hversion.symm⟩, .active, hstatus, fun _ => ⟨hquiet, .inr ?_⟩⟩
    exact ⟨missing ids e now clock, (journalGet_record s _ _).trans (if_pos rfl)⟩

/-- A wakeup keeps what can be read of a responsibility. -/
theorem Woken.steady (h : Woken ids s e now clock observed s') : s.Steady s' := by
  cases h with
  | nothing _ => exact .refl s
  | resolved _ _ hfresh => exact Inert.steady ⟨rfl, rfl⟩ hfresh
  | assessed _ _ _ hfresh => exact Inert.steady ⟨rfl, rfl⟩ hfresh

theorem Woken.extends (h : Woken ids s e now clock observed s') : s.Extends s' := by
  cases h with
  | nothing _ => exact .refl s
  | resolved _ _ hfresh => exact ⟨_, values_record hfresh⟩
  | assessed _ _ _ hfresh => exact ⟨_, values_record hfresh⟩

/-- A wakeup that had nothing to do has nothing to do later, unless its responsibility has been
revised or has become active since. -/
theorem Quiet.later {later : ResponsibilityStore} (h : Quiet ids s e now observed)
    (hextends : s.Extends later) (hlater : later.isOpen e = false ∨ Resumable s later e) :
    Quiet ids later e now observed := by
  rcases hlater with hresolved | ⟨hdefinition, status, hstatus, hbefore⟩
  · exact .inl hresolved
  rcases h with hresolved | ⟨-, status', hstatus', hactive⟩
  · left
    by_contra hopen
    have hstill := isOpen_of_extends hextends (by simpa using hopen)
    exact absurd hstill (by simp [hresolved])
  · right
    refine ⟨hdefinition, status, hstatus, fun hnow => ?_⟩
    have hsame : status' = .active := by
      have hread := hstatus'.symm.trans (hbefore hnow)
      exact Except.ok.inj hread
    obtain ⟨hquiet, hdue⟩ := hactive hsame
    refine ⟨hquiet, hdue.imp_right ?_⟩
    intro hstored
    obtain ⟨a, ha⟩ := hstored
    exact ⟨a, journalGet_extends hextends ha⟩

end Wakeup

/-! ## What happens in between -/

section Between

variable {ids : StableId} {s : ResponsibilityStore} {e : ResponsibilityExpectation}

theorem extends_calls (calls : List KernelCall) :
    s.Extends (run (KernelCall.step ids) s calls) :=
  run_preserves (I := s.Extends) (fun _ call hs => hs.trans (extends_step (.kernel call)))
    (Extends.refl s)

/-- A call that neither revises nor moves a responsibility keeps what is read of it. -/
theorem readings_step {ref : String} {call : KernelCall} (hrevision : call.revisionOf ref = none)
    (htransition : call.transitionOf ref = none) :
    (∀ d, s.currentDefinition ref = .ok d → (call.step ids s).currentDefinition ref = .ok d) ∧
    ∀ status, s.currentStatus ref = .ok status →
      (call.step ids s).currentStatus ref = .ok status := by
  cases hperform : call.perform ids s with
  | error error =>
    rw [(accepted?_of_error hperform).2]
    exact ⟨fun _ h => h, fun _ h => h⟩
  | ok s' =>
    rw [(accepted?_of_ok hperform).2]
    by_cases hmoves : ∃ t, call = .transition t
    · obtain ⟨t, rfl⟩ := hmoves
      have hne : ref ≠ t.responsibilityRef := by
        intro hsame
        simp [KernelCall.transitionOf, hsame] at htransition
      obtain ⟨hdefinition, hstatus⟩ := transition_keeps hperform
      exact ⟨hdefinition ref, fun status => hstatus ref status hne⟩
    by_cases hrevises : ∃ r, call = .revise r
    · obtain ⟨r, rfl⟩ := hrevises
      have hne : ref ≠ r.responsibilityRef := by
        intro hsame
        simp [KernelCall.revisionOf, hsame] at hrevision
      obtain ⟨-, hstatus, hdefinition⟩ := revise_keeps hperform
      exact ⟨fun d => hdefinition ref d hne, hstatus ref⟩
    · have hsteady : s.Steady s' := steady_of_perform hperform
        (fun t ht => hmoves ⟨t, ht⟩) (fun r hr => hrevises ⟨r, hr⟩)
      exact ⟨fun _ => hsteady.definition, fun _ => hsteady.status⟩

/-- Calls that neither revise nor move a responsibility keep what is read of it. -/
theorem readings_run {ref : String} {calls : List KernelCall}
    (hcalls : ∀ call ∈ calls, call.revisionOf ref = none ∧ call.transitionOf ref = none) :
    (∀ d, s.currentDefinition ref = .ok d →
      (run (KernelCall.step ids) s calls).currentDefinition ref = .ok d) ∧
    ∀ status, s.currentStatus ref = .ok status →
      (run (KernelCall.step ids) s calls).currentStatus ref = .ok status := by
  induction calls generalizing s with
  | nil => exact ⟨fun _ h => h, fun _ h => h⟩
  | cons call rest ih =>
    obtain ⟨hrevision, htransition⟩ := hcalls call List.mem_cons_self
    obtain ⟨hdefinition, hstatus⟩ := @readings_step ids s _ _ hrevision htransition
    obtain ⟨hdefinitions, hstatuses⟩ := ih (s := call.step ids s)
      (fun call' hcall' => hcalls call' (List.mem_cons_of_mem _ hcall'))
    exact ⟨fun d hd => hdefinitions d (hdefinition d hd),
      fun status hs => hstatuses status (hstatus status hs)⟩

/-- A wakeup is repeated with nothing to do after calls that leave its responsibility alone. -/
theorem Quiet.run {now : Time} {observed : List String} {calls : List KernelCall}
    (h : Quiet ids s e now observed)
    (hcalls : ∀ call ∈ calls, call.revisionOf e.responsibilityRef = none ∧
      call.transitionOf e.responsibilityRef = none) :
    Quiet ids (run (KernelCall.step ids) s calls) e now observed := by
  apply h.later (extends_calls calls)
  rcases h with hresolved | ⟨⟨d, hd, hversion⟩, status, hstatus, -⟩
  · left
    by_contra hopen
    have hstill := isOpen_of_extends (@extends_calls ids _ calls) (by simpa using hopen)
    exact absurd hstill (by simp [hresolved])
  · right
    obtain ⟨hdefinitions, hstatuses⟩ := @readings_run ids s _ _ hcalls
    refine ⟨⟨d, hdefinitions d hd, hversion⟩, status, hstatuses status hstatus, ?_⟩
    rintro rfl
    exact hstatus

end Between

/-! ## Calls that decide -/

section Decides

variable {ids : StableId} {s : ResponsibilityStore} {e : ResponsibilityExpectation}

/-- A deciding call leaves the journal as it was, or records what it has decided. -/
theorem decides_step {call : KernelCall} (h : call.decides = true) :
    call.step ids s = s ∨
    ∃ v, s.journalGet v.id = none ∧ Decided ids s v ∧ call.step ids s = s.record v := by
  cases hperform : call.perform ids s with
  | error error => exact .inl (accepted?_of_error hperform).2
  | ok s' =>
    rw [(accepted?_of_ok hperform).2]
    cases call with
    | revise r =>
      obtain ⟨⟨w, s''⟩, hw, rfl⟩ := Result.map_eq_ok.mp hperform
      obtain ⟨-, hfresh, rfl⟩ := revise_eq_ok hw
      exact .inr ⟨.revision r, hfresh, trivial, rfl⟩
    | transition t =>
      obtain ⟨⟨w, s''⟩, hw, rfl⟩ := Result.map_eq_ok.mp hperform
      rcases saveAppendOnly_cases (transition_eq_ok.mp hw).2 with rfl | ⟨hfresh, rfl⟩
      · exact .inl rfl
      · exact .inr ⟨.transition t, hfresh, trivial, rfl⟩
    | resolveExpectation v =>
      obtain ⟨⟨w, s''⟩, hw, rfl⟩ := Result.map_eq_ok.mp hperform
      rcases resolveExpectation_cases hw with rfl | ⟨hfresh, rfl, hopen⟩
      · exact .inl rfl
      · exact .inr ⟨.resolution v, hfresh, hopen, rfl⟩
    | assessDueExpectation id now clock observed =>
      obtain ⟨⟨w, s''⟩, hw, rfl⟩ := Result.map_eq_ok.mp hperform
      obtain ⟨e, he, -⟩ := Result.bind_eq_ok.mp hw
      have he := getExpectation_eq_ok.mp he
      have hid : e.id = id := id_of_journalGet he
      have hstored : s.journalGet e.id = some (.expectation e) := by rw [hid, he]
      cases woken_of_ok he hw with
      | nothing _ => exact .inl rfl
      | resolved hopen hactive hfresh =>
        exact .inr ⟨.resolution (satisfied ids e now clock observed), hfresh,
          ⟨e, hstored, hopen⟩, rfl⟩
      | assessed hopen hactive _ hfresh =>
        exact .inr ⟨.assessment (missing ids e now clock), hfresh,
          ⟨e, now, clock, hstored, hopen, hactive, rfl⟩, rfl⟩
    | _ => exact absurd h (by simp [KernelCall.decides])

theorem asMissingSignal_eq_some {v : ResponsibilityObject} {a : ResponsibilityAssessment} :
    asMissingSignal e v = some a ↔ v = .assessment a ∧
      a.assessmentKind = "expected-signal-missing" ∧ a.basisRefs = [e.id] := by
  rw [asMissingSignal, Option.filter_eq_some_iff, ResponsibilityObject.asAssessment_eq_some,
    decide_eq_true_eq]

theorem missingSignals_record {v : ResponsibilityObject} (hfresh : s.journalGet v.id = none) :
    (s.record v).missingSignals e = s.missingSignals e ++ (asMissingSignal e v).toList := by
  rw [missingSignals, values_record hfresh, List.filterMap_append]
  cases h : asMissingSignal e v <;> simp [missingSignals, h]

/-- A missing signal is assessed of an open expectation whose responsibility is active. -/
theorem decided_missing {v : ResponsibilityObject} {a : ResponsibilityAssessment}
    (h : Decided ids s v) (he : s.journalGet e.id = some (.expectation e))
    (ha : asMissingSignal e v = some a) :
    a.id = missingSignalId ids e ∧ s.isOpen e = true ∧
      s.ActiveAt e.responsibilityRef e.responsibilityVersion := by
  obtain ⟨rfl, -, hof⟩ := asMissingSignal_eq_some.mp ha
  obtain ⟨e', now, clock, he', hopen, hactive, rfl⟩ := h
  have hid : e'.id = e.id := List.head_eq_of_cons_eq hof
  have hsame : e' = e := by
    rw [hid, he, Option.some.injEq, ResponsibilityObject.expectation.injEq] at he'
    exact he'.symm
  subst hsame
  exact ⟨rfl, hopen, hactive⟩

/-- A call that assesses a missing signal finds the expectation open and its responsibility
active at its version. -/
theorem missingSignals_step {call : KernelCall} (h : call.decides = true)
    (he : s.journalGet e.id = some (.expectation e))
    (hnew : (call.step ids s).missingSignals e ≠ s.missingSignals e) :
    s.isOpen e = true ∧ s.ActiveAt e.responsibilityRef e.responsibilityVersion := by
  rcases @decides_step ids s _ h with hsame | ⟨v, hfresh, hdecided, hstep⟩
  · exact absurd (by rw [hsame]) hnew
  · rw [hstep, missingSignals_record hfresh] at hnew
    cases ha : asMissingSignal e v with
    | none => exact absurd (by simp [ha]) hnew
    | some a => exact (decided_missing hdecided he ha).2

/-- Deciding calls assess at most once that a signal is missing, under the id that is made for
it. -/
theorem missingSignals_run {calls : List KernelCall} (h : ∀ call ∈ calls, call.decides = true)
    (he : s.journalGet e.id = some (.expectation e)) :
    ∃ new, (run (KernelCall.step ids) s calls).missingSignals e = s.missingSignals e ++ new ∧
      new.length ≤ 1 ∧ ∀ a ∈ new, a.id = missingSignalId ids e ∧ s.journalGet a.id = none := by
  induction calls generalizing s with
  | nil => exact ⟨[], by simp, by simp, by simp⟩
  | cons call rest ih =>
    have hrest : ∀ call' ∈ rest, call'.decides = true :=
      fun call' hcall' => h call' (List.mem_cons_of_mem _ hcall')
    rw [run_cons]
    rcases @decides_step ids s _ (h call List.mem_cons_self) with
      hsame | ⟨v, hfresh, hdecided, hstep⟩
    · rw [hsame]
      exact ih hrest he
    rw [hstep]
    obtain ⟨new, hnew, hlength, hfrom⟩ := ih hrest (journalGet_record_of_some hfresh he)
    rw [missingSignals_record hfresh] at hnew
    cases ha : asMissingSignal e v with
    | none =>
      refine ⟨new, by simpa [ha] using hnew, hlength, fun a hmem => ⟨(hfrom a hmem).1, ?_⟩⟩
      by_contra hsome
      obtain ⟨o, ho⟩ := Option.ne_none_iff_exists'.mp hsome
      have hstill := journalGet_record_of_some hfresh ho
      exact absurd (hstill.symm.trans (hfrom a hmem).2) (by simp)
    | some a =>
      -- The id is taken from now on, so nothing later is recorded under it.
      obtain ⟨hid, -⟩ := decided_missing hdecided he ha
      obtain ⟨rfl, -⟩ := asMissingSignal_eq_some.mp ha
      have hnone : new = [] := by
        rw [List.eq_nil_iff_forall_not_mem]
        intro a' ha'
        obtain ⟨hid', hfresh'⟩ := hfrom a' ha'
        have htaken : (s.record (.assessment a)).journalGet a.id = some (.assessment a) :=
          (journalGet_record s _ _).trans (if_pos rfl)
        rw [hid', ← hid, htaken] at hfresh'
        exact absurd hfresh' (by simp)
      refine ⟨[a], by simpa [ha, hnone] using hnew, by simp, ?_⟩
      intro a' ha'
      obtain rfl := List.mem_singleton.mp ha'
      exact ⟨hid, hfresh⟩

/-- Deciding calls resolve an expectation at most once. -/
theorem length_resolutions_run {calls : List KernelCall}
    (h : ∀ call ∈ calls, call.decides = true)
    (he : s.journalGet e.id = some (.expectation e)) :
    ((run (KernelCall.step ids) s calls).resolutions e).length ≤
      max 1 (s.resolutions e).length := by
  induction calls generalizing s with
  | nil => exact le_max_right _ _
  | cons call rest ih =>
    have hrest : ∀ call' ∈ rest, call'.decides = true :=
      fun call' hcall' => h call' (List.mem_cons_of_mem _ hcall')
    rw [run_cons]
    rcases @decides_step ids s _ (h call List.mem_cons_self) with
      hsame | ⟨v, hfresh, hdecided, hstep⟩
    · rw [hsame]
      exact ih hrest he
    rw [hstep]
    have hbound := ih hrest (journalGet_record_of_some hfresh he)
    rw [length_resolutions_record hfresh] at hbound
    cases hv : asResolutionOf e v with
    | none =>
      rw [hv] at hbound
      simpa using hbound
    | some r =>
      obtain ⟨rfl, -, hof⟩ := asResolutionOf_eq_some.mp hv
      obtain ⟨e', he', hopen⟩ := hdecided
      have hsame : e' = e := by
        rw [hof, he, Option.some.injEq, ResponsibilityObject.expectation.injEq] at he'
        exact he'.symm
      subst hsame
      have hnone : (s.resolutions e').length = 0 := by
        rw [List.isEmpty_iff.mp hopen]
        rfl
      rw [hv] at hbound
      simp only [Option.toList_some, List.length_singleton] at hbound
      omega

end Decides

/-- Deciding calls assess at most once that the signal of an expectation is missing, only while
it is open and its responsibility active at its version, and resolve it at most once.  A wakeup
that returned is repeated with the same arguments and changes nothing, if the expectation is
resolved by then, or its responsibility is at its version, readable and not newly active, or no
revision and no transition of it was asked for in between. -/
theorem wakeups_replay_safe (ids : StableId) (s : ResponsibilityStore) (calls : List KernelCall)
    (hcalls : ∀ call ∈ calls, call.decides = true) {id : String} {e : ResponsibilityExpectation}
    (he : s.journalGet id = some (.expectation e)) :
    (∃ new, (run (KernelCall.step ids) s calls).missingSignals e = s.missingSignals e ++ new ∧
      new.length ≤ 1 ∧ ∀ a ∈ new, a.id = missingSignalId ids e ∧ s.journalGet a.id = none) ∧
    ((run (KernelCall.step ids) s calls).resolutions e).length ≤ max 1 (s.resolutions e).length ∧
    (∀ pre call, pre ++ [call] <+: calls →
      (run (KernelCall.step ids) s (pre ++ [call])).missingSignals e ≠
        (run (KernelCall.step ids) s pre).missingSignals e →
      (run (KernelCall.step ids) s pre).isOpen e = true ∧
        (run (KernelCall.step ids) s pre).ActiveAt e.responsibilityRef
          e.responsibilityVersion) ∧
    ∀ pre, pre <+: calls → ∀ now clock observed answer woken,
      (run (KernelCall.step ids) s pre).assessDueExpectation ids id now clock observed =
        .ok (answer, woken) →
      ∀ between clock',
        ((run (KernelCall.step ids) woken between).isOpen e = false ∨
          Resumable (run (KernelCall.step ids) s pre) (run (KernelCall.step ids) woken between) e ∨
          ∀ call ∈ between, call.revisionOf e.responsibilityRef = none ∧
            call.transitionOf e.responsibilityRef = none) →
        ∃ again, (run (KernelCall.step ids) woken between).assessDueExpectation ids id now clock'
          observed = .ok (again, run (KernelCall.step ids) woken between) := by
  have hid : e.id = id := id_of_journalGet he
  have hstored : s.journalGet e.id = some (.expectation e) := by rw [hid, he]
  refine ⟨missingSignals_run hcalls hstored, length_resolutions_run hcalls hstored, ?_, ?_⟩
  · intro pre call hpre hnew
    have hmem : call ∈ calls := hpre.subset (by simp)
    rw [run_append, run_cons, run_nil] at hnew
    apply missingSignals_step (hcalls call hmem) _ hnew
    exact journalGet_extends (extends_calls pre) hstored
  · intro pre hpre now clock observed answer woken hwoken between clock' hlater
    have hbefore := journalGet_extends (@extends_calls ids _ pre) he
    have hdone := woken_of_ok hbefore hwoken
    have hextends := @extends_calls ids woken between
    have hafter : (run (KernelCall.step ids) woken between).journalGet id =
        some (.expectation e) :=
      journalGet_extends (hdone.extends.trans hextends) hbefore
    apply ok_of_quiet hafter
    rcases hlater with hresolved | hresumable | hquiet
    · exact hdone.quiet.later hextends (.inl hresolved)
    · obtain ⟨hdefinition, status, hstatus, hactive⟩ := hresumable
      apply hdone.quiet.later hextends
      exact .inr ⟨hdefinition, status, hstatus, fun h => hdone.steady.status (hactive h)⟩
    · exact hdone.quiet.run hquiet

end ResponsibilityStore

namespace Listing

def expectation : ResponsibilityExpectation :=
  { id := "expectation", createdAt := 1, responsibilityRef := "sr_listing",
    responsibilityVersion := 1, subjectRef := "shopify:product:1",
    expectedSignalKind := "listing-audit", dueAt := 5 }

/-- The store after the registration and the creation of the expectation. -/
def expecting : ResponsibilityStore :=
  run (KernelCall.step ids) .empty [.register identity admission, .createExpectation expectation]

end Listing

namespace ResponsibilityStore

/-- An overdue expectation is assessed once, also where the clock has moved on. -/
theorem wakeups_replay_safe_listing :
    ∃ again, (Listing.expecting.record
        (.assessment (missing Listing.ids Listing.expectation 6 6))).assessDueExpectation
          Listing.ids "expectation" 6 9 [] =
      .ok (again, Listing.expecting.record
        (.assessment (missing Listing.ids Listing.expectation 6 6))) :=
  (@wakeups_replay_safe Listing.ids Listing.expecting [.assessDueExpectation "expectation" 6 6 []]
    (by decide) "expectation" Listing.expectation rfl).2.2.2 [] List.nil_prefix
    6 6 [] (some (.assessment (missing Listing.ids Listing.expectation 6 6)))
    (Listing.expecting.record (.assessment (missing Listing.ids Listing.expectation 6 6))) rfl
    [] 9 (.inr (.inr (by simp)))

/-- A wakeup before the due time returns, and raises once the responsibility is revised. -/
theorem repeated_wakeup_raises :
    ¬ ∀ (ids : StableId) (s : ResponsibilityStore) (calls : List KernelCall) (id : String)
        (now clock clock' : Time) (observed : List String) (answer : Option ResponsibilityObject)
        (woken : ResponsibilityStore), (∀ call ∈ calls, call.decides = true) →
      s.assessDueExpectation ids id now clock observed = .ok (answer, woken) →
      ∃ again, (run (KernelCall.step ids) woken calls).assessDueExpectation ids id now clock'
        observed = .ok (again, run (KernelCall.step ids) woken calls) := by
  intro h
  obtain ⟨again, hagain⟩ := h Listing.ids Listing.expecting [.revise Listing.revision]
    "expectation" 2 2 8 [] none Listing.expecting (by decide) rfl
  have hraises : ((run (KernelCall.step Listing.ids) Listing.expecting
      [.revise Listing.revision]).assessDueExpectation Listing.ids "expectation" 2 8 []).isOk =
        false := by
    decide
  rw [hagain] at hraises
  exact Bool.noConfusion hraises

end ResponsibilityStore
end PortableRuntime
