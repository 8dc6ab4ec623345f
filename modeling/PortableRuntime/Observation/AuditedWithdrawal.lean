import PortableRuntime.Library.Trail
import PortableRuntime.Observation.Certificates
import PortableRuntime.Stores.Keyed
import PortableRuntime.Stores.QualificationTransition
import PortableRuntime.Stores.RoundTrip

/-!
# Certificates of audited runs

The events of qualification transitions show the record before and after.  Those of one subject are a
trail from the record at the start of a run to the one at its end, so a certificate that is extracted
from the two ends is backed by an event that left the qualification.
-/

namespace PortableRuntime

structure RawWithdrawalTransitionV1 where
  subjectRef : String
  beforeRawSnapshot : Fields
  afterRawSnapshot : Fields
  eventRef : String

/-- The records before and after, as they are: nothing is read into them. -/
def buildRawWithdrawalTransition (before after : BaseRecord) (eventRef : String) :
    Result RawWithdrawalTransitionV1 := do
  guardValue (eventRef ≠ "") "event_ref must be non-empty"
  guardValue (before.id = after.id) "raw transition snapshots must refer to the same assertion id"
  return {
    subjectRef := before.id
    beforeRawSnapshot := before.dump
    afterRawSnapshot := after.dump
    eventRef }

namespace MemoryStore

def shownBefore (event : Event) : Json := event.payload.get "before"
def shownAfter (event : Event) : Json := event.payload.get "after"

/-- What an event shows of a subject. -/
def subjectView (subject : String) (st : MemoryStore) : Json :=
  (st.getRecord subject).elim .null qualificationTransitionSnapshot

/-- The version that a view shows. -/
def viewVersion : Json → Int
  | .obj shown =>
    match Fields.get shown "version" with
    | .int n => n
    | _ => 0
  | _ => 0

@[simp] theorem viewVersion_snapshot (r : BaseRecord) :
    viewVersion (qualificationTransitionSnapshot r) = r.version := rfl

variable {st st' : MemoryStore} {c : TransitionCall} {event : Event}

/-- What a call that returns shows, in full. -/
structure ShownTransition (st : MemoryStore) (c : TransitionCall) (event : Event)
    (before : BaseRecord) : Prop where
  found : st.getRecord c.after.id = some before
  isAssertion : before.cls = .assertion
  sameId : before.id = c.after.id
  subject : event.subjectRef = c.after.id
  showsBefore : shownBefore event = qualificationTransitionSnapshot before
  showsAfter : shownAfter event = qualificationTransitionSnapshot c.after
  changes : before.epistemicStatus ≠ c.after.epistemicStatus
  advances : c.after.version = before.version + 1

theorem shown_of_commitQualificationTransition
    (h : st.commitQualificationTransition c = .ok (event, st')) :
    ∃ before, ShownTransition st c event before := by
  obtain ⟨before, hbefore, h⟩ := Result.bind_eq_ok.mp h
  obtain ⟨-, h⟩ := Result.check_eq_ok.mp h
  obtain ⟨built, hbuilt, h⟩ := Result.bind_eq_ok.mp h
  obtain ⟨appended, -, h⟩ := Result.bind_eq_ok.mp h
  obtain ⟨saved, -, h⟩ := Result.bind_eq_ok.mp h
  obtain ⟨rfl, rfl⟩ := Prod.mk.inj (Except.ok.inj h)
  rw [orRaise_eq_ok, Option.filter_eq_some_iff, decide_eq_true_eq] at hbefore
  obtain ⟨hid, hbuilt⟩ := Result.check_eq_ok.mp hbuilt
  obtain ⟨-, hbuilt⟩ := Result.check_eq_ok.mp hbuilt
  obtain ⟨-, hbuilt⟩ := Result.check_eq_ok.mp hbuilt
  obtain ⟨-, hbuilt⟩ := Result.check_eq_ok.mp hbuilt
  obtain ⟨-, hbuilt⟩ := Result.check_eq_ok.mp hbuilt
  obtain ⟨hchanges, hbuilt⟩ := Result.check_eq_ok.mp hbuilt
  obtain ⟨hversion, hbuilt⟩ := Result.check_eq_ok.mp hbuilt
  obtain ⟨refs, -, hbuilt⟩ := Result.bind_eq_ok.mp hbuilt
  rw [guardValue_eq_ok, decide_eq_true_eq] at hid hchanges hversion
  obtain rfl := Except.ok.inj hbuilt
  exact ⟨before, hbefore.1, hbefore.2, hid, rfl, rfl, rfl, hchanges, hversion⟩

/-- What an event shows of a raw snapshot. -/
def rawView (raw : Fields) : Json :=
  .obj (["id", "record_type", "lifecycle_status", "epistemic_status", "version"].map
    (fun name => (name, Fields.get raw name)))

/-- Raw records that show what an event shows, under the event's subject and identity. -/
def ShowsRaw (event : Event) : Prop :=
  ∃ before after raw, buildRawWithdrawalTransition before after event.id = .ok raw ∧
    raw.subjectRef = event.subjectRef ∧ shownBefore event = rawView raw.beforeRawSnapshot ∧
    shownAfter event = rawView raw.afterRawSnapshot

theorem showsRaw_of_shown {before : BaseRecord} (h : ShownTransition st c event before)
    (hevent : event.id ≠ "") : ShowsRaw event := by
  refine ⟨before, c.after, _, Result.check_eq_ok.mpr ⟨guardValue_eq_ok.mpr (decide_eq_true hevent),
    Result.check_eq_ok.mpr ⟨guardValue_eq_ok.mpr (decide_eq_true h.sameId), rfl⟩⟩,
    h.sameId.trans h.subject.symm, ?_, ?_⟩
  · rw [h.showsBefore]
    rfl
  · rw [h.showsAfter]
    rfl

/-- A call returns an event, which shows what it did, or has no effect. -/
theorem shown_cases (st : MemoryStore) (c : TransitionCall) :
    (st.transitionEvent c = none ∧ st.transitionStep c = st) ∨
      ∃ event before, st.transitionEvent c = some event ∧ ShownTransition st c event before ∧
        TransitionCommitted st c event before (st.transitionStep c) := by
  rw [transitionEvent, transitionStep]
  cases hcommit : st.commitQualificationTransition c with
  | error e => exact .inl ⟨rfl, rfl⟩
  | ok result =>
    obtain ⟨event, st'⟩ := result
    obtain ⟨before, hcommitted⟩ := commitQualificationTransition_eq_ok hcommit
    obtain ⟨before', hshown⟩ := shown_of_commitQualificationTransition hcommit
    obtain rfl := Option.some.inj (hcommitted.found.symm.trans hshown.found)
    exact .inr ⟨event, before, rfl, hshown, hcommitted⟩

theorem transitionEvents_eq_emitted (st : MemoryStore) (calls : List TransitionCall) :
    st.transitionEvents calls = emitted transitionStep transitionEvent st calls := by
  induction calls generalizing st with
  | nil => rfl
  | cons c rest ih => rw [transitionEvents, emitted, ih]

/-- The events of a run that are about a subject. -/
def auditTrail (st : MemoryStore) (calls : List TransitionCall) (subject : String) : List Event :=
  (st.transitionEvents calls).filter (fun event => event.subjectRef = subject)

/-- The events about a subject lead from its record at the start to the one at the end. -/
theorem trail_auditTrail (st : MemoryStore) (calls : List TransitionCall) (subject : String) :
    Trail shownBefore shownAfter (subjectView subject st) (st.auditTrail calls subject)
      (subjectView subject (st.transitionRun calls)) := by
  rw [auditTrail, transitionEvents_eq_emitted, filter_emitted]
  refine trail_emitted (fun st c => ?_) st calls
  cases shown_cases st c with
  | inl hnone =>
    rw [hnone.1, hnone.2]
    exact .inl ⟨rfl, rfl⟩
  | inr hsome =>
    obtain ⟨event, before, hevent, hshown, hcommitted⟩ := hsome
    have hrecord := hcommitted.getRecord subject
    rw [hevent]
    by_cases hsubject : subject = c.after.id
    · right
      rw [if_pos hsubject] at hrecord
      refine ⟨event, ?_, ?_, ?_⟩
      · rw [Option.filter_some, if_pos (by simpa using hshown.subject.trans hsubject.symm)]
      · rw [hshown.showsBefore, subjectView, hsubject, hshown.found]
        rfl
      · rw [hshown.showsAfter, subjectView, hrecord]
        rfl
    · left
      rw [if_neg hsubject] at hrecord
      refine ⟨?_, by rw [subjectView, subjectView, hrecord]⟩
      rw [Option.filter_some, if_neg]
      intro h
      exact hsubject ((of_decide_eq_true h).symm.trans hshown.subject)

/-- What a run has stored for an event stays. -/
def StoredAs (st : MemoryStore) (event : Event) : Prop :=
  ∃ stored, st.getEvent event.id = some stored ∧ sameEvent stored event = true

theorem getEvent_transitionStep {id : String} (h : st.getEvent id = some event) :
    (st.transitionStep c).getEvent id = some event := by
  cases transition_cases st c with
  | inl hnone => rwa [hnone.2]
  | inr hsome =>
    obtain ⟨committed, before, -, hcommitted⟩ := hsome
    obtain ⟨appended, happended, hst'⟩ := hcommitted.appended
    rw [hst', getEvent, save, get_put_of_ne appended (show Kind.event ≠ .record by decide)]
    cases appendEventAs_eq_ok happended with
    | inl hsame =>
      obtain ⟨existing, -, -, rfl⟩ := hsame
      exact h
    | inr hnew =>
      obtain ⟨hfresh, rfl⟩ := hnew
      have hne : id ≠ committed.id := by
        intro hid
        rw [hid, hfresh] at h
        cases h
      rw [save, get_put_self, if_neg (show id ≠ Kind.event.identifier committed from hne)]
      exact h

theorem storedAs_of_mem {calls : List TransitionCall} (h : event ∈ st.transitionEvents calls) :
    StoredAs (st.transitionRun calls) event := by
  induction calls generalizing st with
  | nil => cases h
  | cons c rest ih =>
    rw [transitionEvents, List.mem_append] at h
    cases h with
    | inr hlater => exact ih hlater
    | inl hnow =>
      rw [Option.mem_toList] at hnow
      cases transition_cases st c with
      | inl hnone =>
        rw [hnone.1] at hnow
        cases hnow
      | inr hsome =>
        obtain ⟨committed, before, hevent, hcommitted⟩ := hsome
        rw [hevent] at hnow
        obtain rfl := Option.some.inj hnow
        obtain ⟨stored, hstored, hsame, -⟩ := hcommitted.stored
        refine ⟨stored, ?_, hsame⟩
        exact @run_preserves _ _ transitionStep
          (fun st => st.getEvent committed.id = some stored)
          (fun st c h => getEvent_transitionStep h) (st.transitionStep c) rest hstored

/-! ## Certificates -/

/-- A bundle with the records of a store, as the store lists them. -/
def observing (st : MemoryStore) (bundle : RuntimeObservationBundle0) :
    RuntimeObservationBundle0 :=
  { bundle with records := st.list .record (fun _ => true) }

theorem mem_list_record {r : BaseRecord} :
    r ∈ st.list .record (fun _ => true) ↔ ∃ id, st.getRecord id = some r := by
  rw [list, List.filter_eq_self.mpr (fun _ _ => rfl), List.mem_insertionSort, Dict.mem_values]
  rfl

theorem qualification_observing (h : st.Keyed) (bundle : RuntimeObservationBundle0)
    (subject : String) :
    Certificate.qualification (st.observing bundle) subject =
      (st.getRecord subject).bind Certificate.status := by
  have hrecord : ∀ r ∈ st.list .record (fun _ => true), r.id = subject →
      st.getRecord subject = some r := by
    intro r hr hid
    obtain ⟨id, hget⟩ := mem_list_record.mp hr
    rwa [← hid, show r.id = id from h .record id r hget]
  cases hget : st.getRecord subject with
  | none =>
    refine List.findSome?_eq_none_iff.mpr (fun r hr => if_neg (fun hid => ?_))
    rw [hrecord r hr hid] at hget
    cases hget
  | some r =>
    have hid : r.id = subject := h .record subject r hget
    have hsame : ∀ r' ∈ st.list .record (fun _ => true), r'.id = subject → r' = r := by
      intro r' hr' hid'
      exact Option.some.inj ((hrecord r' hr' hid').symm.trans hget)
    rw [Option.bind_some]
    cases hstatus : Certificate.status r with
    | none =>
      refine List.findSome?_eq_none_iff.mpr (fun r' hr' => ?_)
      by_cases hid' : r'.id = subject
      · rw [if_pos hid', hsame r' hr' hid', hstatus]
      · exact if_neg hid'
    | some value =>
      have hmem : r ∈ st.list .record (fun _ => true) := mem_list_record.mpr ⟨subject, hget⟩
      have hisSome : (Certificate.qualification (st.observing bundle) subject).isSome = true := by
        rw [Certificate.qualification, List.findSome?_isSome_iff]
        exact ⟨r, hmem, by rw [if_pos hid, hstatus]; rfl⟩
      obtain ⟨found, hfound⟩ := Option.isSome_iff_exists.mp hisSome
      obtain ⟨r', hr', hvalue⟩ := List.exists_of_findSome?_eq_some hfound
      by_cases hid' : r'.id = subject
      · rw [if_pos hid', hsame r' hr' hid', hstatus] at hvalue
        rw [hfound, hvalue]
      · rw [if_neg hid'] at hvalue
        cases hvalue

/-- An assertion that a run takes from its qualification, with the trail of the events that show
how. -/
structure Withdrawn (st : MemoryStore) (calls : List TransitionCall) (subject : String)
    (first last : BaseRecord) : Prop where
  atStart : st.getRecord subject = some first
  atEnd : (st.transitionRun calls).getRecord subject = some last
  qualified : first.cls = .assertion ∧ first.epistemicStatus = some .supported
  withdrawn : last.cls = .assertion ∧
    (last.epistemicStatus = some .revalidationRequired ∨ last.epistemicStatus = some .refuted)
  advanced : last.version = first.version + (st.auditTrail calls subject).length
  audited : st.auditTrail calls subject ≠ []
  trail : Trail shownBefore shownAfter (qualificationTransitionSnapshot first)
    (st.auditTrail calls subject) (qualificationTransitionSnapshot last)
  raw : ∀ event ∈ st.auditTrail calls subject, event.id ≠ "" → ShowsRaw event
  stored : ∀ event ∈ st.auditTrail calls subject, StoredAs (st.transitionRun calls) event

theorem status_eq_qualified {r : BaseRecord} : Certificate.status r = some "qualified" ↔
    r.cls = .assertion ∧ r.epistemicStatus = some .supported := by
  rw [Certificate.status]
  by_cases hcls : r.cls = .assertion
  · rw [if_pos hcls]
    cases hstatus : r.epistemicStatus with
    | none => simp
    | some current => cases current <;> simp [runtimeAssertionBridgeValue, hcls]
  · simp [hcls]

theorem status_eq_withdrawn {r : BaseRecord} : Certificate.status r = some "withdrawn" ↔
    r.cls = .assertion ∧
      (r.epistemicStatus = some .revalidationRequired ∨ r.epistemicStatus = some .refuted) := by
  rw [Certificate.status]
  by_cases hcls : r.cls = .assertion
  · rw [if_pos hcls]
    cases hstatus : r.epistemicStatus with
    | none => simp
    | some current => cases current <;> simp [runtimeAssertionBridgeValue, hcls]
  · simp [hcls]

/-- Each event of a run shows what one of its calls has done. -/
theorem exists_shown_of_mem {calls : List TransitionCall} (h : event ∈ st.transitionEvents calls) :
    ∃ st₀ c before, ShownTransition st₀ c event before := by
  induction calls generalizing st with
  | nil => cases h
  | cons c rest ih =>
    rw [transitionEvents, List.mem_append] at h
    cases h with
    | inr hlater => exact ih hlater
    | inl hnow =>
      rw [Option.mem_toList] at hnow
      cases shown_cases st c with
      | inl hnone =>
        rw [hnone.1] at hnow
        cases hnow
      | inr hsome =>
        obtain ⟨committed, before, hevent, hshown, -⟩ := hsome
        rw [hevent] at hnow
        obtain rfl := Option.some.inj hnow
        exact ⟨st, c, before, hshown⟩

theorem viewVersion_of_shown {before : BaseRecord} (h : ShownTransition st c event before) :
    viewVersion (shownAfter event) = viewVersion (shownBefore event) + 1 := by
  rw [h.showsAfter, h.showsBefore, viewVersion_snapshot, viewVersion_snapshot]
  exact h.advances

theorem withdrawn_of_ends {calls : List TransitionCall} {subject : String}
    {first last : BaseRecord} (hstart : st.getRecord subject = some first)
    (hend : (st.transitionRun calls).getRecord subject = some last)
    (hqualified : Certificate.status first = some "qualified")
    (hwithdrawn : Certificate.status last = some "withdrawn") :
    Withdrawn st calls subject first last := by
  have htrail := trail_auditTrail st calls subject
  rw [subjectView, subjectView, hstart, hend] at htrail
  change Trail shownBefore shownAfter (qualificationTransitionSnapshot first) _
    (qualificationTransitionSnapshot last) at htrail
  have hmem : ∀ event ∈ st.auditTrail calls subject, event ∈ st.transitionEvents calls :=
    fun event hevent => (List.mem_filter.mp hevent).1
  have hshown : ∀ event ∈ st.auditTrail calls subject, ∃ st₀ c before,
      ShownTransition st₀ c event before :=
    fun event hevent => exists_shown_of_mem (hmem event hevent)
  have hqualified := status_eq_qualified.mp hqualified
  have hwithdrawn := status_eq_withdrawn.mp hwithdrawn
  have hne : st.auditTrail calls subject ≠ [] := by
    apply htrail.ne_nil
    intro hsame
    have hstatus : Json.ofOption (first.epistemicStatus.map EpistemicStatus.text) =
        Json.ofOption (last.epistemicStatus.map EpistemicStatus.text) := by
      simp only [qualificationTransitionSnapshot, Json.obj.injEq, List.cons.injEq, Prod.mk.injEq,
        true_and] at hsame
      exact hsame.2.2.2.1
    rw [hqualified.2] at hstatus
    cases hwithdrawn.2 with
    | inl hlast =>
      rw [hlast] at hstatus
      simp [Json.ofOption, EpistemicStatus.text] at hstatus
    | inr hlast =>
      rw [hlast] at hstatus
      simp [Json.ofOption, EpistemicStatus.text] at hstatus
  refine ⟨hstart, hend, hqualified, hwithdrawn, ?_, hne, htrail, ?_, ?_⟩
  · have hmeasure := htrail.measure_eq (m := viewVersion) (fun event hevent => by
      obtain ⟨st₀, c, before, hevent⟩ := hshown event hevent
      exact viewVersion_of_shown hevent)
    rwa [viewVersion_snapshot, viewVersion_snapshot] at hmeasure
  · intro event hevent hid
    obtain ⟨st₀, c, before, hevent⟩ := hshown event hevent
    exact showsRaw_of_shown hevent hid
  · intro event hevent
    exact storedAs_of_mem (hmem event hevent)

theorem Keyed.transitionStep (h : st.Keyed) (c : TransitionCall) : (st.transitionStep c).Keyed := by
  cases transition_cases st c with
  | inl hnone => rwa [hnone.2]
  | inr hsome =>
    obtain ⟨event, before, -, hcommitted⟩ := hsome
    obtain ⟨appended, happended, hst'⟩ := hcommitted.appended
    rw [hst']
    exact (h.appendEventAs happended).save .record c.after

/-- Of the records at the two ends of any run of qualification transitions, a certificate is issued
exactly when the run takes the subject's assertion from its qualification; and then the events that
the run has stored for the subject lead from the one to the other, one for each version. -/
theorem certificate_iff_withdrawn (st : MemoryStore) (hkeyed : st.Keyed)
    (calls : List TransitionCall) (before after : RuntimeObservationBundle0) (subject : String) :
    (∃ certificate, buildQualificationWithdrawalCertificate (alphaR0 (st.observing before))
        (alphaR0 ((st.transitionRun calls).observing after)) subject = .ok certificate) ↔
      before.observedAt ≤ after.observedAt ∧
        ∃ first last, Withdrawn st calls subject first last := by
  have hkeyed' : (st.transitionRun calls).Keyed :=
    @run_preserves _ _ transitionStep Keyed (fun st c h => h.transitionStep c) st calls hkeyed
  simp only [certificate_issued_iff, qualification_observing hkeyed,
    qualification_observing hkeyed', Option.bind_eq_some_iff]
  constructor
  · rintro ⟨certificate, hle, ⟨first, hstart, hqualified⟩, ⟨last, hend, hwithdrawn⟩, -⟩
    exact ⟨hle, first, last, withdrawn_of_ends hstart hend hqualified hwithdrawn⟩
  · rintro ⟨hle, first, last, h⟩
    exact ⟨_, hle, ⟨first, h.atStart, status_eq_qualified.mpr h.qualified⟩,
      ⟨last, h.atEnd, status_eq_withdrawn.mpr h.withdrawn⟩, rfl⟩

def supportedClaim : BaseRecord :=
  { cls := .assertion, id := "claim_1", recordType := .assertion, createdAt := 0,
    lifecycleStatus := .current, epistemicStatus := some .supported,
    fields := [("kind", .str "claim"), ("statement", .str "the repair is safe")] }

def claimRetraction : TransitionCall where
  now := 1
  after := { supportedClaim with
    epistemicStatus := some .revalidationRequired, version := 2,
    metadata := [("authorization_use_ref", .str "use_1")], orthogonal := by decide }
  expectedVersion := 1
  reasonRefs := ["impact_1"]
  createdAt := 1
  freshEvent := "event_1"

theorem certificate_iff_withdrawn_claim :
    (∃ certificate, buildQualificationWithdrawalCertificate
        (alphaR0 ((empty.save .record supportedClaim).observing { observedAt := 0 }))
        (alphaR0 (((empty.save .record supportedClaim).transitionRun [claimRetraction]).observing
          { observedAt := 1 })) "claim_1" = .ok certificate) ↔
      (0 : Time) ≤ 1 ∧
        ∃ first last,
          Withdrawn (empty.save .record supportedClaim) [claimRetraction] "claim_1" first last :=
  certificate_iff_withdrawn _ (keyed_empty.save .record supportedClaim) [claimRetraction]
    { observedAt := 0 } { observedAt := 1 } "claim_1"

end MemoryStore
end PortableRuntime
