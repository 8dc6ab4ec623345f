import PortableRuntime.Core.Boundary
import PortableRuntime.Library.FirstWins
import PortableRuntime.Stores.Journal

/-!
# Audited qualification changes

An Assertion changes its epistemic status together with an event that shows it before and
after.  The event is appended first, and the transaction takes it back where the write of
the Assertion is refused.
-/

namespace PortableRuntime

/-- `list(dict.fromkeys(...))` of the references that are not blank. -/
def normalizeReasonRefs (reasonRefs : List String) : Result (List String) := do
  let refs := keepFirst id [] ((reasonRefs.map Text.strip).filter (· ≠ ""))
  guardValue (!refs.isEmpty) "qualification transition requires at least one reason_ref"
  return refs

/-- The fields that a transition may change, and those it may change in the metadata. -/
def transitionFields : List String := ["metadata", "created_at", "epistemic_status", "version"]

def transitionMetadata : List String := ["authorization_use_ref", "revision_ref"]

/-- One call, with the time and the identifier that its event gets. -/
structure TransitionCall where
  now : Time
  after : BaseRecord
  expectedVersion : Int
  reasonRefs : List String
  eventId : Option String := none
  createdAt : Time
  freshEvent : String

def buildQualificationTransitionEvent (before : BaseRecord) (c : TransitionCall) :
    Result Event := do
  let after := c.after
  guardValue (before.id = after.id) "qualification transition must preserve Assertion identity"
  guardValue (before.recordType = .assertion && after.recordType = .assertion)
    "qualification transition only applies to Assertion records"
  guardValue ((before.dump.without transitionFields).pyEq (after.dump.without transitionFields))
    "qualification transition cannot bundle other semantic changes"
  guardValue ((before.metadata.changedKeys after.metadata).all transitionMetadata.contains)
    "qualification transition may only change authority metadata"
  guardValue (before.lifecycleStatus = after.lifecycleStatus)
    "qualification transition cannot bundle a lifecycle transition"
  guardValue (before.epistemicStatus ≠ after.epistemicStatus)
    "qualification transition requires an epistemic_status change"
  guardValue (after.version = before.version + 1)
    "qualification transition must advance version by exactly one"
  let refs ← normalizeReasonRefs c.reasonRefs
  return {
    id := (given c.eventId).getD c.freshEvent
    createdAt := c.createdAt
    type := qualificationTransitionEventType
    subjectRef := after.id
    payload :=
      [("schema_version", .str qualificationTransitionSchema),
       ("before", qualificationTransitionSnapshot before),
       ("after", qualificationTransitionSnapshot after),
       ("reason_refs", .ofStrings refs)] }

namespace MemoryStore

/-- Atomically append transition evidence and persist the authorized update: an exception
undoes both. -/
def commitQualificationTransition (st : MemoryStore) (c : TransitionCall) :
    Result (Event × MemoryStore) := do
  let before ← orRaise ((st.getRecord c.after.id).filter (fun r => r.cls = .assertion))
    s!"qualification transition subject {Text.pyRepr c.after.id} is not an Assertion"
  guardValue (before.version = c.expectedVersion)
    (s!"qualification transition expected version {c.expectedVersion}, current is " ++
      s!"{before.version}")
  let event ← buildQualificationTransitionEvent before c
  let appended ← st.appendEvent event
  let saved ← appended.saveRecord c.now c.after
  return (event, saved)

/-- The store after a call. -/
def transitionStep (st : MemoryStore) (c : TransitionCall) : MemoryStore :=
  match st.commitQualificationTransition c with
  | .ok (_, st') => st'
  | .error _ => st

/-- The event that a call returns. -/
def transitionEvent (st : MemoryStore) (c : TransitionCall) : Option Event :=
  (st.commitQualificationTransition c).toOption.map Prod.fst

/-! ## What is audited -/

/-- The version that the event shows before the transition. -/
def beforeVersion (event : Event) : Option Int :=
  match event.payload.get "before" with
  | .obj shown => match Fields.get shown "version" with
    | .int n => some n
    | _ => none
  | _ => none

/-- A call either leaves the store alone, or stores its event and the updated Assertion,
which the stored event shows. -/
def Audited (st : MemoryStore) (c : TransitionCall) : Prop :=
  (st.transitionEvent c = none ∧ st.transitionStep c = st) ∨
  ∃ event stored, st.transitionEvent c = some event ∧
    (st.transitionStep c).getEvent event.id = some stored ∧ sameEvent stored event = true ∧
    (st.transitionStep c).getRecord c.after.id = some c.after ∧
    (stored.payload.get "after").pyEq (qualificationTransitionSnapshot c.after) = true

/-- The store after a sequence of calls. -/
def transitionRun (st : MemoryStore) (calls : List TransitionCall) : MemoryStore :=
  calls.foldl transitionStep st

/-- The events that a sequence of calls returns. -/
def transitionEvents (st : MemoryStore) : List TransitionCall → List Event
  | [] => []
  | c :: rest => (st.transitionEvent c).toList ++ transitionEvents (st.transitionStep c) rest

/-! ## One call -/

section Call

variable {st st' : MemoryStore} {c : TransitionCall} {event : Event} {before : BaseRecord}

/-- The events of a transition of one Assertion between two versions. -/
structure Shows (event : Event) (before after : BaseRecord) : Prop where
  subject : event.subjectRef = after.id
  shownBefore : beforeVersion event = some before.version
  shownAfter : event.payload.get "after" = qualificationTransitionSnapshot after
  advances : after.version = before.version + 1

theorem buildQualificationTransitionEvent_eq_ok
    (h : buildQualificationTransitionEvent before c = .ok event) : Shows event before c.after := by
  obtain ⟨-, h⟩ := Result.check_eq_ok.mp h
  obtain ⟨-, h⟩ := Result.check_eq_ok.mp h
  obtain ⟨-, h⟩ := Result.check_eq_ok.mp h
  obtain ⟨-, h⟩ := Result.check_eq_ok.mp h
  obtain ⟨-, h⟩ := Result.check_eq_ok.mp h
  obtain ⟨-, h⟩ := Result.check_eq_ok.mp h
  obtain ⟨hversion, h⟩ := Result.check_eq_ok.mp h
  obtain ⟨refs, -, h⟩ := Result.bind_eq_ok.mp h
  rw [guardValue_eq_ok, decide_eq_true_eq] at hversion
  obtain rfl := Except.ok.inj h
  exact ⟨rfl, rfl, rfl, hversion⟩

/-- What a call that returns has done. -/
structure TransitionCommitted (st : MemoryStore) (c : TransitionCall) (event : Event) (before : BaseRecord)
    (st' : MemoryStore) : Prop where
  found : st.getRecord c.after.id = some before
  shows : Shows event before c.after
  appended : ∃ appended, st.appendEvent event = .ok appended ∧ st' = appended.save .record c.after

theorem commitQualificationTransition_eq_ok
    (h : st.commitQualificationTransition c = .ok (event, st')) :
    ∃ before, TransitionCommitted st c event before st' := by
  obtain ⟨before, hbefore, h⟩ := Result.bind_eq_ok.mp h
  obtain ⟨-, h⟩ := Result.check_eq_ok.mp h
  obtain ⟨built, hbuilt, h⟩ := Result.bind_eq_ok.mp h
  obtain ⟨appended, happended, h⟩ := Result.bind_eq_ok.mp h
  obtain ⟨saved, hsaved, h⟩ := Result.bind_eq_ok.mp h
  obtain ⟨rfl, rfl⟩ := Prod.mk.inj (Except.ok.inj h)
  rw [orRaise_eq_ok, Option.filter_eq_some_iff] at hbefore
  exact ⟨before, hbefore.1, buildQualificationTransitionEvent_eq_ok hbuilt, appended, happended,
    (saveRecord_eq_ok.mp hsaved).2.2.symm⟩

/-- A call returns an event and has committed it, or has no effect. -/
theorem transition_cases (st : MemoryStore) (c : TransitionCall) :
    (st.transitionEvent c = none ∧ st.transitionStep c = st) ∨
      ∃ event before, st.transitionEvent c = some event ∧
        TransitionCommitted st c event before (st.transitionStep c) := by
  rw [transitionEvent, transitionStep]
  cases hcommit : st.commitQualificationTransition c with
  | error e => exact .inl ⟨rfl, rfl⟩
  | ok result =>
    obtain ⟨event, st'⟩ := result
    obtain ⟨before, h⟩ := commitQualificationTransition_eq_ok hcommit
    exact .inr ⟨event, before, rfl, h⟩

theorem exists_stored_of_appendEvent {appended : MemoryStore}
    (h : st.appendEvent event = .ok appended) :
    ∃ stored, appended.getEvent event.id = some stored ∧ sameEvent stored event = true := by
  cases appendEventAs_eq_ok h with
  | inl hsame =>
    obtain ⟨existing, hget, hsame, rfl⟩ := hsame
    exact ⟨existing, hget, hsame⟩
  | inr hnew =>
    refine ⟨event, ?_, sameEvent_refl event⟩
    rw [hnew.2, getEvent, save, get_put_self]
    exact if_pos rfl

theorem getRecord_of_appendEvent {appended : MemoryStore}
    (h : st.appendEvent event = .ok appended) (id : String) :
    appended.getRecord id = st.getRecord id := by
  cases appendEventAs_eq_ok h with
  | inl hsame =>
    obtain ⟨existing, -, -, rfl⟩ := hsame
    rfl
  | inr hnew =>
    rw [hnew.2]
    exact get_put_of_ne st (show Kind.record ≠ .event by decide) _ id event

theorem TransitionCommitted.getRecord (h : TransitionCommitted st c event before st') (id : String) :
    st'.getRecord id = if id = c.after.id then some c.after else st.getRecord id := by
  obtain ⟨appended, happended, rfl⟩ := h.appended
  show (appended.put .record c.after.id c.after).get .record id = _
  rw [get_put_self]
  by_cases hid : id = c.after.id
  · rw [if_pos hid, if_pos hid]
  · rw [if_neg hid, if_neg hid]
    exact getRecord_of_appendEvent happended id

/-- The event is stored together with the Assertion that it shows. -/
theorem TransitionCommitted.stored (h : TransitionCommitted st c event before st') : ∃ stored,
    st'.getEvent event.id = some stored ∧ sameEvent stored event = true ∧
      st'.getRecord c.after.id = some c.after ∧
      (stored.payload.get "after").pyEq (qualificationTransitionSnapshot c.after) = true := by
  have hrecord := h.getRecord c.after.id
  rw [if_pos rfl] at hrecord
  obtain ⟨appended, happended, hst'⟩ := h.appended
  obtain ⟨stored, hstored, hsame⟩ := exists_stored_of_appendEvent happended
  refine ⟨stored, ?_, hsame, hrecord, ?_⟩
  · rw [hst', getEvent, save, get_put_of_ne appended (show Kind.event ≠ .record by decide)]
    exact hstored
  · have hafter : Fields.get? "after" event.payload =
        some (qualificationTransitionSnapshot c.after) := by
      have hget := h.shows.shownAfter
      rw [Fields.get] at hget
      cases hfield : Fields.get? "after" event.payload with
      | none =>
        rw [hfield] at hget
        cases hget
      | some v =>
        rw [hfield] at hget
        exact congrArg some hget
    obtain ⟨v, hv, heq⟩ := Json.exists_get_of_pyEq (sameEvent_fields hsame).2.2.2 hafter
    rw [Fields.get, hv]
    exact heq

theorem audited (st : MemoryStore) (c : TransitionCall) : Audited st c := by
  cases transition_cases st c with
  | inl h => exact .inl h
  | inr h =>
    obtain ⟨event, before, hevent, hcommitted⟩ := h
    obtain ⟨stored, hstored⟩ := hcommitted.stored
    exact .inr ⟨event, stored, hevent, hstored⟩

end Call

/-! ## A sequence of calls -/

/-- An event that shows a transition from a version of an Assertion that is not over yet. -/
def ShowsFrom (st : MemoryStore) (event : Event) : Prop :=
  ∃ n r, beforeVersion event = some n ∧ st.getRecord event.subjectRef = some r ∧ r.version ≤ n

/-- A call takes no version back. -/
theorem ShowsFrom.back {st : MemoryStore} {c : TransitionCall} {event : Event}
    (h : ShowsFrom (st.transitionStep c) event) : ShowsFrom st event := by
  cases transition_cases st c with
  | inl hnone =>
    rw [hnone.2] at h
    exact h
  | inr hsome =>
    obtain ⟨committed, before, -, hcommitted⟩ := hsome
    obtain ⟨n, r, hn, hr, hle⟩ := h
    rw [hcommitted.getRecord] at hr
    by_cases hid : event.subjectRef = c.after.id
    · rw [if_pos hid] at hr
      obtain rfl := Option.some.inj hr
      refine ⟨n, before, hn, hid ▸ hcommitted.found, ?_⟩
      have hadvances := hcommitted.shows.advances
      omega
    · rw [if_neg hid] at hr
      exact ⟨n, r, hn, hr, hle⟩

theorem showsFrom_of_mem {st : MemoryStore} {calls : List TransitionCall} {event : Event}
    (h : event ∈ st.transitionEvents calls) : ShowsFrom st event := by
  induction calls generalizing st with
  | nil => cases h
  | cons c rest ih =>
    rw [transitionEvents, List.mem_append] at h
    cases h with
    | inr hlater => exact (ih hlater).back
    | inl hnow =>
      rw [Option.mem_toList] at hnow
      cases transition_cases st c with
      | inl hnone =>
        rw [hnone.1] at hnow
        cases hnow
      | inr hsome =>
        obtain ⟨committed, before, hevent, hcommitted⟩ := hsome
        rw [hevent] at hnow
        obtain rfl := Option.some.inj hnow
        refine ⟨before.version, before, hcommitted.shows.shownBefore, ?_, le_rfl⟩
        rw [hcommitted.shows.subject]
        exact hcommitted.found

/-- No two events of a sequence of calls show one version of an Assertion before. -/
theorem pairwise_transitionEvents (st : MemoryStore) (calls : List TransitionCall) :
    (st.transitionEvents calls).Pairwise
      (fun e e' => e.subjectRef = e'.subjectRef → beforeVersion e ≠ beforeVersion e') := by
  induction calls generalizing st with
  | nil => exact List.Pairwise.nil
  | cons c rest ih =>
    rw [transitionEvents]
    cases transition_cases st c with
    | inl hnone =>
      rw [hnone.1]
      exact ih (st.transitionStep c)
    | inr hsome =>
      obtain ⟨event, before, hevent, hcommitted⟩ := hsome
      rw [hevent]
      refine List.pairwise_cons.mpr ⟨fun later hlater hsubject hversion => ?_, ih _⟩
      obtain ⟨n, r, hn, hr, hle⟩ := showsFrom_of_mem hlater
      have hsubject : later.subjectRef = c.after.id :=
        hsubject.symm.trans hcommitted.shows.subject
      rw [hcommitted.getRecord, if_pos hsubject] at hr
      obtain rfl := Option.some.inj hr
      rw [hcommitted.shows.shownBefore, hn, Option.some.injEq] at hversion
      have hadvances := hcommitted.shows.advances
      omega

/-- Qualification transitions are atomic and audited once, whatever calls went before. -/
theorem qualificationTransitions_audited (st : MemoryStore) (calls : List TransitionCall) :
    (∀ c, Audited (st.transitionRun calls) c) ∧
    (∀ event ∈ st.transitionEvents calls, ∃ version, beforeVersion event = some version) ∧
    (st.transitionEvents calls).Pairwise
      (fun e e' => e.subjectRef = e'.subjectRef → beforeVersion e ≠ beforeVersion e') := by
  refine ⟨audited (st.transitionRun calls), fun event hevent => ?_,
    pairwise_transitionEvents st calls⟩
  obtain ⟨n, r, hn, -⟩ := showsFrom_of_mem hevent
  exact ⟨n, hn⟩

end MemoryStore
end PortableRuntime
