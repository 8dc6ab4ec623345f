import PortableRuntime.Python.Equality
import PortableRuntime.Stores.Calls

/-!
# The event journal

`JournalKept st st'` says that every event of `st` is still there in `st'`, equal in
every field but the creation time.  Appending keeps the journal by itself.  The two
writers that do not look at the stored event are `compareAndSwap` and `importState`,
and `JournalPreserving` is what they would have to check.
-/

namespace PortableRuntime

namespace MemoryStore

variable {digest : Json → String} {now : Time} {st st' : MemoryStore}

theorem sameEvent_refl (e : Event) : sameEvent e e = true := Fields.pyEq_refl _

theorem sameEvent_symm {a b : Event} (h : sameEvent a b = true) :
    sameEvent b a = true :=
  Json.pyEq_symm (show (Json.obj (a.dump.pop "created_at")).pyEq (.obj (b.dump.pop "created_at")) =
    true from h)

theorem sameEvent_trans {a b c : Event} (hab : sameEvent a b = true) (hbc : sameEvent b c = true) :
    sameEvent a c = true := Fields.pyEq_trans hab hbc

/-- Events that agree have one id, type, subject and payload. -/
theorem sameEvent_fields {a b : Event} (h : sameEvent a b = true) :
    a.id = b.id ∧ a.type = b.type ∧ a.subjectRef = b.subjectRef ∧ a.payload.pyEq b.payload = true := by
  have hfield : ∀ (name : String) (v w : Json), name ≠ "created_at" →
      Fields.get? name a.dump = some v → Fields.get? name b.dump = some w → v.pyEq w = true := by
    intro name v w hname hv hw
    exact Json.pyEq_get name h ((Fields.get?_pop _ hname).trans hv)
      ((Fields.get?_pop _ hname).trans hw)
  have hid := hfield "id" (.str a.id) (.str b.id) (by decide)
    (by simp [Event.dump, RuntimeModel.base, Fields.get?])
    (by simp [Event.dump, RuntimeModel.base, Fields.get?])
  have htype := hfield "type" (.str a.type) (.str b.type) (by decide)
    (by simp [Event.dump, RuntimeModel.base, Fields.get?])
    (by simp [Event.dump, RuntimeModel.base, Fields.get?])
  have hsubject := hfield "subject_ref" (.str a.subjectRef) (.str b.subjectRef) (by decide)
    (by simp [Event.dump, RuntimeModel.base, Fields.get?])
    (by simp [Event.dump, RuntimeModel.base, Fields.get?])
  have hpayload := hfield "payload" (.obj a.payload) (.obj b.payload) (by decide)
    (by simp [Event.dump, RuntimeModel.base, Fields.get?])
    (by simp [Event.dump, RuntimeModel.base, Fields.get?])
  exact ⟨Json.str.inj (Json.pyEq_str.mp hid), Json.str.inj (Json.pyEq_str.mp htype),
    Json.str.inj (Json.pyEq_str.mp hsubject), hpayload⟩

def JournalKept (st st' : MemoryStore) : Prop :=
  ∀ id e, st.getEvent id = some e → ∃ e', st'.getEvent id = some e' ∧ sameEvent e e' = true

theorem JournalKept.refl (st : MemoryStore) : JournalKept st st :=
  fun _ e he => ⟨e, he, sameEvent_refl e⟩

theorem JournalKept.trans {a b c : MemoryStore} (hab : JournalKept a b) (hbc : JournalKept b c) :
    JournalKept a c := by
  intro id e he
  obtain ⟨e', he', hsame⟩ := hab id e he
  obtain ⟨e'', he'', hsame'⟩ := hbc id e' he'
  exact ⟨e'', he'', sameEvent_trans hsame hsame'⟩

theorem JournalKept.put_of_ne {k : Kind} (hk : k ≠ .event) (id : String) (v : Model k) :
    JournalKept st (st.put k id v) := by
  intro id' e he
  refine ⟨e, ?_, sameEvent_refl e⟩
  rw [getEvent, get_put_of_ne st (Ne.symm hk)]
  exact he

/-- Storing an event under an identity keeps the journal when the event that is there
already, if any, is the same. -/
theorem JournalKept.put_event {id : String} {v : Event}
    (h : ∀ e, st.getEvent id = some e → sameEvent e v = true) :
    JournalKept st (st.put .event id v) := by
  intro id' e he
  rw [getEvent, get_put_self st .event]
  by_cases hid : id' = id
  · subst hid
    exact ⟨v, by rw [if_pos rfl], h e he⟩
  · exact ⟨e, by rw [if_neg hid]; exact he, sameEvent_refl e⟩

theorem JournalKept.appendEventAs {authority : Option CommitAuthority} {e : Event}
    (h : st.appendEventAs authority e = .ok st') : JournalKept st st' := by
  rcases appendEventAs_eq_ok h with ⟨existing, -, -, rfl⟩ | ⟨hnone, rfl⟩
  · exact .refl _
  · refine .put_event (fun e' he' => ?_)
    exact absurd (hnone.symm.trans he') (by simp)

theorem JournalKept.appendEvents {authority : Option CommitAuthority} {events : List Event}
    (h : st.appendEvents authority events = .ok st') : JournalKept st st' :=
  appendEvents_induction (P := JournalKept st)
    (fun _ _ _ _ hkept happend => hkept.trans (.appendEventAs happend)) (.refl st) h

/-- An import keeps the journal when each of its events is the stored one, or new. -/
theorem JournalKept.saveAll {incoming : State}
    (h : ∀ v ∈ incoming.events, ∀ e, st.getEvent v.id = some e → sameEvent e v = true) :
    JournalKept st (st.saveAll incoming) := by
  intro id e he
  have hsome : ((st.saveAll incoming).getEvent id).isSome :=
    Dict.get?_setAll_isSome (d := st.records .event) (by
      rw [show (st.records .event).get? id = some e from he]; rfl)
  obtain ⟨e', he'⟩ := Option.isSome_iff_exists.mp hsome
  refine ⟨e', he', ?_⟩
  rcases Dict.get?_setAll (d := st.records .event) he' with ⟨hmem, rfl⟩ | ⟨-, hold⟩
  · exact h e' hmem e he
  · rw [show (st.records .event).get? id = some e from he, Option.some.injEq] at hold
    exact hold ▸ sameEvent_refl e

/-- The two writers that bypass the journal's own check present, under a stored identity,
only the event that is stored there. -/
def JournalPreserving (st : MemoryStore) (o : Time × Op) : Prop :=
  match o.2 with
  | .compareAndSwap .event id expected v => ∀ e, st.getEvent id = some e →
      (versionOf .event e).pyEq (.int expected) = true → sameEvent e v = true
  | .importState state => ∀ v ∈ state.events, ∀ e, st.getEvent v.id = some e →
      sameEvent e v = true
  | _ => True

theorem JournalKept.saveModel {k : Kind} {v : Model k} (h : st.saveModel now k v = .ok st') :
    JournalKept st st' := by
  by_cases hk : k = .event
  · subst hk
    exact @JournalKept.appendEventAs _ _ none v h
  · obtain ⟨-, -, rfl⟩ := saveModel_eq_ok hk h
    exact .put_of_ne hk _ v

theorem JournalKept.compareAndSwap {k : Kind} {id : String} {expected : Int} {v : Model k}
    {b : Bool} (h : st.compareAndSwap now k id expected v = .ok (b, st'))
    (hC : JournalPreserving st (now, .compareAndSwap k id expected v)) : JournalKept st st' := by
  rcases compareAndSwap_eq_ok h with ⟨-, rfl⟩ | ⟨-, existing, hget, hver, -, -, rfl⟩
  · exact .refl _
  · by_cases hk : k = .event
    · subst hk
      refine .put_event (fun e he => hC e he ?_)
      rw [show st.get .event id = some e from he, Option.some.injEq] at hget
      exact hget ▸ hver
    · exact .put_of_ne hk id v

theorem events_asImported (state : State) : (asImported state).events = state.events := by
  simp [asImported, State.events]

/-- Every accepted call keeps the journal, unless it is one of the two that bypass the
check and presents a different event. -/
theorem journalKept_call {o : Op} (h : st.call digest now o = .ok st')
    (hC : JournalPreserving st (now, o)) : JournalKept st st' := by
  cases o with
  | save k v => exact .saveModel h
  | compareAndSwap k id expected v =>
    obtain ⟨b, hcas⟩ := call_compareAndSwap_eq_ok h
    exact .compareAndSwap hcas hC
  | commitTerminal work run refs =>
    obtain ⟨-, -, -, -, rfl⟩ := commitTerminal_eq_ok.mp h
    exact (JournalKept.put_of_ne (by decide) _ _).trans (.put_of_ne (by decide) _ _)
  | commitVerifiedOutcome request =>
    obtain ⟨prepared, -, rfl | ⟨-, happend⟩⟩ := commitVerifiedOutcome_eq_ok h
    · exact .refl _
    · exact (JournalKept.put_of_ne (by decide) _ _).trans (.appendEvents happend)
  | commitHistoricalExperienceUse use =>
    rcases commitHistoricalExperienceUse_eq_ok h with rfl | ⟨-, -, -, -, event, -, happend⟩
    · exact .refl _
    · exact (JournalKept.put_of_ne (by decide) _ _).trans (.appendEventAs happend)
  | commitEvents authority prepare =>
    rcases commitEvents_eq_ok h with rfl | ⟨events, -, happend⟩
    · exact .refl _
    · exact .appendEvents happend
  | importState state =>
    obtain ⟨-, -, -, -, rfl⟩ := importState_eq_ok.mp h
    refine .saveAll ?_
    rw [events_asImported]
    exact hC

theorem journalKept_step {o : Time × Op} (hC : JournalPreserving st o) :
    JournalKept st (step digest st o) := by
  unfold step
  split
  · rename_i st' h
    exact journalKept_call h hC
  · exact .refl st

/-- In a run whose imports and swaps bring no different event under a stored identity,
an event once read is read ever after, up to its creation time. -/
theorem getEvent_stable (digest : Json → String) (ps qs : List (Prog (Time × Op)))
    (hC : Prog.FollowsAll (step digest) JournalPreserving empty (ps ++ qs)) (id : String)
    (e : Event) (he : (Prog.execAll (step digest) empty ps).getEvent id = some e) :
    ∃ e', (Prog.execAll (step digest) empty (ps ++ qs)).getEvent id = some e' ∧
      sameEvent e e' = true := by
  rw [Prog.execAll_append]
  have hqs := (Prog.followsAll_append.mp hC).2
  exact (Prog.exec_related (I := fun _ => True) JournalKept.refl (fun _ _ _ => JournalKept.trans)
    (fun _ _ _ hc => ⟨trivial, journalKept_step hc⟩) trivial hqs).2 id e he

def startedEvent : Event :=
  { id := "event_1", createdAt := 0, type := "RunStarted", subjectRef := "run_1" }

def failedEvent : Event := { startedEvent with type := "RunFailed" }

def recording : List (Prog (Time × Op)) := [.op (0, .save .event startedEvent)]

/-- A replay of the event, a transaction that fails, and a swap that only changes the
creation time. -/
def replaying : List (Prog (Time × Op)) :=
  [.op (1, .save .event startedEvent), .transaction [.op (1, .save .event failedEvent)] true,
   .op (2, .compareAndSwap .event "event_1" 0 { startedEvent with createdAt := 2 })]

theorem getEvent_stable_replaying :
    ∃ e', (Prog.execAll (step (fun _ => "")) empty (recording ++ replaying)).getEvent "event_1" =
      some e' ∧ sameEvent startedEvent e' = true := by
  refine getEvent_stable (fun _ => "") recording replaying
    ⟨trivial, trivial, fun h => absurd h (by decide), ?_, trivial⟩ "event_1" startedEvent rfl
  intro e he _
  obtain rfl : startedEvent = e := Option.some.inj he
  decide

/-- A swap replaces a stored event by a different one. -/
theorem compareAndSwap_rewrites_event :
    ¬ ∀ (digest : Json → String) (ps qs : List (Prog (Time × Op))) (id : String) (e : Event),
      (Prog.execAll (step digest) empty ps).getEvent id = some e →
      ∃ e', (Prog.execAll (step digest) empty (ps ++ qs)).getEvent id = some e' ∧
        sameEvent e e' = true := by
  intro h
  obtain ⟨e', he', hsame⟩ := h (fun _ => "") recording
    [.op (0, .compareAndSwap .event "event_1" 0 failedEvent)] "event_1" startedEvent rfl
  obtain rfl : failedEvent = e' := Option.some.inj he'
  exact absurd hsame (by decide)

end MemoryStore

end PortableRuntime
