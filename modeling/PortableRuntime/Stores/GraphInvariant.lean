import PortableRuntime.Protocol.Appending
import PortableRuntime.Stores.Keyed

/-!
# The graph of a store stays valid

A checked write is validated on a candidate that lists the objects in another order than
the store will.  Events, and the outcome of a verified commit, are written without a check.
-/

namespace PortableRuntime
namespace MemoryStore

variable {digest : Json → String} {now : Time} {st st' : MemoryStore}

/-- Each event that is new to the journal when its turn comes fits the state there. -/
def EventsFit (now : Time) : MemoryStore → List Event → Prop
  | _, [] => True
  | st, e :: rest =>
    if (st.getEvent e.id).isSome then EventsFit now st rest
    else EventFits now st.exportState e ∧ EventsFit now (st.save .event e) rest

/-- What an accepted call has to bring: objects on which no check raises, a swap under the identity of
its value, and for each value that no gate looks at, what the gate would ask of it. -/
def Brings (digest : Json → String) (now : Time) (st : MemoryStore) : Op → Prop
  | .save .event e => EventsFit now st [e]
  | .save k v => k.hashable v = true
  | .compareAndSwap k id _ v => k.identifier v = id ∧ k.hashable v = true
  | .commitTerminal work run _ =>
    Kind.hashable .work work = true ∧ Kind.hashable .run run = true
  | .commitVerifiedOutcome request =>
    ∀ prepared, prepareVerifiedOutcomeCommit digest now st.reader request = .ok prepared →
      st.getRecord prepared.outcome.id = none →
      Valid now (st.exportState.merge .record [prepared.outcome]) ∧
        EventsFit now (st.save .record prepared.outcome) prepared.events
  | .commitHistoricalExperienceUse use =>
    Kind.hashable .record use.judgment = true ∧
      ∀ event, use.bind st.exportState = .ok event →
        EventsFit now (st.save .record use.judgment) [event]
  | .commitEvents _ prepare =>
    ∀ events, prepare st = .ok (.append events) → EventsFit now st events
  | .importState state => ∀ k, ∀ m ∈ state k, k.hashable m = true

def Conforming (digest : Json → String) (now : Time) (st : MemoryStore) (o : Op) : Prop :=
  (st.call digest now o).isOk = true → Brings digest now st o

/-- The objects are stored under their identities, no check raises on one of them, and the
validator finds nothing. -/
structure Sound (now : Time) (st : MemoryStore) : Prop where
  keyed : Keyed st
  hashable : st.exportState.Hashable
  valid : Valid now st.exportState

theorem hashable_merge {s : State} (hash : s.Hashable) {k : Kind} {values : List (Model k)}
    (hv : ∀ v ∈ values, k.hashable v = true) : (s.merge k values).Hashable := by
  intro k' m hm
  by_cases hk : k' = k
  · subst hk
    rw [State.merge, Function.update_self, mergeBucket, List.mem_append] at hm
    rcases hm with hold | hnew
    · exact hash k' m (List.mem_filter.mp hold).1
    · exact hv m hnew
  · rw [State.merge, Function.update_of_ne hk] at hm
    exact hash k' m hm

/-- A store that holds the objects of a valid candidate is sound. -/
theorem sound_of_candidate {candidate : State} (hkeyed : Keyed st')
    (hash : candidate.Hashable) (hvalid : Valid now candidate)
    (hre : candidate.Rearranged st'.exportState) : Sound now st' :=
  ⟨hkeyed, hash.rearranged hre, hre.valid hash hvalid⟩

theorem Sound.save (h : Sound now st) {k : Kind} {v : Model k} (hv : k.hashable v = true)
    (hvalid : Valid now (st.exportState.merge k [v])) : Sound now (st.save k v) :=
  sound_of_candidate (h.keyed.save k v)
    (hashable_merge h.hashable (by simpa using hv)) hvalid
    (rearranged_save h.keyed k v)

/-! ## Unchecked appends -/

theorem Sound.append (h : Sound now st) {e : Event} (he : EventFits now st.exportState e) :
    Sound now (st.save .event e) :=
  h.save he.hashable (State.valid_appended h.hashable h.valid he)

theorem Sound.appendEvents {authority : Option CommitAuthority} {events : List Event}
    (h : Sound now st) (hfit : EventsFit now st events)
    (happend : st.appendEvents authority events = .ok st') : Sound now st' := by
  induction events generalizing st with
  | nil => exact Except.ok.inj happend ▸ h
  | cons e rest ih =>
    obtain ⟨st₁, hone, hrest⟩ := Result.bind_eq_ok.mp happend
    rcases appendEventAs_eq_ok hone with ⟨existing, hget, -, rfl⟩ | ⟨hget, rfl⟩
    · rw [EventsFit, hget, if_pos Option.isSome_some] at hfit
      exact ih h hfit hrest
    · rw [EventsFit, hget, if_neg (by simp)] at hfit
      exact ih (h.append hfit.1) hfit.2 hrest

theorem Sound.appendEvent {authority : Option CommitAuthority} {e : Event}
    (h : Sound now st) (hfit : EventsFit now st [e])
    (happend : st.appendEventAs authority e = .ok st') : Sound now st' :=
  h.appendEvents hfit (Result.bind_eq_ok.mpr ⟨st', happend, rfl⟩)

/-! ## Calls -/

theorem pySet_ofStrings (values : List String) :
    pySet (.ofStrings values) = .ok (values.map Json.str) := by
  cases values with
  | nil => rfl
  | cons v rest => simp [pySet, Json.ofStrings, Json.truthy]

theorem hashable_verifiedOutcome (action : Action) (attempt : StepAttempt) (work : Work)
    (run : Run) (evidenceRefs subjectVersions : List String) (scope : Fields)
    (result : ObjectiveResult) (proofs : List BaseRecord) :
    Kind.hashable .record (verifiedOutcome digest now action attempt work run evidenceRefs
      subjectVersions scope result proofs) = true := by
  simp only [Kind.hashable, Bool.and_eq_true]
  refine ⟨⟨?_, ?_⟩, ?_⟩
  · simp [verificationResultIsPassing, verifiedOutcome, BaseRecord.dump, Fields.get, Fields.get?,
      Json.inSet, Json.asFields?, Json.pyOr, Json.truthy, bind, Except.bind, pure, Except.pure,
      Except.isOk, Except.toBool]
  · simp [verifiedOutcome, BaseRecord.getattr, Fields.get, Fields.get?, pySet, Json.truthy,
      Except.isOk, Except.toBool]
  · simp [verifiedOutcome, BaseRecord.getattr, Fields.get, Fields.get?, pySet_ofStrings,
      Except.isOk, Except.toBool]

theorem hashable_of_prepare {reader : VerifiedOutcomeStoreReader}
    {request : VerifiedOutcomeCommitRequest} {prepared : PreparedVerifiedOutcomeCommit}
    (h : prepareVerifiedOutcomeCommit digest now reader request = .ok prepared) :
    Kind.hashable .record prepared.outcome = true := by
  simp only [prepareVerifiedOutcomeCommit, Result.bind_eq_ok, Result.pure_eq_ok] at h
  obtain ⟨-, -, -, -, -, -, action, -, attempt, -, -, -, run, -, work, -, validated, -, rfl⟩ := h
  exact hashable_verifiedOutcome action attempt work run _ _ _ _ _

theorem Sound.commitTerminal (h : Sound now st) {work : Work} {run : Run}
    (hwork : Kind.hashable .work work = true) (hrun : Kind.hashable .run run = true)
    (hvalid : Valid now ((st.exportState.merge .work [work]).merge .run [run])) :
    Sound now ((st.save .work work).save .run run) := by
  have hkeyed := h.keyed.save .work work
  refine sound_of_candidate (hkeyed.save .run run)
    (hashable_merge (hashable_merge h.hashable (by simpa using hwork)) (by simpa using hrun))
    hvalid ?_
  exact ((rearranged_save h.keyed .work work).merge .run [run]).trans (rearranged_save hkeyed .run run)

theorem Sound.importState (h : Sound now st) {state : State}
    (hash : ∀ k, ∀ m ∈ state k, k.hashable m = true)
    (hvalid : Valid now (importCandidate st.exportState (asImported state))) :
    Sound now (st.saveAll (asImported state)) := by
  have himported : ∀ k, ∀ m ∈ asImported state k, k.hashable m = true := by
    intro k m hm
    by_cases hk : k = .record
    · subst hk
      obtain ⟨r, hr, rfl⟩ := List.mem_map.mp hm
      exact hash .record r hr
    · rw [asImported, Function.update_of_ne hk] at hm
      exact hash k m hm
  have hcandidate : (importCandidate st.exportState (asImported state)).Hashable := by
    intro k m hm
    rcases List.mem_append.mp hm with hold | hnew
    · exact h.hashable k m (List.mem_filter.mp hold).1
    · exact himported k m hnew
  have hnodup := nodup_of_importCandidate (valid_iff.mp hvalid).identified
  exact sound_of_candidate (h.keyed.saveAll _) hcandidate hvalid
    (rearranged_saveAll h.keyed hnodup)

theorem Sound.call {o : Op} (h : Sound now st) (hC : Brings digest now st o)
    (hcall : st.call digest now o = .ok st') : Sound now st' := by
  cases o with
  | save k v =>
    by_cases hk : k = .event
    · subst hk
      exact @Sound.appendEvent now st st' none v h hC hcall
    · obtain ⟨-, hvalid, rfl⟩ := saveModel_eq_ok hk hcall
      have hv : k.hashable v = true := by
        cases k <;> first | exact hC | exact absurd rfl hk
      exact h.save hv hvalid
  | compareAndSwap k id expected v =>
    obtain ⟨b, hcas⟩ := call_compareAndSwap_eq_ok hcall
    rcases compareAndSwap_eq_ok hcas with ⟨-, rfl⟩ | ⟨-, -, -, -, -, hvalid, rfl⟩
    · exact h
    · obtain ⟨rfl, hv⟩ := hC
      exact h.save hv hvalid
  | commitTerminal work run refs =>
    obtain ⟨-, -, -, hvalid, rfl⟩ := commitTerminal_eq_ok.mp hcall
    exact h.commitTerminal hC.1 hC.2 hvalid
  | commitVerifiedOutcome request =>
    obtain ⟨prepared, hprepare, rfl | ⟨hnone, happend⟩⟩ := commitVerifiedOutcome_eq_ok hcall
    · exact h
    · obtain ⟨hvalid, hfit⟩ := hC prepared hprepare hnone
      exact (h.save (hashable_of_prepare hprepare) hvalid).appendEvents hfit happend
  | commitHistoricalExperienceUse use =>
    rcases commitHistoricalExperienceUse_eq_ok hcall with
      rfl | ⟨-, -, -, hvalid, event, hbind, happend⟩
    · exact h
    · exact (h.save hC.1 hvalid).appendEvent (hC.2 event hbind) happend
  | commitEvents authority prepare =>
    rcases commitEvents_eq_ok hcall with rfl | ⟨events, hprepare, happend⟩
    · exact h
    · exact h.appendEvents (hC events hprepare) happend
  | importState state =>
    obtain ⟨-, -, hvalid, -, rfl⟩ := importState_eq_ok.mp hcall
    exact h.importState hC hvalid

/-- A call at the instant `now`. -/
def stepAt (digest : Json → String) (now : Time) (st : MemoryStore) (o : Op) : MemoryStore :=
  step digest st (now, o)

theorem Sound.stepAt {o : Op} (h : Sound now st) (hC : Conforming digest now st o) :
    Sound now (stepAt digest now st o) := by
  unfold MemoryStore.stepAt MemoryStore.step
  split
  · rename_i st' hcall
    exact h.call (hC (by rw [hcall]; rfl)) hcall
  · exact h

theorem sound_empty : Sound now empty :=
  ⟨keyed_empty, fun _ _ hm => absurd hm List.not_mem_nil, rfl⟩

/-- In every run of calls at one instant of which the accepted ones bring what no gate asks for,
the validator finds nothing in the state that any of them leaves. -/
theorem graph_stays_valid (digest : Json → String) (now : Time) (ops : List Op)
    (h : Along (stepAt digest now) (Conforming digest now) empty ops) :
    Valid now (run (stepAt digest now) empty ops).exportState :=
  (run_invariant (fun _ _ hst hC => Sound.stepAt hst hC) sound_empty h).valid

/-! ## An event under the identity of a work -/

def plainWork : Work := { id := "work_1", createdAt := 0, title := "", updatedAt := 0 }

def workEvent (id : String) : Event :=
  { id, createdAt := 0, type := "noted", subjectRef := "work_1" }

theorem eventFits_workEvent :
    EventFits 0 (empty.save .work plainWork).exportState (workEvent "event_1") where
  nonempty := by decide
  unused := by
    intro k m hm
    cases k with
    | work =>
      obtain rfl := List.mem_singleton.mp hm
      decide
    | _ => exact absurd hm List.not_mem_nil
  hashable := by decide
  relations := fun _ hr => absurd hr List.not_mem_nil
  projections := fun _ hp => absurd hp List.not_mem_nil
  lineage := fun ⟨_, hr, _⟩ => absurd hr List.not_mem_nil

theorem graph_stays_valid_noted :
    Valid 0 (run (stepAt (fun _ => "") 0) empty
      [.save .work plainWork, .save .event (workEvent "event_1")]).exportState := by
  have hhashable : Kind.hashable .work plainWork = true := by decide
  refine graph_stays_valid (fun _ => "") 0 _ ⟨fun _ => hhashable, ?_, trivial⟩
  have hcall : empty.call (fun _ => "") 0 (.save .work plainWork) =
      .ok (empty.save .work plainWork) :=
    saveChecked_eq_ok.mpr ⟨rfl, by decide, rfl⟩
  have hstep : stepAt (fun _ => "") 0 empty (.save .work plainWork) =
      empty.save .work plainWork := by
    rw [stepAt, step, hcall]
  rw [hstep]
  exact fun _ => ⟨eventFits_workEvent, trivial⟩

/-- The journal takes an event under any identity, and the state is invalid from then on. -/
theorem event_under_used_identity :
    ¬ ∀ (digest : Json → String) (now : Time) (ops : List Op),
      Valid now (run (stepAt digest now) empty ops).exportState := by
  intro h
  exact absurd (h (fun _ => "") 0 [.save .work plainWork, .save .event (workEvent "work_1")])
    (by decide)

end MemoryStore
end PortableRuntime
