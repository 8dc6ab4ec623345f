import PortableRuntime.Controller.Interleavings

/-!
# Reading a recorded state back

A read validates every state that a controller has recorded, and states are recorded as
unvalidated copies: one that the validator refuses hides all the others.  What the
controller waits for is named by an id, and ids of decisions and revisions are the caller's.
-/

namespace PortableRuntime
namespace ControllerStore

/-- The validator accepts the state. -/
def Valid (state : ControllerState) : Prop := state.validate = .ok state

theorem valid_iff {state : ControllerState} :
    Valid state ↔ (state.status = .waiting → state.pendingRef.any (· ≠ "") = true) ∧
      (state.status ≠ .waiting → state.pendingRef = none) := by
  constructor
  · intro h
    obtain ⟨hwaits, h⟩ := Result.check_eq_ok.mp h
    obtain ⟨honly, -⟩ := Result.check_eq_ok.mp h
    rw [guardValue_eq_ok] at hwaits honly
    refine ⟨fun hwaiting => by simpa [hwaiting] using hwaits, fun hother => ?_⟩
    simpa [hother] using honly
  · rintro ⟨hwaits, honly⟩
    refine Result.check_eq_ok.mpr ⟨guardValue_eq_ok.mpr ?_,
      Result.check_eq_ok.mpr ⟨guardValue_eq_ok.mpr ?_, rfl⟩⟩
    · by_cases hwaiting : state.status = .waiting
      · rw [hwaits hwaiting, Bool.or_true]
      · simp [hwaiting]
    · by_cases hwaiting : state.status = .waiting
      · simp [hwaiting]
      · simp [honly hwaiting]

/-- The caller's id of what the controller would wait for is not empty. -/
def Identified (decision : ControllerDecision) : Prop :=
  match decision.kind with
  | .wait => decision.id ≠ ""
  | .assessRevision => ∀ revision ∈ decision.revision,
      (revisionStatus revision).1 = .waiting → revision.id ≠ ""
  | _ => True

/-- The recorded states of every controller are its own and can be read. -/
def Readable (s : ControllerStore) : Prop :=
  ∀ controllerId, ∀ entry ∈ s.stateLog controllerId, entry.1.id = controllerId ∧ Valid entry.1

/-! ## The newest state is read -/

theorem olderThan_asymm {a b : ControllerState} (h : olderThan a b = true) :
    olderThan b a = false := by
  simp only [olderThan, Bool.or_eq_true, Bool.and_eq_true, decide_eq_true_eq] at h
  simp only [olderThan, Bool.or_eq_false_iff, Bool.and_eq_false_iff, decide_eq_false_iff_not]
  rcases h with hversion | ⟨hversion, htime⟩
  · exact ⟨by omega, .inl (by omega)⟩
  · exact ⟨by omega, .inr (lt_asymm htime)⟩

theorem latest_eq_of_newest {states : List ControllerState} {state : ControllerState}
    (hmem : state ∈ states) (hnewest : ∀ other ∈ states, other = state ∨ olderThan other state) :
    latest states = some state := by
  have hirrefl : olderThan state state = false := by simp [olderThan]
  have hkeep : ∀ l : List ControllerState, (∀ other ∈ l, other = state ∨ olderThan other state) →
      l.foldl (fun best next => if olderThan best next then next else best) state = state := by
    intro l hl
    induction l with
    | nil => rfl
    | cons next rest ih =>
      have hnot : olderThan state next = false := by
        rcases hl next List.mem_cons_self with rfl | holder
        · exact hirrefl
        · exact olderThan_asymm holder
      rw [List.foldl_cons, hnot]
      exact ih (fun other hother => hl other (List.mem_cons_of_mem next hother))
  have hreach : ∀ (l : List ControllerState) (best : ControllerState),
      (∀ other ∈ l, other = state ∨ olderThan other state) →
      (best = state ∨ olderThan best state) → (best = state ∨ state ∈ l) →
      l.foldl (fun best next => if olderThan best next then next else best) best = state := by
    intro l
    induction l with
    | nil =>
      intro best _ _ hend
      exact hend.resolve_right List.not_mem_nil
    | cons next rest ih =>
      intro best hl hbest hend
      have hrest := fun other hother => hl other (List.mem_cons_of_mem next hother)
      rcases hbest with rfl | holder
      · exact hkeep (next :: rest) hl
      · have hne : best ≠ state := by
          rintro rfl
          rw [hirrefl] at holder
          exact absurd holder (by decide)
        rw [List.foldl_cons]
        rcases List.mem_cons.mp (hend.resolve_left hne) with rfl | hlater
        · rw [if_pos holder]
          exact hkeep rest hrest
        · refine ih _ hrest ?_ (.inr hlater)
          split
          · exact hl next List.mem_cons_self
          · exact .inr holder
  cases states with
  | nil => exact absurd hmem List.not_mem_nil
  | cons first rest =>
    rw [latest, hreach rest first (fun other h => hnewest other (List.mem_cons_of_mem first h))
      (hnewest first List.mem_cons_self) ((List.mem_cons.mp hmem).imp_left Eq.symm)]

theorem mapM_validate_of_valid {states : List ControllerState} (h : ∀ state ∈ states, Valid state) :
    states.mapM (·.validate) = .ok states := by
  induction states with
  | nil => rfl
  | cons state rest ih =>
    rw [List.mapM_cons]
    refine Result.bind_eq_ok.mpr ⟨state, h state List.mem_cons_self, ?_⟩
    exact Result.bind_eq_ok.mpr ⟨rest, ih (fun other hother =>
      h other (List.mem_cons_of_mem state hother)), rfl⟩

/-- A newest state added to readable ones is read back exactly when it is valid. -/
theorem get_of_newest {s s' : ControllerStore} {state : ControllerState}
    {computedFrom : Option ControllerState} (hreadable : s.Readable)
    (hlogs : LogsOf s' s state computedFrom)
    (hnewest : ∀ entry ∈ s.stateLog state.id, olderThan entry.1 state = true) :
    s'.get state.id = .ok (some state) ↔ Valid state := by
  have hmem (other : ControllerState) :
      other ∈ (s'.listEvents state.id).filterMap (·.asState) ↔
        (∃ entry ∈ s.stateLog state.id, entry.1 = other) ∨ other = state := by
    rw [(states_perm s' state.id).mem_iff, hlogs state.id, if_pos rfl, List.map_append,
      List.mem_append, List.mem_map, List.map_singleton, List.mem_singleton]
  constructor
  · intro h
    obtain ⟨states, hstates, -⟩ := Result.bind_eq_ok.mp h
    obtain ⟨state', hvalid⟩ := Result.exists_of_mapM hstates state ((hmem state).mpr (.inr rfl))
    rw [validate_eq_ok hvalid] at hvalid
    exact hvalid
  · intro hvalid
    have hall : ∀ other ∈ (s'.listEvents state.id).filterMap (·.asState), Valid other := by
      intro other hother
      rcases (hmem other).mp hother with ⟨entry, hentry, rfl⟩ | rfl
      · exact (hreadable state.id entry hentry).2
      · exact hvalid
    refine Result.bind_eq_ok.mpr ⟨_, mapM_validate_of_valid hall, ?_⟩
    rw [Result.pure_eq_ok]
    refine latest_eq_of_newest ((hmem state).mpr (.inr rfl)) (fun other hother => ?_)
    rcases (hmem other).mp hother with ⟨entry, hentry, rfl⟩ | rfl
    · exact .inr (hnewest entry hentry)
    · exact .inl rfl

/-- A valid state keeps the recorded states readable. -/
theorem Readable.record {s s' : ControllerStore} {state : ControllerState}
    {computedFrom : Option ControllerState} (h : s.Readable)
    (hlogs : LogsOf s' s state computedFrom) (hvalid : Valid state) : s'.Readable := by
  intro controllerId entry hentry
  rw [hlogs controllerId] at hentry
  split at hentry
  · next hid =>
    rcases List.mem_append.mp hentry with hold | hnew
    · exact h controllerId entry hold
    · rw [List.mem_singleton.mp hnew]
      exact ⟨hid, hvalid⟩
  · exact h controllerId entry hentry

/-! ## One lemma for each operation -/

/-- The state that a reply has recorded. -/
def replyState : ControllerReply → ControllerState
  | .recorded state => state
  | .invoked pending => pending.waiting

section Operations

variable {s s' : ControllerStore} {state : ControllerState} {decision : ControllerDecision}
  {fresh : FreshId} {now : Time} {reply : ControllerReply}

theorem ne_empty_of_nonBlank {text : String} (h : Text.nonBlank text = true) : text ≠ "" := by
  rintro rfl
  exact absurd h (by decide)

/-- A decision records a valid state exactly when it names what it waits for. -/
theorem valid_of_perform (h : s.perform state decision fresh now = .ok (s', reply)) :
    Valid (replyState reply) ↔ Identified decision := by
  unfold perform at h
  cases hkind : decision.kind <;> rw [hkind] at h <;> dsimp only at h
  case invokeCapability =>
    obtain ⟨_, -, h⟩ := Result.bind_eq_ok.mp h
    rw [Result.pure_eq_ok, Prod.mk.injEq] at h
    obtain ⟨-, rfl⟩ := h
    refine iff_of_true (valid_iff.mpr ?_) (by simp [Identified, hkind])
    simp [replyState, nextState, ne_empty_of_nonBlank fresh.nonBlank]
  case formClosure =>
    obtain ⟨closure, -, h⟩ := Result.bind_eq_ok.mp h
    obtain ⟨-, h⟩ := Result.check_eq_ok.mp h
    obtain ⟨-, h⟩ := Result.check_eq_ok.mp h
    obtain ⟨-, h⟩ := Result.check_eq_ok.mp h
    obtain ⟨-, h⟩ := Result.check_eq_ok.mp h
    obtain ⟨-, h⟩ := Result.check_eq_ok.mp h
    rw [Result.pure_eq_ok, transition, Prod.mk.injEq] at h
    obtain ⟨-, rfl⟩ := h
    exact iff_of_true (valid_iff.mpr (by simp [replyState, nextState]))
      (by simp [Identified, hkind])
  case proposeWork =>
    obtain ⟨_, -, h⟩ := Result.bind_eq_ok.mp h
    obtain ⟨_, -, h⟩ := Result.bind_eq_ok.mp h
    obtain ⟨_, -, h⟩ := Result.bind_eq_ok.mp h
    obtain ⟨_, -, h⟩ := Result.bind_eq_ok.mp h
    obtain ⟨_, -, h⟩ := Result.bind_eq_ok.mp h
    obtain ⟨closure, -, h⟩ := Result.bind_eq_ok.mp h
    obtain ⟨_, -, h⟩ := Result.bind_eq_ok.mp h
    obtain ⟨-, h⟩ := Result.check_eq_ok.mp h
    obtain ⟨-, h⟩ := Result.check_eq_ok.mp h
    obtain ⟨_, -, h⟩ := Result.bind_eq_ok.mp h
    obtain ⟨⟨saved, responsibilities⟩, -, h⟩ := Result.bind_eq_ok.mp h
    rw [Result.pure_eq_ok, transition, Prod.mk.injEq] at h
    obtain ⟨-, rfl⟩ := h
    have hsaved : saved.id ≠ "" := ne_empty_of_nonBlank saved.base.idNonblank
    exact iff_of_true (valid_iff.mpr (by simp [replyState, nextState, hsaved]))
      (by simp [Identified, hkind])
  case assessRevision =>
    obtain ⟨revision, hrevision, h⟩ := Result.bind_eq_ok.mp h
    obtain ⟨_, -, h⟩ := Result.bind_eq_ok.mp h
    obtain ⟨_, -, h⟩ := Result.bind_eq_ok.mp h
    obtain ⟨-, h⟩ := Result.check_eq_ok.mp h
    obtain ⟨_, -, h⟩ := Result.bind_eq_ok.mp h
    obtain ⟨-, h⟩ := Result.check_eq_ok.mp h
    obtain ⟨-, h⟩ := Result.check_eq_ok.mp h
    rw [Result.pure_eq_ok, transition, Prod.mk.injEq] at h
    obtain ⟨-, rfl⟩ := h
    have hidentified : Identified decision ↔
        ((revisionStatus revision).1 = .waiting → revision.id ≠ "") := by
      simp [Identified, hkind, orRaise_eq_ok.mp hrevision]
    rw [hidentified, valid_iff]
    cases hdisposition : revision.recommendedDisposition <;>
      simp [replyState, nextState, revisionStatus, hdisposition]
  case close =>
    rw [Except.ok.injEq, transition, Prod.mk.injEq] at h
    obtain ⟨-, rfl⟩ := h
    exact iff_of_true (valid_iff.mpr (by simp [replyState, nextState]))
      (by simp [Identified, hkind])
  case reopen =>
    rw [Except.ok.injEq, transition, Prod.mk.injEq] at h
    obtain ⟨-, rfl⟩ := h
    exact iff_of_true (valid_iff.mpr (by simp [replyState, nextState]))
      (by simp [Identified, hkind])
  case wait =>
    rw [Except.ok.injEq, transition, Prod.mk.injEq] at h
    obtain ⟨-, rfl⟩ := h
    have hidentified : Identified decision ↔ decision.id ≠ "" := by simp [Identified, hkind]
    rw [hidentified, valid_iff]
    simp [replyState, nextState]

/-- An accepted decision records one state of the controller, newer than all recorded ones. -/
theorem apply_newest {fresh : FreshId} (hreadable : s.Readable)
    (h : s.apply decision fresh now = (s', .ok reply)) :
    (∃ computedFrom, LogsOf s' s (replyState reply) (some computedFrom)) ∧
    (replyState reply).id = decision.controllerRef ∧
    (∀ entry ∈ s.stateLog (replyState reply).id, olderThan entry.1 (replyState reply) = true) ∧
    (Valid (replyState reply) ↔ Identified decision) := by
  unfold apply at h
  cases hcurrent : s.requireCurrent decision with
  | error e =>
    rw [hcurrent] at h
    exact absurd (congrArg Prod.snd h) (by simp)
  | ok state =>
    rw [hcurrent] at h
    dsimp only at h
    cases hperform : (s.append now decision.controllerRef (.decision decision)).perform state
        decision fresh now with
    | error e =>
      rw [hperform] at h
      exact absurd (congrArg Prod.snd h) (by simp)
    | ok p =>
      obtain ⟨s'', reply'⟩ := p
      rw [hperform] at h
      obtain ⟨rfl, hreply⟩ := Prod.mk.inj h
      obtain rfl := Except.ok.inj hreply
      obtain ⟨next, hnext, hlogs, hreplied⟩ := perform_records hperform
      obtain rfl : replyState reply' = next := by
        rcases hreplied with rfl | ⟨p, rfl, hwaiting, -⟩
        · rfl
        · exact hwaiting
      obtain ⟨result, hget, hresult⟩ := Result.bind_eq_ok.mp (requireCurrent_eq_ok.mp hcurrent).1
      rw [orRaise_eq_ok.mp hresult] at hget
      obtain ⟨⟨computedFrom, hmem⟩, hmax⟩ := get_eq_some hget
      have hid : (replyState reply').id = decision.controllerRef :=
        hnext.id.trans (hreadable decision.controllerRef _ hmem).1
      refine ⟨⟨state, logsOf_append (fun _ => rfl) hlogs⟩, hid, fun entry hentry => ?_,
        valid_of_perform hperform⟩
      rw [hid] at hentry
      have hversion := hmax entry hentry
      have hnextVersion := hnext.version
      rw [olderThan, Bool.or_eq_true, decide_eq_true_eq]
      exact .inl (by omega)

/-- A decision that is not accepted leaves the recorded states. -/
theorem apply_error {fresh : FreshId} {e : PyError}
    (h : s.apply decision fresh now = (s', .error e)) (controllerId : String) :
    s'.stateLog controllerId = s.stateLog controllerId := by
  rcases apply_cases s decision fresh now with ⟨-, hlogs⟩ | ⟨_, _, _, -, -, -, hok, -⟩
  · rw [h] at hlogs
    exact hlogs controllerId
  · rw [h] at hok
    exact absurd hok (by simp)

end Operations

theorem Readable.of_logs {s s' : ControllerStore} (h : s.Readable)
    (hlogs : ∀ controllerId, s'.stateLog controllerId = s.stateLog controllerId) : s'.Readable := by
  intro controllerId entry hentry
  rw [hlogs] at hentry
  exact h controllerId entry hentry

/-- A decision whose ids are given keeps the recorded states readable. -/
theorem Readable.apply {s : ControllerStore} {decision : ControllerDecision} {fresh : FreshId}
    {now : Time} (h : s.Readable) (hid : Identified decision) :
    (s.apply decision fresh now).1.Readable := by
  cases happly : s.apply decision fresh now with
  | mk s' result =>
    cases result with
    | error e => exact h.of_logs (apply_error happly)
    | ok reply =>
      obtain ⟨⟨computedFrom, hlogs⟩, -, -, hvalid⟩ := apply_newest h happly
      exact h.record hlogs (hvalid.mpr hid)

end ControllerStore

namespace ControllerRun

open ControllerStore

/-- The state that a call has returned, when it is not at an await. -/
def recorded? : Result ControllerReply → Option ControllerState
  | .ok (.recorded state) => some state
  | _ => none

theorem recorded?_eq_some {result : Result ControllerReply} {state : ControllerState} :
    recorded? result = some state ↔ result = .ok (.recorded state) := by
  unfold recorded?
  split
  · simp
  · next hother =>
    refine iff_of_false (by simp) (fun h => hother state h)

/-- The state that a call returns at a move, and the controller it is of. -/
def returned (r : ControllerRun) : ControllerMove → Option (String × ControllerState)
  | .apply decision fresh now =>
    (recorded? (r.store.apply decision fresh now).2).map (decision.controllerRef, ·)
  | .step controllerId policy fresh now =>
    (recorded? (r.store.step controllerId policy fresh now).2).map (controllerId, ·)
  | .answered i resultRef now =>
    (r.pending[i]?).map (fun p => (p.waiting.id, (r.store.resume p resultRef now).2))
  | _ => none

/-- The state that is returned is read back next. -/
def ReadsBack (ids : StableId) (r : ControllerRun) (move : ControllerMove) : Prop :=
  ∀ controllerId state, r.returned move = some (controllerId, state) →
    (r.step ids move).store.get controllerId = .ok (some state)

/-- Decisions name what they wait for, and an invocation is resumed while the version after its
waiting state is newer than the recorded ones, or as new and recorded earlier. -/
def Recordable (r : ControllerRun) : ControllerMove → Prop
  | .apply decision _ _ => Identified decision
  | .step controllerId policy _ _ =>
    ∀ decision, r.store.select controllerId policy = .ok decision → Identified decision
  | .answered i _ now => ∀ p, r.pending[i]? = some p →
    ∀ entry ∈ r.store.stateLog p.waiting.id,
      entry.1.version < p.waiting.version + 1 ∨
        entry.1.version = p.waiting.version + 1 ∧ entry.1.updatedAt < now
  | _ => True

theorem select_controllerRef {s : ControllerStore} {controllerId : String}
    {policy : ControllerPolicy} {decision : ControllerDecision} (hreadable : s.Readable)
    (h : s.select controllerId policy = .ok decision) : decision.controllerRef = controllerId := by
  obtain ⟨state, hrequire, h⟩ := Result.bind_eq_ok.mp h
  obtain ⟨-, h⟩ := Result.check_eq_ok.mp h
  obtain ⟨selected, -, h⟩ := Result.bind_eq_ok.mp h
  obtain ⟨hof, h⟩ := Result.check_eq_ok.mp h
  obtain ⟨-, h⟩ := Result.check_eq_ok.mp h
  rw [Result.pure_eq_ok] at h
  obtain ⟨result, hget, hresult⟩ := Result.bind_eq_ok.mp hrequire
  rw [orRaise_eq_ok.mp hresult] at hget
  obtain ⟨⟨computedFrom, hmem⟩, -⟩ := get_eq_some hget
  rw [← h]
  exact (of_decide_eq_true (guardValue_eq_ok.mp hof)).trans (hreadable controllerId _ hmem).1

/-- The state that an accepted decision returns is read back exactly when its ids are given. -/
theorem get_apply {s s' : ControllerStore} {decision : ControllerDecision} {fresh : FreshId}
    {now : Time} {state : ControllerState} (hreadable : s.Readable)
    (h : s.apply decision fresh now = (s', .ok (.recorded state))) :
    s'.get decision.controllerRef = .ok (some state) ↔ Identified decision := by
  obtain ⟨⟨computedFrom, hlogs⟩, hid, hnewest, hvalid⟩ := apply_newest hreadable h
  rw [← hid, ← hvalid]
  exact get_of_newest hreadable hlogs hnewest

theorem readsBack_of_recordable {ids : StableId} {r : ControllerRun} {move : ControllerMove}
    (hreadable : r.store.Readable) (h : r.Recordable move) : r.ReadsBack ids move := by
  intro controllerId state hreturned
  cases move with
  | apply decision fresh now =>
    obtain ⟨recorded, hrecorded, hpair⟩ := Option.map_eq_some_iff.mp hreturned
    obtain ⟨rfl, rfl⟩ := Prod.mk.inj hpair
    exact (get_apply hreadable (Prod.ext rfl (recorded?_eq_some.mp hrecorded))).mpr h
  | step controllerId' policy fresh now =>
    obtain ⟨recorded, hrecorded, hpair⟩ := Option.map_eq_some_iff.mp hreturned
    obtain ⟨rfl, rfl⟩ := Prod.mk.inj hpair
    rw [ControllerRun.step]
    unfold ControllerStore.step at hrecorded ⊢
    cases hselect : r.store.select controllerId' policy with
    | error e =>
      rw [hselect] at hrecorded
      exact absurd hrecorded (by simp [recorded?])
    | ok decision =>
      rw [hselect] at hrecorded
      rw [← select_controllerRef hreadable hselect]
      have happly := recorded?_eq_some.mp hrecorded
      exact (get_apply hreadable (Prod.ext rfl happly)).mpr (h decision hselect)
  | answered i resultRef now =>
    obtain ⟨p, hp, hpair⟩ := Option.map_eq_some_iff.mp hreturned
    obtain ⟨rfl, rfl⟩ := Prod.mk.inj hpair
    rw [ControllerRun.step, hp]
    have hlogs : LogsOf (r.store.resume p resultRef now).1 r.store
        (r.store.resume p resultRef now).2 (some p.waiting) :=
      logsOf_append (fun _ => rfl) (logsOf_recordState _ _)
    have hvalid : Valid (r.store.resume p resultRef now).2 := valid_iff.mpr (by simp [resume])
    refine (get_of_newest hreadable hlogs (fun entry hentry => ?_)).mpr hvalid
    rw [olderThan, Bool.or_eq_true, Bool.and_eq_true, decide_eq_true_eq, decide_eq_true_eq,
      decide_eq_true_eq]
    exact h p hp entry hentry
  | _ => exact absurd hreturned (by simp [returned])

theorem readable_step {ids : StableId} {r : ControllerRun} {move : ControllerMove}
    (hreadable : r.store.Readable) (h : r.Recordable move) : (r.step ids move).store.Readable := by
  cases move with
  | create seed fresh now =>
    unfold ControllerRun.step
    dsimp only
    cases hcreate : r.store.create seed fresh now with
    | error e => exact hreadable
    | ok p =>
      obtain ⟨existing, -, hrest⟩ := Result.bind_eq_ok.mp hcreate
      obtain ⟨-, hrest⟩ := Result.check_eq_ok.mp hrest
      obtain rfl := Result.pure_eq_ok.mp hrest
      exact hreadable.record (logsOf_recordState _ none) (valid_iff.mpr (by simp))
  | apply decision fresh now => exact hreadable.apply h
  | step controllerId policy fresh now =>
    unfold ControllerRun.step ControllerStore.step
    dsimp only
    cases hselect : r.store.select controllerId policy with
    | error e => exact hreadable
    | ok decision => exact hreadable.apply (h decision hselect)
  | reopenRequired controllerId reason now =>
    unfold ControllerRun.step
    dsimp only
    cases hreopen : r.store.reopenRequired controllerId reason now with
    | error e => exact hreadable
    | ok p =>
      obtain ⟨state, -, hrest⟩ := Result.bind_eq_ok.mp hreopen
      obtain rfl := Result.pure_eq_ok.mp hrest
      exact hreadable.record (logsOf_append (fun _ => rfl) (logsOf_recordState _ (some state)))
        (valid_iff.mpr (by simp))
  | answered i resultRef now =>
    unfold ControllerRun.step
    dsimp only
    cases hp : r.pending[i]? with
    | none => exact hreadable
    | some p =>
      exact hreadable.record (logsOf_append (fun _ => rfl) (logsOf_recordState _ (some p.waiting)))
        (valid_iff.mpr (by simp))
  | failed i => exact hreadable
  | kernel call => exact hreadable
  | saveWork work => exact hreadable

theorem readable_run {ids : StableId} {moves : List ControllerMove}
    (h : Along (ControllerRun.step ids) Recordable {} moves) :
    (run (ControllerRun.step ids) {} moves).store.Readable := by
  refine run_invariant (I := fun r => r.store.Readable) (fun _ _ hreadable => readable_step hreadable)
    ?_ h
  intro controllerId entry hentry
  exact absurd hentry (by simp [stateLog])

/-- In every run whose decisions name what they wait for and whose invocations are resumed
into the newest state, each state that is returned is read back; and after such a run the
state that a decision returns is read back only if the decision names what it waits for. -/
theorem recorded_state_reads_back (ids : StableId) (moves : List ControllerMove)
    (h : Along (ControllerRun.step ids) Recordable {} moves) :
    Along (ControllerRun.step ids) (ReadsBack ids) {} moves ∧
    ∀ decision fresh now s' state,
      (run (ControllerRun.step ids) {} moves).store.apply decision fresh now =
        (s', .ok (.recorded state)) →
      (s'.get decision.controllerRef = .ok (some state) ↔ Identified decision) := by
  constructor
  · rw [along_iff_forall_step] at h ⊢
    intro pre move hpre
    refine readsBack_of_recordable (readable_run ?_) (h pre move hpre)
    rw [along_iff_forall_step]
    exact fun pre' move' hpre' =>
      h pre' move' (hpre'.trans ((List.prefix_append pre [move]).trans hpre))
  · exact fun decision fresh now s' state happly => get_apply (readable_run h) happly

end ControllerRun

namespace Listing

/-- A controller is created and told to wait under a decision of an id. -/
def waiting (id : String) : List ControllerMove :=
  [.create { controllerId := some "controller" } ⟨"fresh", Eq.refl true⟩ 0,
   .apply { id, controllerRef := "controller", stateVersion := 0, kind := .wait }
     ⟨"request", Eq.refl true⟩ 1]

end Listing

namespace ControllerRun

theorem recorded_state_listing :
    Along (ControllerRun.step Listing.ids) (ReadsBack Listing.ids) {}
      (Listing.waiting "decision") := by
  refine (recorded_state_reads_back Listing.ids (Listing.waiting "decision") ⟨trivial, ?_, trivial⟩).1
  exact (by decide : "decision" ≠ "")

/-- A decision of the empty id is accepted, and its controller cannot be read afterwards. -/
theorem recorded_state_unreadable :
    ((run (ControllerRun.step Listing.ids) {} ((Listing.waiting "").take 1)).returned
      (.apply { id := "", controllerRef := "controller", stateVersion := 0, kind := .wait }
        ⟨"request", Eq.refl true⟩ 1)).isSome = true ∧
    ((run (ControllerRun.step Listing.ids) {} (Listing.waiting "")).store.get
      "controller").isOk = false ∧
    ¬ Along (ControllerRun.step Listing.ids) (ReadsBack Listing.ids) {} (Listing.waiting "") := by
  have hunreadable : ((run (ControllerRun.step Listing.ids) {} (Listing.waiting "")).store.get
      "controller").isOk = false := by decide
  have hreturned : ((run (ControllerRun.step Listing.ids) {} ((Listing.waiting "").take 1)).returned
      (.apply { id := "", controllerRef := "controller", stateVersion := 0, kind := .wait }
        ⟨"request", Eq.refl true⟩ 1)).map Prod.fst = some "controller" := by decide
  obtain ⟨⟨controllerId, state⟩, hstate, hcontroller⟩ := Option.map_eq_some_iff.mp hreturned
  dsimp only at hcontroller
  refine ⟨by rw [hstate]; rfl, hunreadable, fun h => ?_⟩
  have hget := h.2.1 controllerId state hstate
  rw [hcontroller] at hget
  have hsame : (run (ControllerRun.step Listing.ids) {} (Listing.waiting "")).store.get
      "controller" = .ok (some state) := hget
  rw [hsame] at hunreadable
  exact Bool.noConfusion hunreadable

end ControllerRun
end PortableRuntime
