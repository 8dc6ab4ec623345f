import PortableRuntime.Controller.Phases

/-!
# Handing work off

The latest state of a controller shows the phase that its accepted decisions lead to.  The
closure of a phase is read back from the journal by its id, which the closure recorded last
answers to unless an earlier one of that id has as late a time.
-/

namespace PortableRuntime

/-! ## Closures of the journal -/

namespace ControllerStore

def formed (controllerId : String) (event : ControllerEvent) : Option (Time × CognitiveClosure) :=
  match event.record with
  | .closure _ closure =>
    if event.subjectRef = controllerId then some (event.createdAt, closure) else none
  | _ => none

/-- The closures of a controller with their times, in the order of their recording. -/
def formedLog (s : ControllerStore) (controllerId : String) : List (Time × CognitiveClosure) :=
  s.events.filterMap (formed controllerId)

/-- Every latest closure under an id has a reach, and there is one. -/
structure Told (s : ControllerStore) (controllerId : String) (closure : CognitiveClosure) :
    Prop where
  latest : ∀ e ∈ s.formedLog controllerId, e.2.id = closure.id →
    (∀ other ∈ s.formedLog controllerId, other.2.id = closure.id → other.1 ≤ e.1) →
      SameReach e.2 closure

section Formed

variable {s s' : ControllerStore} {controllerId : String} {now : Time}

theorem formedLog_append (subjectRef : String) (record : ControllerRecord) :
    (s.append now subjectRef record).formedLog controllerId =
      s.formedLog controllerId ++
        (formed controllerId { subjectRef, createdAt := now, record }).toList := by
  rw [formedLog, append, List.filterMap_append]
  rfl

theorem formedLog_append_of_none {subjectRef : String} {record : ControllerRecord}
    (h : formed controllerId { subjectRef, createdAt := now, record } = none) :
    (s.append now subjectRef record).formedLog controllerId = s.formedLog controllerId := by
  rw [formedLog_append, h]
  simp

theorem formedLog_recordState (state : ControllerState) (computedFrom : Option ControllerState) :
    (s.recordState now state computedFrom).formedLog controllerId = s.formedLog controllerId :=
  formedLog_append_of_none rfl

theorem formedLog_append_closure (subjectRef decisionRef : String) (closure : CognitiveClosure) :
    (s.append now subjectRef (.closure decisionRef closure)).formedLog controllerId =
      if subjectRef = controllerId then s.formedLog controllerId ++ [(now, closure)]
      else s.formedLog controllerId := by
  rw [formedLog_append, formed]
  dsimp only
  split <;> simp

/-- The closures that a read goes through, newest first. -/
theorem closures_eq (s : ControllerStore) (controllerId : String) :
    s.closures controllerId =
      ((s.listEvents controllerId).filterMap (formed controllerId)).map Prod.snd := by
  rw [closures, List.map_filterMap]
  refine List.filterMap_congr (fun e he => ?_)
  rw [listEvents, List.mem_insertionSort, List.mem_filter, decide_eq_true_eq] at he
  obtain ⟨subjectRef, createdAt, record⟩ := e
  obtain ⟨-, rfl⟩ := he
  cases record <;> simp [formed, ControllerEvent.asClosure]

theorem formed_pairwise (s : ControllerStore) (controllerId : String) :
    ((s.listEvents controllerId).filterMap (formed controllerId)).Pairwise
      (fun a b => b.1 ≤ a.1) := by
  have : Std.Total (fun a b : ControllerEvent => b.createdAt ≤ a.createdAt) :=
    ⟨fun a b => le_total b.createdAt a.createdAt⟩
  have : IsTrans ControllerEvent (fun a b => b.createdAt ≤ a.createdAt) :=
    ⟨fun _ _ _ hab hbc => hbc.trans hab⟩
  have hsorted := List.pairwise_insertionSort
    (fun a b : ControllerEvent => b.createdAt ≤ a.createdAt)
    (s.events.filter (fun e => e.subjectRef = controllerId))
  refine List.Pairwise.filterMap (formed controllerId) ?_ hsorted
  intro a a' hle b hb b' hb'
  have htime : ∀ (e : ControllerEvent) x, formed controllerId e = some x → x.1 = e.createdAt := by
    intro e x hx
    unfold formed at hx
    split at hx
    · split at hx
      · exact (Option.some.inj hx) ▸ rfl
      · exact absurd hx (by simp)
    · exact absurd hx (by simp)
  rw [htime a b hb, htime a' b' hb']
  exact hle

theorem mem_formed {x : Time × CognitiveClosure} :
    x ∈ (s.listEvents controllerId).filterMap (formed controllerId) ↔
      x ∈ s.formedLog controllerId := by
  rw [formedLog, List.mem_filterMap, List.mem_filterMap]
  refine exists_congr (fun e => ?_)
  rw [listEvents, List.mem_insertionSort, List.mem_filter, decide_eq_true_eq, and_assoc]
  refine and_congr_right (fun _ => and_iff_right_of_imp (fun hx => ?_))
  unfold formed at hx
  split at hx
  · split at hx
    · assumption
    · exact absurd hx (by simp)
  · exact absurd hx (by simp)

/-- A closure that is read is one of the latest under its id. -/
theorem getClosure_eq_some {closureId : String} {closure : CognitiveClosure}
    (h : s.getClosure controllerId closureId = some closure) :
    ∃ t, (t, closure) ∈ s.formedLog controllerId ∧ closure.id = closureId ∧
      ∀ other ∈ s.formedLog controllerId, other.2.id = closureId → other.1 ≤ t := by
  rw [getClosure, closures_eq, List.find?_map, Option.map_eq_some_iff] at h
  obtain ⟨⟨t, closure⟩, hfind, rfl⟩ := h
  obtain ⟨hid, before, after, hsplit, hbefore⟩ := List.find?_eq_some_iff_append.mp hfind
  refine ⟨t, ?_, by simpa using hid, fun other hother hother' => ?_⟩
  · rw [← mem_formed, hsplit]
    simp
  · have hpairwise := formed_pairwise s controllerId
    rw [hsplit] at hpairwise
    rw [← mem_formed, hsplit, List.mem_append, List.mem_cons] at hother
    rcases hother with hother | rfl | hother
    · exact absurd hother' (by simpa using hbefore other hother)
    · exact le_refl _
    · exact List.rel_of_pairwise_cons (List.pairwise_append.mp hpairwise).2.1 hother

end Formed

section Perform

variable {s s' : ControllerStore} {state : ControllerState} {decision : ControllerDecision}
  {fresh : FreshId} {now : Time} {reply : ControllerReply}

/-- Only a form-closure decision records a closure. -/
theorem perform_formed (h : s.perform state decision fresh now = .ok (s', reply))
    (controllerId : String) :
    (decision.kind ≠ .formClosure ∧ s'.formedLog controllerId = s.formedLog controllerId) ∨
    (decision.kind = .formClosure ∧ ∃ closure formed, decision.closure = some closure ∧
      formed.id = closure.id ∧ SameReach formed closure ∧
      s'.formedLog controllerId =
        if state.id = controllerId then s.formedLog controllerId ++ [(now, formed)]
        else s.formedLog controllerId) := by
  unfold perform at h
  cases hkind : decision.kind <;> rw [hkind] at h <;> dsimp only at h
  case invokeCapability =>
    obtain ⟨_, -, h⟩ := Result.bind_eq_ok.mp h
    rw [Result.pure_eq_ok, Prod.mk.injEq] at h
    obtain ⟨rfl, -⟩ := h
    exact .inl ⟨by simp, formedLog_recordState _ _⟩
  case formClosure =>
    obtain ⟨closure, hclosure, h⟩ := Result.bind_eq_ok.mp h
    obtain ⟨-, h⟩ := Result.check_eq_ok.mp h
    obtain ⟨-, h⟩ := Result.check_eq_ok.mp h
    obtain ⟨-, h⟩ := Result.check_eq_ok.mp h
    obtain ⟨-, h⟩ := Result.check_eq_ok.mp h
    obtain ⟨-, h⟩ := Result.check_eq_ok.mp h
    rw [Result.pure_eq_ok, transition, Prod.mk.injEq] at h
    obtain ⟨rfl, -⟩ := h
    refine .inr ⟨rfl, closure, _, orRaise_eq_ok.mp hclosure, ?_, ?_,
      (formedLog_recordState _ _).trans (formedLog_append_closure _ _ _)⟩
    · rfl
    · exact ⟨rfl, rfl⟩
  case proposeWork =>
    obtain ⟨_, -, h⟩ := Result.bind_eq_ok.mp h
    obtain ⟨_, -, h⟩ := Result.bind_eq_ok.mp h
    obtain ⟨_, -, h⟩ := Result.bind_eq_ok.mp h
    obtain ⟨_, -, h⟩ := Result.bind_eq_ok.mp h
    obtain ⟨_, -, h⟩ := Result.bind_eq_ok.mp h
    obtain ⟨_, -, h⟩ := Result.bind_eq_ok.mp h
    obtain ⟨_, -, h⟩ := Result.bind_eq_ok.mp h
    obtain ⟨-, h⟩ := Result.check_eq_ok.mp h
    obtain ⟨-, h⟩ := Result.check_eq_ok.mp h
    obtain ⟨_, -, h⟩ := Result.bind_eq_ok.mp h
    obtain ⟨⟨saved, responsibilities⟩, -, h⟩ := Result.bind_eq_ok.mp h
    rw [Result.pure_eq_ok, transition, Prod.mk.injEq] at h
    obtain ⟨rfl, -⟩ := h
    exact .inl ⟨by simp, (formedLog_recordState _ _).trans (formedLog_append_of_none rfl)⟩
  case assessRevision =>
    obtain ⟨_, -, h⟩ := Result.bind_eq_ok.mp h
    obtain ⟨_, -, h⟩ := Result.bind_eq_ok.mp h
    obtain ⟨_, -, h⟩ := Result.bind_eq_ok.mp h
    obtain ⟨-, h⟩ := Result.check_eq_ok.mp h
    obtain ⟨_, -, h⟩ := Result.bind_eq_ok.mp h
    obtain ⟨-, h⟩ := Result.check_eq_ok.mp h
    obtain ⟨-, h⟩ := Result.check_eq_ok.mp h
    rw [Result.pure_eq_ok, transition, Prod.mk.injEq] at h
    obtain ⟨rfl, -⟩ := h
    exact .inl ⟨by simp, (formedLog_recordState _ _).trans (formedLog_append_of_none rfl)⟩
  all_goals
    rw [Except.ok.injEq, transition, Prod.mk.injEq] at h
    obtain ⟨rfl, -⟩ := h
    exact .inl ⟨by simp, formedLog_recordState _ _⟩

end Perform

end ControllerStore

/-- An object like a proposal is a proposal of the same reach. -/
theorem ResponsibilityObject.eq_proposal_of_sameSemantics {existing : ResponsibilityObject}
    {p : WorkProposal} (h : existing.sameSemantics (.proposal p) = true) :
    ∃ q, existing = .proposal q ∧ q.effectClass = p.effectClass ∧
      q.requestedCapabilities = p.requestedCapabilities := by
  cases existing with
  | proposal q =>
    have hfields : ({ q with createdAt := 0 } == { p with createdAt := 0 }) = true := h
    simp only [BEq.beq, instBEqWorkProposal.beq, Bool.and_eq_true] at hfields
    obtain ⟨-, -, -, -, -, -, -, -, -, hcapabilities, -, -, -, heffect, -⟩ := hfields
    exact ⟨q, rfl, of_decide_eq_true heffect, eq_of_beq (α := List String) hcapabilities⟩
  | _ => exact absurd h Bool.false_ne_true

namespace ResponsibilityStore

/-- A proposal that is saved is stored under its id with the reach it was given. -/
theorem propose_stored {s s' : ResponsibilityStore} {proposal : WorkProposal} {now : Time}
    {saved : ResponsibilityObject} (h : s.propose proposal now = .ok (saved, s')) :
    ∃ stored, s'.journalGet saved.id = some (.proposal stored) ∧
      stored.effectClass = proposal.effectClass ∧
      stored.requestedCapabilities = proposal.requestedCapabilities := by
  obtain ⟨_, -, h⟩ := Result.bind_eq_ok.mp h
  obtain ⟨_, -, h⟩ := Result.bind_eq_ok.mp h
  obtain ⟨-, h⟩ := Result.check_eq_ok.mp h
  obtain ⟨_, -, h⟩ := Result.bind_eq_ok.mp h
  obtain ⟨-, h⟩ := Result.check_eq_ok.mp h
  obtain ⟨-, h⟩ := Result.check_eq_ok.mp h
  obtain ⟨-, h⟩ := Result.check_eq_ok.mp h
  obtain ⟨-, h⟩ := Result.check_eq_ok.mp h
  unfold saveAppendOnly at h
  cases hget : s.journalGet (ResponsibilityObject.proposal proposal).id with
  | some existing =>
    rw [hget] at h
    dsimp only at h
    split at h
    · next hsame =>
      rw [Except.ok.injEq, Prod.mk.injEq] at h
      obtain ⟨rfl, rfl⟩ := h
      obtain ⟨stored, rfl, heffect, hcapabilities⟩ :=
        ResponsibilityObject.eq_proposal_of_sameSemantics hsame
      refine ⟨stored, ?_, heffect, hcapabilities⟩
      rw [id_of_journalGet hget]
      exact hget
    · exact absurd h (by simp [raiseValue])
  | none =>
    rw [hget, journalSave_of_none hget, Except.ok.injEq, Prod.mk.injEq] at h
    obtain ⟨rfl, rfl⟩ := h
    refine ⟨proposal, ?_, rfl, rfl⟩
    rw [journalGet_record, if_pos rfl]

end ResponsibilityStore

namespace ControllerStore

theorem apply_eq_ok {s s' : ControllerStore} {decision : ControllerDecision} {fresh : FreshId}
    {now : Time} {reply : ControllerReply} (h : s.apply decision fresh now = (s', .ok reply)) :
    ∃ state, s.requireCurrent decision = .ok state ∧
      (s.append now decision.controllerRef (.decision decision)).perform state decision fresh now =
        .ok (s', reply) := by
  unfold apply at h
  cases hcurrent : s.requireCurrent decision with
  | error e =>
    rw [hcurrent] at h
    exact absurd (Prod.mk.inj h).2 (by simp)
  | ok state =>
    rw [hcurrent] at h
    dsimp only at h
    refine ⟨state, rfl, ?_⟩
    cases hperform : (s.append now decision.controllerRef (.decision decision)).perform state
        decision fresh now with
    | error e =>
      rw [hperform] at h
      exact absurd (Prod.mk.inj h).2 (by simp)
    | ok p =>
      rw [hperform] at h
      obtain ⟨rfl, hreply⟩ := Prod.mk.inj h
      rw [← Except.ok.inj hreply]

/-- An accepted hand-off is within the closure that the journal has under the active id. -/
theorem perform_proposal {s s' : ControllerStore} {state : ControllerState}
    {decision : ControllerDecision} {fresh : FreshId} {now : Time} {reply : ControllerReply}
    (h : s.perform state decision fresh now = .ok (s', reply))
    (hkind : decision.kind = .proposeWork) :
    ∃ closureRef closure proposal, state.activeClosureRef = some closureRef ∧
      s.getClosure state.id closureRef = some closure ∧ s'.proposalOf reply = some proposal ∧
      ProposedWithin proposal closure := by
  unfold perform at h
  rw [hkind] at h
  dsimp only at h
  obtain ⟨responsibilityRef, -, h⟩ := Result.bind_eq_ok.mp h
  obtain ⟨subjectRef, -, h⟩ := Result.bind_eq_ok.mp h
  obtain ⟨assessmentRef, -, h⟩ := Result.bind_eq_ok.mp h
  obtain ⟨workTitle, -, h⟩ := Result.bind_eq_ok.mp h
  obtain ⟨closureRef, hactive, h⟩ := Result.bind_eq_ok.mp h
  obtain ⟨closure, hclosure, h⟩ := Result.bind_eq_ok.mp h
  obtain ⟨effect, -, h⟩ := Result.bind_eq_ok.mp h
  obtain ⟨-, h⟩ := Result.check_eq_ok.mp h
  obtain ⟨hsubset, h⟩ := Result.check_eq_ok.mp h
  obtain ⟨definition, -, h⟩ := Result.bind_eq_ok.mp h
  obtain ⟨⟨saved, responsibilities⟩, hpropose, h⟩ := Result.bind_eq_ok.mp h
  rw [Result.pure_eq_ok, transition, Prod.mk.injEq] at h
  obtain ⟨rfl, rfl⟩ := h
  obtain ⟨stored, hstored, heffect, hcapabilities⟩ := ResponsibilityStore.propose_stored hpropose
  obtain ⟨-, hactive⟩ := Option.filter_eq_some_iff.mp (orRaise_eq_ok.mp hactive)
  refine ⟨closureRef, closure, stored, (of_decide_eq_true hactive).symm, orRaise_eq_ok.mp hclosure,
    ?_, heffect, ?_⟩
  · change ((some saved.id).bind responsibilities.journalGet).bind (·.asProposal) = some stored
    rw [Option.bind_some, hstored]
    rfl
  · intro capability hcapability
    rw [hcapabilities] at hcapability
    dsimp only [workProposal] at hcapability
    split at hcapability
    · exact hcapability
    · have hall := List.all_eq_true.mp (guardValue_eq_ok.mp hsubset) capability hcapability
      exact List.contains_iff_mem.mp hall

end ControllerStore

section Allowed

variable {state : ControllerState} {kind : ControllerDecisionKind}

theorem ControllerStore.allowed_exploring (h : kind ∈ allowed state)
    (hkind : kind = .formClosure ∨ kind = .invokeCapability) :
    state.status = .open ∧ state.activeClosureRef = none := by
  unfold allowed at h
  rcases hkind with rfl | rfl <;> cases hstatus : state.status <;> rw [hstatus] at h <;>
    dsimp only at h
  case inl.open | inr.open =>
    split at h
    · next hnone => exact ⟨rfl, Option.isNone_iff_eq_none.mp hnone⟩
    · exact absurd h (by simp)
  case inl.waiting | inr.waiting => split at h <;> exact absurd h (by simp)
  all_goals exact absurd h (by simp)

theorem ControllerStore.allowed_proposeWork (h : .proposeWork ∈ allowed state) :
    state.status = .open ∧ state.activeClosureRef.isSome = true := by
  unfold allowed at h
  cases hstatus : state.status <;> rw [hstatus] at h <;> dsimp only at h
  case «open» =>
    split at h
    · exact absurd h (by simp)
    · next hsome => exact ⟨rfl, Option.isSome_iff_ne_none.mpr (by simpa using hsome)⟩
  case waiting => split at h <;> exact absurd h (by simp)
  all_goals exact absurd h (by simp)

end Allowed

/-! ## What the latest state shows of the phase -/

namespace HandoffPhase

structure Shown (phase : HandoffPhase) (state : ControllerState) : Prop where
  closure : state.activeClosureRef = phase.closure?.map (·.id)
  proposal : state.workProposalRef.isSome = true ↔ phase.IsHandedOff

section Shown

variable {phase : HandoffPhase} {state state' : ControllerState} {decision : ControllerDecision}

theorem Shown.same (h : phase.Shown state)
    (hclosure : state'.activeClosureRef = state.activeClosureRef)
    (hproposal : state'.workProposalRef = state.workProposalRef) : phase.Shown state' where
  closure := hclosure.trans h.closure
  proposal := by rw [hproposal, h.proposal]

theorem Shown.exploring (h : phase.Shown state) (hnone : state.activeClosureRef = none) :
    phase = .exploring := by
  have hclosure := h.closure
  rw [hnone] at hclosure
  cases phase with
  | exploring => rfl
  | closed closure => exact absurd hclosure (by simp [closure?])
  | handedOff closure => exact absurd hclosure (by simp [closure?])

theorem Shown.closed (h : phase.Shown state) (hsome : state.activeClosureRef.isSome = true)
    (hproposal : state.workProposalRef = none) : ∃ closure, phase = .closed closure := by
  have hclosure := h.closure
  cases phase with
  | exploring =>
    rw [hclosure] at hsome
    exact absurd hsome (by simp [closure?])
  | closed closure => exact ⟨closure, rfl⟩
  | handedOff closure =>
    have hhanded := h.proposal.mpr trivial
    rw [hproposal] at hhanded
    exact absurd hhanded (by simp)

/-- An admitted decision is a letter of the automaton from the phase that the state shows, and
the next state shows where it leads. -/
theorem Shown.step (h : phase.Shown state) (hcoherent : state.Coherent)
    (hallowed : decision.kind ∈ ControllerStore.allowed state)
    (hnext : ControllerStore.NextOf decision state' state) (proposal : Option WorkProposal) :
    ∃ phase', phase.next { decision, proposal } = some phase' ∧ phase'.Shown state' ∧
      state'.Coherent := by
  obtain ⟨-, hclosure, hproposal, hstatus⟩ := hnext
  cases hkind : decision.kind <;> rw [hkind] at hallowed hclosure hproposal hstatus <;>
    dsimp only at hclosure hproposal
  case formClosure =>
    obtain ⟨hopen, hnone⟩ := ControllerStore.allowed_exploring hallowed (.inl rfl)
    obtain rfl := h.exploring hnone
    obtain ⟨closure, hformed⟩ : ∃ closure, decision.closure = some closure := by
      have hbound := decision.closureBound hkind
      cases hdecision : decision.closure with
      | none => rw [hdecision] at hbound; exact absurd hbound (by simp)
      | some closure => exact ⟨closure, rfl⟩
    have hunproposed : state'.workProposalRef = none := hproposal.trans (hcoherent.fresh hopen)
    refine ⟨.closed closure, by simp [HandoffPhase.next, hkind, hformed], ⟨?_, ?_⟩, ?_, ?_⟩
    · rw [hclosure, hformed]
      rfl
    · simp [hunproposed, IsHandedOff]
    · simp [hunproposed]
    · exact fun _ => hunproposed
  case proposeWork =>
    obtain ⟨hopen, hsome⟩ := ControllerStore.allowed_proposeWork hallowed
    obtain ⟨closure, rfl⟩ := h.closed hsome (hcoherent.fresh hopen)
    refine ⟨.handedOff closure, by simp [HandoffPhase.next, hkind], ⟨?_, ?_⟩, ?_, ?_⟩
    · exact hclosure.trans h.closure
    · exact iff_of_true hproposal trivial
    · exact fun _ => by rw [hclosure]; exact hsome
    · exact fun hopen' => absurd (hstatus hopen') (by simp)
  case reopen =>
    refine ⟨.exploring, by simp [HandoffPhase.next, hkind], ⟨hclosure, ?_⟩, ?_, ?_⟩
    · simp [hproposal, IsHandedOff]
    · simp [hproposal]
    · exact fun _ => hproposal
  all_goals
    refine ⟨phase, by simp [HandoffPhase.next, hkind], h.same hclosure hproposal, ?_, ?_⟩
    · intro hhanded
      rw [hproposal] at hhanded
      rw [hclosure]
      exact hcoherent.handed hhanded
    · exact fun hopen => absurd (hstatus hopen) (by simp)

end Shown
end HandoffPhase

/-! ## Runs -/

/-- What a run and the decisions that it accepted have to do with each other. -/
structure Tracked (log : List Accepted) (s : ControllerStore) : Prop where
  sound : ControllerRun.Sound ⟨s, []⟩
  coherent : ∀ controllerId, ∀ entry ∈ s.stateLog controllerId, entry.1.Coherent
  phased : ∀ controllerId, ∃ phase,
    (decisionsOf controllerId log).foldlM HandoffPhase.next .exploring = some phase ∧
    (∀ state, s.lastState controllerId = some state → phase.Shown state) ∧
    (s.lastState controllerId = none → phase = .exploring)

section Tracked

variable {log : List Accepted} {s s' : ControllerStore} {ids : StableId}

theorem decisionsOf_concat (controllerId : String) (x : Accepted) :
    decisionsOf controllerId (log ++ [x]) =
      if x.decision.controllerRef = controllerId then decisionsOf controllerId log ++ [x]
      else decisionsOf controllerId log := by
  rw [decisionsOf, List.filter_append, List.filter_singleton]
  split <;> simp_all [decisionsOf]

theorem ControllerStore.lastState_of_logsOf {next : ControllerState}
    {computedFrom : Option ControllerState} (h : ControllerStore.LogsOf s' s next computedFrom)
    (controllerId : String) :
    s'.lastState controllerId =
      if next.id = controllerId then some next else s.lastState controllerId := by
  rw [lastState, h controllerId]
  split
  · simp
  · rfl

theorem Tracked.empty : Tracked [] {} where
  sound := ControllerRun.Sound.empty
  coherent _ _ h := absurd h (by simp [ControllerStore.stateLog])
  phased _ := ⟨.exploring, rfl, fun _ h => absurd h (by simp [ControllerStore.lastState,
    ControllerStore.stateLog]), fun _ => rfl⟩

theorem Tracked.unchanged (h : Tracked log s)
    (hlogs : ∀ controllerId, s'.stateLog controllerId = s.stateLog controllerId) :
    Tracked log s' where
  sound := h.sound.unchanged hlogs (fun _ hp => hp)
  coherent controllerId := (hlogs controllerId).symm ▸ h.coherent controllerId
  phased controllerId := by
    rw [ControllerStore.lastState, hlogs]
    exact h.phased controllerId

theorem Tracked.silent (h : Tracked log s) : Tracked (log ++ (none : Option Accepted).toList) s := by
  rwa [Option.toList_none, List.append_nil]

/-- One state is recorded, and shows where the decisions of its controller lead. -/
theorem Tracked.record (h : Tracked log s) {log' : List Accepted} {next : ControllerState}
    {computedFrom : Option ControllerState} (hsound : ControllerRun.Sound ⟨s', []⟩)
    (hlogs : ControllerStore.LogsOf s' s next computedFrom) (hcoherent : next.Coherent)
    (hothers : ∀ controllerId, next.id ≠ controllerId →
      decisionsOf controllerId log' = decisionsOf controllerId log)
    (hphase : ∃ phase, (decisionsOf next.id log').foldlM HandoffPhase.next .exploring =
      some phase ∧ phase.Shown next) : Tracked log' s' where
  sound := hsound
  coherent controllerId entry hentry := by
    rw [hlogs controllerId] at hentry
    split at hentry
    · rcases List.mem_append.mp hentry with hold | hnew
      · exact h.coherent controllerId entry hold
      · rw [List.mem_singleton.mp hnew]
        exact hcoherent
    · exact h.coherent controllerId entry hentry
  phased controllerId := by
    rw [ControllerStore.lastState_of_logsOf hlogs]
    by_cases hid : next.id = controllerId
    · subst hid
      obtain ⟨phase, hword, hshown⟩ := hphase
      refine ⟨phase, hword, fun state hstate => ?_, fun hnone => absurd hnone (by simp)⟩
      rw [if_pos rfl, Option.some.injEq] at hstate
      exact hstate ▸ hshown
    · rw [if_neg hid, hothers controllerId hid]
      exact h.phased controllerId

/-- The state that a call reads: its phase, and that it is coherent. -/
theorem Tracked.required (h : Tracked log s) {controllerId : String} {state : ControllerState}
    (hrequire : s.require controllerId = .ok state) :
    state.id = controllerId ∧ state.Coherent ∧ ∃ phase,
      (decisionsOf controllerId log).foldlM HandoffPhase.next .exploring = some phase ∧
      phase.Shown state := by
  have hlineage := h.sound.lineage controllerId
  obtain ⟨hid, hlast⟩ := ControllerStore.lastState_of_require hlineage hrequire
  obtain ⟨phase, hword, hshown, -⟩ := h.phased controllerId
  obtain ⟨entry, hentry, rfl⟩ := Option.map_eq_some_iff.mp hlast
  refine ⟨hid, h.coherent controllerId entry (List.mem_of_getLast? hentry), phase, hword, ?_⟩
  exact hshown entry.1 hlast

theorem Tracked.resume (h : Tracked log s) {p : PendingInvocation} (resultRef : String)
    (now : Time) (hlast : s.lastState p.waiting.id = some p.waiting)
    (hunproposed : p.waiting.workProposalRef = none) :
    Tracked log (s.resume p resultRef now).1 := by
  have hlogs : ControllerStore.LogsOf (s.resume p resultRef now).1 s
      (s.resume p resultRef now).2 (some p.waiting) :=
    ControllerStore.logsOf_append (fun _ => rfl) (ControllerStore.logsOf_recordState _ _)
  have hsound : ControllerRun.Sound ⟨(s.resume p resultRef now).1, []⟩ :=
    h.sound.record hlogs ((h.sound.lineage p.waiting.id).length_of_last hlast) hlast.symm
      (fun _ hp => .inl hp)
  obtain ⟨phase, hword, hshown, -⟩ := h.phased p.waiting.id
  refine h.record hsound hlogs ⟨?_, fun _ => hunproposed⟩ (fun _ _ => rfl) ⟨phase, hword, ?_⟩
  · intro hhanded
    exact absurd hhanded (by simp [ControllerStore.resume, hunproposed])
  · exact (hshown _ hlast).same rfl rfl

/-- A decision that is accepted. -/
theorem Tracked.decided (h : Tracked log s) {decision : ControllerDecision}
    {state next : ControllerState} (proposal : Option WorkProposal)
    (hcurrent : s.requireCurrent decision = .ok state)
    (hnext : ControllerStore.NextOf decision next state)
    (hlogs : ControllerStore.LogsOf s' s next (some state)) :
    Tracked (log ++ [⟨decision, proposal⟩]) s' := by
  obtain ⟨hrequire, -, hallowed⟩ := ControllerStore.requireCurrent_eq_ok.mp hcurrent
  obtain ⟨hid, hcoherent, phase, hword, hshown⟩ := h.required hrequire
  have hnextId : next.id = decision.controllerRef := hnext.id.trans hid
  obtain ⟨phase', hletter, hshown', hcoherent'⟩ := hshown.step hcoherent hallowed hnext proposal
  have hsound : ControllerRun.Sound ⟨s', []⟩ :=
    h.sound.computed hrequire hnext.toComputedFrom hlogs (fun _ hp => .inl hp)
  refine h.record hsound hlogs hcoherent' (fun controllerId hother => ?_) ⟨phase', ?_, hshown'⟩
  · rw [decisionsOf_concat, if_neg (hnextId ▸ hother)]
  · rw [decisionsOf_concat, hnextId, if_pos rfl, foldlM_concat, hword]
    exact hletter

theorem Tracked.accepted (h : Tracked log s) {decision : ControllerDecision} {fresh : FreshId}
    {now : Time} {reply : ControllerReply}
    (happly : s.apply decision fresh now = (s', .ok reply)) :
    Tracked (log ++ [⟨decision, s'.proposalOf reply⟩]) s' := by
  obtain ⟨state, hcurrent, hperform⟩ := ControllerStore.apply_eq_ok happly
  obtain ⟨next, hnext, hlogs, -⟩ := ControllerStore.perform_records hperform
  exact h.decided _ hcurrent hnext (ControllerStore.logsOf_append (fun _ => rfl) hlogs)

theorem Tracked.applied (h : Tracked log s) (decision : ControllerDecision) (fresh : FreshId)
    (now : Time) (answer : Option (String × Time)) :
    Tracked (log ++ ((SequentialCall.apply decision fresh now answer).accepted s).toList)
      (s.applied decision fresh now answer) := by
  have hcases := ControllerStore.apply_cases s decision fresh now
  unfold SequentialCall.accepted ControllerStore.applied
  dsimp only
  generalize s.apply decision fresh now = outcome at hcases
  obtain ⟨s₁, result⟩ := outcome
  dsimp only at hcases ⊢
  rcases hcases with ⟨⟨e, rfl⟩, hlogs⟩ | ⟨state, next, reply, hcurrent, hnext, hlogs, rfl, hreply⟩
  · rw [Option.toList_none, List.append_nil]
    exact h.unchanged hlogs
  · have hdecided := h.decided (s₁.proposalOf reply) hcurrent hnext hlogs
    rcases hreply with rfl | ⟨p, rfl, hwaiting, hkind⟩
    · exact hdecided
    · cases answer with
      | none => exact hdecided
      | some answered =>
        have hallowed := (ControllerStore.requireCurrent_eq_ok.mp hcurrent).2.2
        obtain ⟨-, hnone⟩ := ControllerStore.allowed_exploring hallowed (.inr hkind)
        have hclosure := hnext.closure
        have hproposal := hnext.proposal
        rw [hkind] at hclosure hproposal
        dsimp only at hclosure hproposal
        refine hdecided.resume answered.1 answered.2 ?_ ?_
        · rw [ControllerStore.lastState_of_logsOf hlogs, hwaiting, if_pos rfl]
        · have hcoherent := (h.required (ControllerStore.requireCurrent_eq_ok.mp hcurrent).1).2.1
          rw [hwaiting, hproposal]
          by_contra hsome
          have hhanded := hcoherent.handed (Option.isSome_iff_ne_none.mpr hsome)
          rw [hnone] at hhanded
          exact absurd hhanded (by simp)

theorem Tracked.step (h : Tracked log s) (call : SequentialCall) :
    Tracked (log ++ (call.accepted s).toList) (call.step ids s) := by
  cases call with
  | apply decision fresh now answer => exact h.applied decision fresh now answer
  | create seed fresh now =>
    have hsound := @ControllerRun.Sound.step ids _ (.create seed fresh now) h.sound trivial
    refine .silent ?_
    unfold SequentialCall.step
    unfold ControllerRun.step at hsound
    dsimp only at hsound ⊢
    cases hcreate : s.create seed fresh now with
    | error e => exact h
    | ok p =>
      rw [hcreate] at hsound
      obtain ⟨existing, hget, hrest⟩ := Result.bind_eq_ok.mp hcreate
      obtain ⟨hnone, hrest⟩ := Result.check_eq_ok.mp hrest
      obtain rfl := Result.pure_eq_ok.mp hrest
      rw [guardValue_eq_ok, Option.isNone_iff_eq_none] at hnone
      subst hnone
      refine h.record hsound (ControllerStore.logsOf_recordState _ none) ⟨by simp, by simp⟩
        (fun _ _ => rfl) ?_
      obtain ⟨phase, hword, -, hexploring⟩ := h.phased (seed.controllerId.filter (· ≠ "") |>.getD
        fresh.text)
      refine ⟨phase, hword, ?_⟩
      rw [hexploring (by rw [ControllerStore.lastState, ControllerStore.get_eq_none hget]; rfl)]
      exact ⟨rfl, by simp [HandoffPhase.IsHandedOff]⟩
  | reopenRequired controllerId reason now =>
    have hsound := @ControllerRun.Sound.step ids _ (.reopenRequired controllerId reason now) h.sound
      trivial
    refine .silent ?_
    unfold SequentialCall.step
    unfold ControllerRun.step at hsound
    dsimp only at hsound ⊢
    cases hreopen : s.reopenRequired controllerId reason now with
    | error e => exact h
    | ok p =>
      rw [hreopen] at hsound
      obtain ⟨state, hrequire, hrest⟩ := Result.bind_eq_ok.mp hreopen
      obtain rfl := Result.pure_eq_ok.mp hrest
      obtain ⟨hid, hcoherent, phase, hword, hshown⟩ := h.required hrequire
      refine h.record hsound (ControllerStore.logsOf_append (fun _ => rfl)
        (ControllerStore.logsOf_recordState _ _)) ⟨hcoherent.handed, by simp⟩ (fun _ _ => rfl)
        ⟨phase, ?_, hshown.same rfl rfl⟩
      rw [hid]
      exact hword
  | kernel call =>
    exact .silent (h.unchanged (fun _ => rfl))
  | saveWork work =>
    exact .silent (h.unchanged (fun _ => rfl))

end Tracked

/-! ## Hand-offs within the closure formed last -/

/-- A closure that takes an id which closures of the controller have is later than each of
them, or has the same reach. -/
def ClosesAnew (s : ControllerStore) : SequentialCall → Prop
  | .apply decision _ now _ =>
    (∃ state, s.requireCurrent decision = .ok state) → decision.kind = .formClosure →
      ∀ closure, decision.closure = some closure →
        ∀ e ∈ s.formedLog decision.controllerRef, e.2.id = closure.id →
          e.1 < now ∨ SameReach e.2 closure
  | _ => True

namespace ControllerStore

section Told

variable {s s' : ControllerStore} {controllerId : String} {closure : CognitiveClosure}

theorem Told.unchanged (h : s.Told controllerId closure)
    (hlog : s'.formedLog controllerId = s.formedLog controllerId) :
    s'.Told controllerId closure where
  latest := hlog.symm ▸ h.latest

theorem Told.read (h : s.Told controllerId closure) {read : CognitiveClosure}
    (hread : s.getClosure controllerId closure.id = some read) : SameReach read closure := by
  obtain ⟨t, hmem, hid, hlatest⟩ := getClosure_eq_some hread
  exact h.latest (t, read) hmem hid hlatest

theorem told_of_formed {formed : CognitiveClosure} {now : Time} (hid : formed.id = closure.id)
    (hreach : SameReach formed closure)
    (hlog : s'.formedLog controllerId = s.formedLog controllerId ++ [(now, formed)])
    (hanew : ∀ e ∈ s.formedLog controllerId, e.2.id = closure.id →
      e.1 < now ∨ SameReach e.2 closure) : s'.Told controllerId closure where
  latest e he heid hlatest := by
    rw [hlog] at he hlatest
    rcases List.mem_append.mp he with hold | hnew
    · rcases hanew e hold heid with hearlier | hsame
      · have hle : now ≤ e.1 := hlatest (now, formed) (by simp) hid
        exact absurd hearlier (not_lt.mpr hle)
      · exact hsame
    · rw [List.mem_singleton.mp hnew]
      exact hreach

end Told

theorem formedLog_apply_error {s s' : ControllerStore} {decision : ControllerDecision}
    {fresh : FreshId} {now : Time} {e : PyError}
    (h : s.apply decision fresh now = (s', .error e)) (controllerId : String) :
    s'.formedLog controllerId = s.formedLog controllerId := by
  unfold apply at h
  split at h
  · rw [← (Prod.mk.inj h).1]
  · dsimp only at h
    split at h
    · rw [← (Prod.mk.inj h).1]
      exact formedLog_append_of_none rfl
    · exact absurd (Prod.mk.inj h).2 (by simp)

/-- What follows the await of an invocation forms no closure. -/
theorem formedLog_applied (s : ControllerStore) (decision : ControllerDecision) (fresh : FreshId)
    (now : Time) (answer : Option (String × Time)) (controllerId : String) :
    (s.applied decision fresh now answer).formedLog controllerId =
      (s.apply decision fresh now).1.formedLog controllerId := by
  unfold applied
  generalize s.apply decision fresh now = outcome
  obtain ⟨s₁, result⟩ := outcome
  cases result with
  | error e => rfl
  | ok reply =>
    cases reply with
    | recorded state => rfl
    | invoked p =>
      cases answer with
      | none => rfl
      | some answered => exact (formedLog_recordState _ _).trans (formedLog_append_of_none rfl)

end ControllerStore

theorem WithinLastClosure.concat {log : List Accepted} (h : WithinLastClosure log) {y : Accepted}
    (hy : y.decision.kind = .proposeWork →
      ∃ a c b closure proposal, log = a ++ c :: b ∧ c.decision.kind = .formClosure ∧
        (∀ x ∈ b, x.decision.kind ≠ .formClosure) ∧ c.decision.closure = some closure ∧
        y.proposal = some proposal ∧ ProposedWithin proposal closure) :
    WithinLastClosure (log ++ [y]) := by
  intro before x after hsplit hx
  rcases List.eq_nil_or_concat after with rfl | ⟨after, z, rfl⟩
  · obtain ⟨rfl, hxy⟩ := List.append_inj' hsplit rfl
    rw [List.cons.injEq] at hxy
    obtain ⟨rfl, -⟩ := hxy
    exact hy hx
  · rw [List.concat_eq_append, ← List.cons_append, ← List.append_assoc] at hsplit
    obtain ⟨rfl, -⟩ := List.append_inj' hsplit rfl
    exact h before x after rfl hx

/-- A tracked run in which the journal tells the closure of every phase. -/
structure Handed (log : List Accepted) (s : ControllerStore) : Prop extends Tracked log s where
  told : ∀ controllerId phase closure,
    (decisionsOf controllerId log).foldlM HandoffPhase.next .exploring = some phase →
      phase.closure? = some closure → s.Told controllerId closure
  within : ∀ controllerId, WithinLastClosure (decisionsOf controllerId log)

section Handed

variable {log : List Accepted} {s s' : ControllerStore} {ids : StableId}

theorem Handed.empty : Handed [] {} where
  toTracked := Tracked.empty
  told _ phase closure hword hclosure := by
    obtain rfl := Option.some.inj hword
    exact absurd hclosure (by simp [HandoffPhase.closure?])
  within _ before y after hlog := by
    exact absurd hlog (by simp [decisionsOf])

theorem Handed.unchanged (h : Handed log s) (htracked : Tracked log s')
    (hlogs : ∀ controllerId, s'.formedLog controllerId = s.formedLog controllerId) :
    Handed log s' where
  toTracked := htracked
  told controllerId phase closure hword hclosure :=
    (h.told controllerId phase closure hword hclosure).unchanged (hlogs controllerId)
  within := h.within

theorem Handed.silent (h : Handed log s) {call : SequentialCall}
    (htracked : Tracked (log ++ (call.accepted s).toList) s') (hnone : call.accepted s = none)
    (hlogs : ∀ controllerId, s'.formedLog controllerId = s.formedLog controllerId) :
    Handed (log ++ (call.accepted s).toList) s' := by
  rw [hnone, Option.toList_none, List.append_nil] at htracked ⊢
  exact h.unchanged htracked hlogs

/-- An accepted decision whose closure, if it forms one, is told from the earlier ones. -/
theorem Handed.decided (h : Handed log s) {decision : ControllerDecision} {fresh : FreshId}
    {now : Time} {reply : ControllerReply}
    (happly : s.apply decision fresh now = (s', .ok reply))
    (hanew : decision.kind = .formClosure → ∀ closure, decision.closure = some closure →
      ∀ e ∈ s.formedLog decision.controllerRef, e.2.id = closure.id →
        e.1 < now ∨ SameReach e.2 closure) :
    Handed (log ++ [⟨decision, s'.proposalOf reply⟩]) s' := by
  obtain ⟨state, hcurrent, hperform⟩ := ControllerStore.apply_eq_ok happly
  obtain ⟨hrequire, -, hallowed⟩ := ControllerStore.requireCurrent_eq_ok.mp hcurrent
  obtain ⟨hid, -, phase, hword, hshown⟩ := h.required hrequire
  have hdecided : ∀ controllerId, (s.append now decision.controllerRef
      (.decision decision)).formedLog controllerId = s.formedLog controllerId :=
    fun _ => ControllerStore.formedLog_append_of_none rfl
  refine ⟨h.toTracked.accepted happly, fun controllerId phase' closure hword' hclosure => ?_,
    fun controllerId => ?_⟩
  · have hformed := ControllerStore.perform_formed hperform controllerId
    rw [hdecided, hid] at hformed
    rw [decisionsOf_concat] at hword'
    by_cases hcontroller : decision.controllerRef = controllerId
    · subst hcontroller
      rw [if_pos rfl, foldlM_concat, hword] at hword'
      rcases HandoffPhase.closure_of_next hword' hclosure with ⟨hkind, hnew⟩ | ⟨hold, hkind⟩
      · rcases hformed with ⟨hother, -⟩ | ⟨-, given, formed, hgiven, hgivenId, hreach, hlog⟩
        · exact absurd hkind hother
        · obtain rfl : given = closure := Option.some.inj (hgiven.symm.trans hnew)
          rw [if_pos rfl] at hlog
          exact ControllerStore.told_of_formed hgivenId hreach hlog (hanew hkind given hnew)
      · rcases hformed with ⟨-, hlog⟩ | ⟨hform, -⟩
        · exact (h.told _ phase closure hword hold).unchanged hlog
        · exact absurd hform hkind
    · rw [if_neg hcontroller] at hword'
      refine (h.told _ phase' closure hword' hclosure).unchanged ?_
      rcases hformed with ⟨-, hlog⟩ | ⟨-, _, _, -, -, -, hlog⟩
      · exact hlog
      · rwa [if_neg hcontroller] at hlog
  · rw [decisionsOf_concat]
    by_cases hcontroller : decision.controllerRef = controllerId
    · subst hcontroller
      rw [if_pos rfl]
      refine (h.within _).concat (fun hkind => ?_)
      change decision.kind = _ at hkind
      rw [hkind] at hallowed
      obtain ⟨closureRef, read, proposal, hactive, hread, hproposal, hwithin⟩ :=
        ControllerStore.perform_proposal hperform hkind
      obtain ⟨closure, hclosure, hclosureId⟩ : ∃ closure, phase.closure? = some closure ∧
          closure.id = closureRef := by
        have hshows := hshown.closure
        rw [hactive] at hshows
        obtain ⟨closure, hclosure, hclosureId⟩ := Option.map_eq_some_iff.mp hshows.symm
        exact ⟨closure, hclosure, hclosureId⟩
      obtain ⟨a, c, b, hlog, hform, hb, hc⟩ := HandoffPhase.formed_last hword hclosure
      have htold := (h.told _ phase closure hword hclosure).unchanged (hdecided _)
      rw [hid, ← hclosureId] at hread
      have hreach := htold.read hread
      refine ⟨a, c, b, closure, proposal, hlog, hform, hb, hc, hproposal, ?_, ?_⟩
      · exact hwithin.effectClass.trans hreach.effectClass
      · exact hreach.requestedCapabilities ▸ hwithin.requestedCapabilities
    · rw [if_neg hcontroller]
      exact h.within controllerId

theorem Handed.step (h : Handed log s) (call : SequentialCall) (hanew : ClosesAnew s call) :
    Handed (log ++ (call.accepted s).toList) (call.step ids s) := by
  have htracked : Tracked (log ++ (call.accepted s).toList) (call.step ids s) :=
    h.toTracked.step call
  cases call with
  | apply decision fresh now answer =>
    cases happly : s.apply decision fresh now with
    | mk s₁ result =>
      have happlied : ∀ controllerId, (s.applied decision fresh now answer).formedLog
          controllerId = s₁.formedLog controllerId := by
        intro controllerId
        rw [ControllerStore.formedLog_applied, happly]
      cases result with
      | error e =>
        have hnone : (SequentialCall.apply decision fresh now answer).accepted s = none := by
          rw [SequentialCall.accepted, happly]
        rw [hnone, Option.toList_none, List.append_nil] at htracked ⊢
        refine h.unchanged htracked (fun controllerId => ?_)
        exact (happlied controllerId).trans
          (ControllerStore.formedLog_apply_error happly controllerId)
      | ok reply =>
        have hsome : (SequentialCall.apply decision fresh now answer).accepted s =
            some ⟨decision, s₁.proposalOf reply⟩ := by
          rw [SequentialCall.accepted, happly]
        rw [hsome, Option.toList_some] at htracked ⊢
        obtain ⟨state, hcurrent, -⟩ := ControllerStore.apply_eq_ok happly
        exact (h.decided happly (hanew ⟨state, hcurrent⟩)).unchanged htracked happlied
  | create seed fresh now =>
    refine h.silent htracked rfl (fun controllerId => ?_)
    unfold SequentialCall.step
    dsimp only
    cases hcreate : s.create seed fresh now with
    | error e => rfl
    | ok p =>
      obtain ⟨_, -, hrest⟩ := Result.bind_eq_ok.mp hcreate
      obtain ⟨-, hrest⟩ := Result.check_eq_ok.mp hrest
      obtain rfl := Result.pure_eq_ok.mp hrest
      exact ControllerStore.formedLog_recordState _ _
  | reopenRequired reopened reason now =>
    refine h.silent htracked rfl (fun controllerId => ?_)
    unfold SequentialCall.step
    dsimp only
    cases hreopen : s.reopenRequired reopened reason now with
    | error e => rfl
    | ok p =>
      obtain ⟨_, -, hrest⟩ := Result.bind_eq_ok.mp hreopen
      obtain rfl := Result.pure_eq_ok.mp hrest
      exact (ControllerStore.formedLog_recordState _ _).trans
        (ControllerStore.formedLog_append_of_none rfl)
  | kernel call => exact h.silent htracked rfl (fun _ => rfl)
  | saveWork work => exact h.silent htracked rfl (fun _ => rfl)

end Handed

/-- In every sequential run the recorded states are coherent, and between two hand-offs of a
controller lie a reopening and a closure; and while every closure that takes an id again is
told from the earlier ones, every hand-off is within the closure formed last before it. -/
theorem one_handoff_per_closure (ids : StableId) (calls : List SequentialCall)
    (controllerId : String) :
    (∀ entry ∈ (run (SequentialCall.step ids) {} calls).stateLog controllerId,
      entry.1.Coherent) ∧
    ReopenedBetween (decisionsOf controllerId
      (emitted (SequentialCall.step ids) SequentialCall.accepted {} calls)) ∧
    (Along (SequentialCall.step ids) ClosesAnew {} calls →
      WithinLastClosure (decisionsOf controllerId
        (emitted (SequentialCall.step ids) SequentialCall.accepted {} calls))) := by
  have htracked : Tracked (emitted (SequentialCall.step ids) SequentialCall.accepted {} calls)
      (run (SequentialCall.step ids) {} calls) :=
    emitted_invariant (fun _ _ call h => h.step call) Tracked.empty
  refine ⟨htracked.coherent controllerId, ?_, fun halong => ?_⟩
  · obtain ⟨phase, hword, -⟩ := htracked.phased controllerId
    exact HandoffPhase.reopenedBetween hword
  · have hhanded : Handed (emitted (SequentialCall.step ids) SequentialCall.accepted {} calls)
        (run (SequentialCall.step ids) {} calls) :=
      emitted_invariant_along (fun _ _ call h hanew => h.step call hanew) Handed.empty halong
    exact hhanded.within controllerId

namespace Listing

/-- What the kernel has recorded before the controller proposes. -/
def groundwork : List SequentialCall :=
  [.kernel (.register identity admission), .kernel (.recordDomainAssessment assessment 1),
    .create { responsibilityRef := some "sr_listing", subjectRef := some "shopify:product:1",
              controllerId := some "controller" } ⟨"fresh", Eq.refl true⟩ 1]

def readingClosure : CognitiveClosure :=
  { id := "closure", controllerRef := "controller", controllerStateVersion := 0,
    responsibilityRef := some "sr_listing", subjectRef := some "shopify:product:1",
    acceptanceCriteria := ["drift explained"], requestedCapabilities := ["catalog.read"] }

def formReading : ControllerDecision :=
  { id := "form-reading", controllerRef := "controller", stateVersion := 0, kind := .formClosure,
    closure := some readingClosure }

def proposeReading : ControllerDecision :=
  { id := "propose-reading", controllerRef := "controller", stateVersion := 1,
    kind := .proposeWork, closureRef := some "closure", assessmentRef := some "assessment",
    workTitle := some "Diagnose listing drift" }

/-- One closure and the hand-off under it. -/
def handsOff : List SequentialCall :=
  groundwork ++ [.apply formReading ⟨"event", Eq.refl true⟩ 3 none,
    .apply proposeReading ⟨"proposal", Eq.refl true⟩ 4 none]

/-- A closure that may write, and after a reopening one of its id that may only read, in one
tick of the clock. -/
def narrowed : List SequentialCall :=
  groundwork ++
    [.apply { id := "form-writing", controllerRef := "controller", stateVersion := 0,
              kind := .formClosure,
              closure := some { readingClosure with
                requestedCapabilities := ["catalog.write"], effectClass := .externalEffect } }
        ⟨"event-1", Eq.refl true⟩ 3 none,
      .apply { id := "close", controllerRef := "controller", stateVersion := 1, kind := .close }
        ⟨"event-2", Eq.refl true⟩ 3 none,
      .apply { id := "reopen", controllerRef := "controller", stateVersion := 2, kind := .reopen }
        ⟨"event-3", Eq.refl true⟩ 3 none,
      .apply { id := "form-reading", controllerRef := "controller", stateVersion := 3,
               kind := .formClosure,
               closure := some { readingClosure with controllerStateVersion := 3 } }
        ⟨"event-4", Eq.refl true⟩ 3 none,
      .apply { id := "propose", controllerRef := "controller", stateVersion := 4,
               kind := .proposeWork, closureRef := some "closure",
               assessmentRef := some "assessment", workTitle := some "Rewrite the listing",
               requestedCapabilities := ["catalog.write"], effectClass := "external-effect" }
        ⟨"proposal", Eq.refl true⟩ 4 none]

end Listing

/-- The reading hand-off is within its closure, and it is handed off. -/
theorem one_handoff_per_closure_listing :
    WithinLastClosure (decisionsOf "controller"
      (emitted (SequentialCall.step Listing.ids) SequentialCall.accepted {} Listing.handsOff)) ∧
    (decisionsOf "controller" (emitted (SequentialCall.step Listing.ids) SequentialCall.accepted {}
      Listing.handsOff)).map (fun x => (x.decision.kind, x.proposal.map (·.effectClass))) =
        [(.formClosure, none), (.proposeWork, some .readOnly)] := by
  have halong : Along (SequentialCall.step Listing.ids) ClosesAnew {} Listing.handsOff := by
    refine along_append.mpr ⟨⟨trivial, trivial, trivial, trivial⟩, ?_, ?_, trivial⟩
    · intro _ _ closure _ e he
      have hnone : (run (SequentialCall.step Listing.ids) {} Listing.groundwork).formedLog
          Listing.formReading.controllerRef = [] := by decide
      rw [hnone] at he
      exact absurd he List.not_mem_nil
    · intro _ hkind
      exact absurd hkind (by decide)
  exact ⟨(one_handoff_per_closure Listing.ids Listing.handsOff "controller").2.2 halong,
    by decide⟩

/-- The hand-off after the narrower closure has the effect class of the wider one. -/
theorem handoff_beyond_closure_listing :
    ¬ WithinLastClosure (decisionsOf "controller"
      (emitted (SequentialCall.step Listing.ids) SequentialCall.accepted {} Listing.narrowed)) := by
  have hlog : (decisionsOf "controller" (emitted (SequentialCall.step Listing.ids)
      SequentialCall.accepted {} Listing.narrowed)).map (fun x => (x.decision.kind,
        x.decision.closure.map (·.effectClass), x.proposal.map (·.effectClass))) =
      [(.formClosure, some .externalEffect, none), (.close, none, none), (.reopen, none, none),
        (.formClosure, some .readOnly, none), (.proposeWork, none, some .externalEffect)] := by
    decide
  generalize decisionsOf "controller" _ = log at hlog ⊢
  intro hwithin
  obtain ⟨x₁, _, rfl, -, hlog⟩ := List.map_eq_cons_iff.mp hlog
  obtain ⟨x₂, _, rfl, -, hlog⟩ := List.map_eq_cons_iff.mp hlog
  obtain ⟨x₃, _, rfl, -, hlog⟩ := List.map_eq_cons_iff.mp hlog
  obtain ⟨x₄, _, rfl, hreading, hlog⟩ := List.map_eq_cons_iff.mp hlog
  obtain ⟨x₅, _, rfl, hproposed, hlog⟩ := List.map_eq_cons_iff.mp hlog
  obtain rfl := List.map_eq_nil_iff.mp hlog
  rw [Prod.mk.injEq, Prod.mk.injEq] at hreading hproposed
  obtain ⟨a, c, b, closure, proposal, hsplit, -, hlater, hclosure, hproposal, heffect, -⟩ :=
    hwithin [x₁, x₂, x₃, x₄] x₅ [] rfl hproposed.1
  have hlast : [x₁, x₂, x₃] ++ [x₄] = a ++ c :: b := hsplit
  rcases List.eq_nil_or_concat b with rfl | ⟨b, z, rfl⟩
  · obtain ⟨-, hc⟩ := List.append_inj' hlast rfl
    obtain rfl : x₄ = c := by simpa using hc
    have hread := hreading.2.1
    have hwrite := hproposed.2.2
    rw [hclosure, Option.map_some, Option.some.injEq] at hread
    rw [hproposal, Option.map_some, Option.some.injEq] at hwrite
    rw [hread, hwrite] at heffect
    exact absurd heffect (by decide)
  · rw [List.concat_eq_append, ← List.cons_append, ← List.append_assoc] at hlast
    obtain ⟨-, hz⟩ := List.append_inj' hlast rfl
    obtain rfl : x₄ = z := by simpa using hz
    exact hlater x₄ (by simp) hreading.1

end PortableRuntime
