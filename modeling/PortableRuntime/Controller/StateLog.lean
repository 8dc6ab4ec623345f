import PortableRuntime.Library.Run
import PortableRuntime.Controller.Service

/-!
# The states a controller has recorded

`stateLog` has the recorded states of one controller in the order of their recording, each
with the state it was computed from.  Every operation records at most one state, computed
from the one that it read or kept.
-/

namespace PortableRuntime
namespace ControllerStore

abbrev Recorded := ControllerState × Option ControllerState

def logged (controllerId : String) (event : ControllerEvent) : Option Recorded :=
  match event.record with
  | .state state computedFrom =>
    if event.subjectRef = controllerId then some (state, computedFrom) else none
  | _ => none

def stateLog (s : ControllerStore) (controllerId : String) : List Recorded :=
  s.events.filterMap (logged controllerId)

/-- The state recorded last. -/
def lastState (s : ControllerStore) (controllerId : String) : Option ControllerState :=
  ((s.stateLog controllerId).getLast?).map Prod.fst

section Log

variable {s : ControllerStore} {controllerId : String} {now : Time}

theorem stateLog_append (subjectRef : String) (record : ControllerRecord) :
    (s.append now subjectRef record).stateLog controllerId =
      s.stateLog controllerId ++
        (logged controllerId { subjectRef, createdAt := now, record }).toList := by
  rw [stateLog, append, List.filterMap_append]
  rfl

theorem stateLog_recordState (state : ControllerState) (computedFrom : Option ControllerState) :
    (s.recordState now state computedFrom).stateLog controllerId =
      if state.id = controllerId then s.stateLog controllerId ++ [(state, computedFrom)]
      else s.stateLog controllerId := by
  rw [recordState, stateLog_append, logged]
  dsimp only
  split <;> simp

/-- A record that is not a state leaves the log alone. -/
theorem stateLog_append_of_none {subjectRef : String} {record : ControllerRecord}
    (h : logged controllerId { subjectRef, createdAt := now, record } = none) :
    (s.append now subjectRef record).stateLog controllerId = s.stateLog controllerId := by
  rw [stateLog_append, h]
  simp

/-- The states a read validates are those of the log, in another order. -/
theorem states_perm (s : ControllerStore) (controllerId : String) :
    ((s.listEvents controllerId).filterMap (·.asState)).Perm
      ((s.stateLog controllerId).map Prod.fst) := by
  refine ((List.perm_insertionSort _ _).filterMap _).trans (.of_eq ?_)
  rw [List.filterMap_filter, stateLog, List.map_filterMap]
  refine List.filterMap_congr (fun e _ => ?_)
  obtain ⟨subjectRef, createdAt, record⟩ := e
  cases record with
  | state state computedFrom => by_cases h : subjectRef = controllerId <;>
      simp [logged, ControllerEvent.asState, h]
  | _ => simp [logged, ControllerEvent.asState]

theorem validate_eq_ok {state state' : ControllerState} (h : state.validate = .ok state') :
    state' = state := by
  obtain ⟨-, h⟩ := Result.check_eq_ok.mp h
  obtain ⟨-, h⟩ := Result.check_eq_ok.mp h
  exact (Result.pure_eq_ok.mp h).symm

theorem mapM_validate_eq_ok {states states' : List ControllerState}
    (h : states.mapM (·.validate) = .ok states') : states' = states := by
  induction states generalizing states' with
  | nil => exact (Result.pure_eq_ok.mp h).symm
  | cons state rest ih =>
    rw [List.mapM_cons] at h
    obtain ⟨state', hstate, h⟩ := Result.bind_eq_ok.mp h
    obtain ⟨rest', hrest, h⟩ := Result.bind_eq_ok.mp h
    rw [Result.pure_eq_ok] at h
    rw [← h, validate_eq_ok hstate, ih hrest]

theorem latest_spec {states : List ControllerState} {state : ControllerState}
    (h : latest states = some state) :
    state ∈ states ∧ ∀ other ∈ states, other.version ≤ state.version := by
  cases states with
  | nil => exact absurd h (by simp [latest])
  | cons first rest =>
    rw [latest, Option.some.injEq] at h
    subst h
    have hfold : ∀ (l : List ControllerState) (best : ControllerState),
        let top := l.foldl (fun best next => if olderThan best next then next else best) best
        (top = best ∨ top ∈ l) ∧ best.version ≤ top.version ∧
          ∀ other ∈ l, other.version ≤ top.version := by
      intro l
      induction l with
      | nil => exact fun best => ⟨.inl rfl, le_refl _, by simp⟩
      | cons next rest ih =>
        intro best
        obtain ⟨hmem, hbest, hothers⟩ := ih (if olderThan best next then next else best)
        have hstep : best.version ≤ (if olderThan best next then next else best).version ∧
            next.version ≤ (if olderThan best next then next else best).version := by
          by_cases holder : olderThan best next = true
          · rw [if_pos holder]
            rw [olderThan, Bool.or_eq_true, Bool.and_eq_true, decide_eq_true_eq,
              decide_eq_true_eq] at holder
            omega
          · rw [if_neg holder]
            rw [olderThan, Bool.or_eq_true, decide_eq_true_eq] at holder
            omega
        refine ⟨?_, hstep.1.trans hbest, fun other hother => ?_⟩
        · rcases hmem with hsame | hrest
          · rw [List.foldl_cons, hsame]
            split
            · exact .inr List.mem_cons_self
            · exact .inl rfl
          · exact .inr (List.mem_cons_of_mem next hrest)
        · rcases List.mem_cons.mp hother with rfl | hrest
          · exact hstep.2.trans hbest
          · exact hothers other hrest
    obtain ⟨hmem, hfirst, hothers⟩ := hfold rest first
    refine ⟨?_, fun other hother => ?_⟩
    · rcases hmem with hsame | hrest
      · rw [hsame]
        exact List.mem_cons_self
      · exact List.mem_cons_of_mem first hrest
    · rcases List.mem_cons.mp hother with rfl | hrest
      · exact hfirst
      · exact hothers other hrest

theorem get_eq_ok {result : Option ControllerState} (h : s.get controllerId = .ok result) :
    result = latest ((s.listEvents controllerId).filterMap (·.asState)) := by
  obtain ⟨states, hstates, h⟩ := Result.bind_eq_ok.mp h
  rw [Result.pure_eq_ok] at h
  rw [← h, mapM_validate_eq_ok hstates]

/-- A state that is read is in the log, and none there has a greater version. -/
theorem get_eq_some {state : ControllerState} (h : s.get controllerId = .ok (some state)) :
    (∃ computedFrom, (state, computedFrom) ∈ s.stateLog controllerId) ∧
    ∀ entry ∈ s.stateLog controllerId, entry.1.version ≤ state.version := by
  obtain ⟨hmem, hmax⟩ := latest_spec (get_eq_ok h).symm
  rw [(states_perm s controllerId).mem_iff] at hmem
  obtain ⟨entry, hentry, hstate⟩ := List.mem_map.mp hmem
  refine ⟨⟨entry.2, by rw [← hstate]; exact hentry⟩, fun other hother => hmax other.1 ?_⟩
  exact (states_perm s controllerId).mem_iff.mpr (List.mem_map_of_mem hother)

theorem get_eq_none (h : s.get controllerId = .ok none) : s.stateLog controllerId = [] := by
  have hlatest := get_eq_ok h
  have hnil : (s.listEvents controllerId).filterMap (·.asState) = [] := by
    cases hstates : (s.listEvents controllerId).filterMap (·.asState) with
    | nil => rfl
    | cons first rest =>
      rw [hstates] at hlatest
      exact absurd hlatest (by simp [latest])
  have hperm := states_perm s controllerId
  rw [hnil] at hperm
  exact List.map_eq_nil_iff.mp hperm.symm.eq_nil

end Log

/-! ## One lemma for each operation -/

/-- The next state is computed from a state and is of the same controller. -/
structure ComputedFrom (next state : ControllerState) : Prop where
  id : next.id = state.id
  version : next.version = state.version + 1

/-- What the next state of a decision keeps of the closure and the proposal. -/
structure NextOf (decision : ControllerDecision) (next state : ControllerState) : Prop
    extends ComputedFrom next state where
  closure : next.activeClosureRef =
    match decision.kind with
    | .formClosure => decision.closure.map (·.id)
    | .reopen => none
    | _ => state.activeClosureRef
  proposal :
    match decision.kind with
    | .proposeWork => next.workProposalRef.isSome = true
    | .reopen => next.workProposalRef = none
    | _ => next.workProposalRef = state.workProposalRef
  status : next.status = .open → decision.kind = .formClosure ∨ decision.kind = .reopen

/-- A store whose logs are those of another one, with one state recorded. -/
def LogsOf (s' s : ControllerStore) (next : ControllerState)
    (computedFrom : Option ControllerState) : Prop :=
  ∀ controllerId, s'.stateLog controllerId =
    if next.id = controllerId then s.stateLog controllerId ++ [(next, computedFrom)]
    else s.stateLog controllerId

section Operations

variable {s s' : ControllerStore} {state : ControllerState} {decision : ControllerDecision}
  {fresh : FreshId} {now : Time} {reply : ControllerReply}

theorem logsOf_recordState (next : ControllerState) (computedFrom : Option ControllerState) :
    LogsOf (s.recordState now next computedFrom) s next computedFrom :=
  fun _ => stateLog_recordState next computedFrom

/-- A record that is not a state, written before. -/
theorem logsOf_append {subjectRef : String} {record : ControllerRecord} {next : ControllerState}
    {computedFrom : Option ControllerState}
    (hrecord : ∀ controllerId, logged controllerId { subjectRef, createdAt := now, record } = none)
    (h : LogsOf s' (s.append now subjectRef record) next computedFrom) :
    LogsOf s' s next computedFrom := by
  intro controllerId
  rw [h controllerId, stateLog_append_of_none (hrecord controllerId)]

theorem revisionStatus_ne_open (revision : RevisionAssessment) :
    (revisionStatus revision).1 ≠ .open := by
  unfold revisionStatus
  split <;> simp

/-- What a decision records, once it is accepted. -/
theorem perform_records (h : s.perform state decision fresh now = .ok (s', reply)) :
    ∃ next, NextOf decision next state ∧ LogsOf s' s next (some state) ∧
      (reply = .recorded next ∨ ∃ p : PendingInvocation, reply = .invoked p ∧ p.waiting = next ∧
        decision.kind = .invokeCapability) := by
  unfold perform at h
  cases hkind : decision.kind <;> rw [hkind] at h <;> dsimp only at h
  case invokeCapability =>
    obtain ⟨_, -, h⟩ := Result.bind_eq_ok.mp h
    rw [Result.pure_eq_ok, Prod.mk.injEq] at h
    obtain ⟨rfl, rfl⟩ := h
    refine ⟨_, ?_, logsOf_recordState _ _, .inr ⟨_, rfl, rfl, rfl⟩⟩
    refine ⟨⟨rfl, rfl⟩, ?_, ?_, ?_⟩
    all_goals simp [hkind, nextState]
  case formClosure =>
    obtain ⟨closure, hclosure, h⟩ := Result.bind_eq_ok.mp h
    obtain ⟨-, h⟩ := Result.check_eq_ok.mp h
    obtain ⟨-, h⟩ := Result.check_eq_ok.mp h
    obtain ⟨-, h⟩ := Result.check_eq_ok.mp h
    obtain ⟨-, h⟩ := Result.check_eq_ok.mp h
    obtain ⟨-, h⟩ := Result.check_eq_ok.mp h
    rw [Result.pure_eq_ok, transition, Prod.mk.injEq] at h
    obtain ⟨rfl, rfl⟩ := h
    refine ⟨_, ?_, logsOf_append (fun _ => rfl) (logsOf_recordState _ _), .inl rfl⟩
    refine ⟨⟨rfl, rfl⟩, ?_, ?_, ?_⟩
    all_goals simp [hkind, nextState, orRaise_eq_ok.mp hclosure]
  case proposeWork =>
    obtain ⟨_, -, h⟩ := Result.bind_eq_ok.mp h
    obtain ⟨_, -, h⟩ := Result.bind_eq_ok.mp h
    obtain ⟨_, -, h⟩ := Result.bind_eq_ok.mp h
    obtain ⟨_, -, h⟩ := Result.bind_eq_ok.mp h
    obtain ⟨_, -, h⟩ := Result.bind_eq_ok.mp h
    obtain ⟨closure, -, h⟩ := Result.bind_eq_ok.mp h
    obtain ⟨_, -, h⟩ := Result.bind_eq_ok.mp h
    obtain ⟨-, h⟩ := Result.check_eq_ok.mp h
    obtain ⟨-, h⟩ := Result.check_eq_ok.mp h
    obtain ⟨_, -, h⟩ := Result.bind_eq_ok.mp h
    obtain ⟨⟨saved, responsibilities⟩, -, h⟩ := Result.bind_eq_ok.mp h
    rw [Result.pure_eq_ok, transition, Prod.mk.injEq] at h
    obtain ⟨rfl, rfl⟩ := h
    refine ⟨_, ?_,
      logsOf_append (s := { s with responsibilities }) (fun _ => rfl) (logsOf_recordState _ _),
      .inl rfl⟩
    refine ⟨⟨rfl, rfl⟩, ?_, ?_, ?_⟩
    all_goals simp [hkind, nextState]
  case assessRevision =>
    obtain ⟨revision, -, h⟩ := Result.bind_eq_ok.mp h
    obtain ⟨_, -, h⟩ := Result.bind_eq_ok.mp h
    obtain ⟨_, -, h⟩ := Result.bind_eq_ok.mp h
    obtain ⟨-, h⟩ := Result.check_eq_ok.mp h
    obtain ⟨_, -, h⟩ := Result.bind_eq_ok.mp h
    obtain ⟨-, h⟩ := Result.check_eq_ok.mp h
    obtain ⟨-, h⟩ := Result.check_eq_ok.mp h
    rw [Result.pure_eq_ok, transition, Prod.mk.injEq] at h
    obtain ⟨rfl, rfl⟩ := h
    refine ⟨_, ?_, logsOf_append (fun _ => rfl) (logsOf_recordState _ _), .inl rfl⟩
    refine ⟨⟨rfl, rfl⟩, ?_, ?_, fun hopen => absurd hopen (revisionStatus_ne_open _)⟩
    all_goals simp [hkind, nextState]
  case close =>
    rw [Except.ok.injEq, transition, Prod.mk.injEq] at h
    obtain ⟨rfl, rfl⟩ := h
    refine ⟨_, ?_, logsOf_recordState _ _, .inl rfl⟩
    refine ⟨⟨rfl, rfl⟩, ?_, ?_, ?_⟩
    all_goals simp [hkind, nextState]
  case reopen =>
    rw [Except.ok.injEq, transition, Prod.mk.injEq] at h
    obtain ⟨rfl, rfl⟩ := h
    refine ⟨_, ?_, logsOf_recordState _ _, .inl rfl⟩
    refine ⟨⟨rfl, rfl⟩, ?_, ?_, ?_⟩
    all_goals simp [hkind]
  case wait =>
    rw [Except.ok.injEq, transition, Prod.mk.injEq] at h
    obtain ⟨rfl, rfl⟩ := h
    refine ⟨_, ?_, logsOf_recordState _ _, .inl rfl⟩
    refine ⟨⟨rfl, rfl⟩, ?_, ?_, ?_⟩
    all_goals simp [hkind, nextState]

end Operations
end ControllerStore
end PortableRuntime
