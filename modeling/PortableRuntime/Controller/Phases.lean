import PortableRuntime.Library.Words
import PortableRuntime.Controller.Interleavings
import PortableRuntime.Responsibility.Growth

/-!
# Handing work off

A controller whose invocations are answered before its next call explores, forms a closure,
and hands off work under it once; only a reopening leads back.  The accepted decisions of a
controller are the words of that automaton, and its latest state shows the phase.
-/

namespace PortableRuntime

/-- An accepted decision, and the proposal that it handed off. -/
structure Accepted where
  decision : ControllerDecision
  proposal : Option WorkProposal

/-- Calls one after the other: the provider answers an invocation, or fails, before the next
call.  The kernel and other writers of Work act between the calls. -/
inductive SequentialCall where
  | create (seed : ControllerSeed) (fresh : FreshId) (now : Time)
  | apply (decision : ControllerDecision) (fresh : FreshId) (now : Time)
      (answer : Option (String × Time))
  | reopenRequired (controllerId reason : String) (now : Time)
  | kernel (call : KernelCall)
  | saveWork (work : Work)

namespace ControllerStore

/-- The store after a decision whose invocation, if it is one, has been answered or failed. -/
def applied (s : ControllerStore) (decision : ControllerDecision) (fresh : FreshId) (now : Time)
    (answer : Option (String × Time)) : ControllerStore :=
  match s.apply decision fresh now, answer with
  | (s', .ok (.invoked p)), some (resultRef, answeredAt) => (s'.resume p resultRef answeredAt).1
  | (s', _), _ => s'

/-- The stored proposal that a recorded state names. -/
def proposalOf (s : ControllerStore) : ControllerReply → Option WorkProposal
  | .recorded state =>
    (state.workProposalRef.bind s.responsibilities.journalGet).bind (·.asProposal)
  | .invoked _ => none

end ControllerStore

namespace SequentialCall

def step (ids : StableId) (s : ControllerStore) : SequentialCall → ControllerStore
  | .create seed fresh now =>
    match s.create seed fresh now with
    | .ok (s', _) => s'
    | .error _ => s
  | .apply decision fresh now answer => s.applied decision fresh now answer
  | .reopenRequired controllerId reason now =>
    match s.reopenRequired controllerId reason now with
    | .ok (s', _) => s'
    | .error _ => s
  | .kernel call => { s with responsibilities := call.step ids s.responsibilities }
  | .saveWork work => { s with responsibilities := s.responsibilities.putWork work }

def accepted (s : ControllerStore) : SequentialCall → Option Accepted
  | .apply decision fresh now _ =>
    match s.apply decision fresh now with
    | (s', .ok reply) => some { decision, proposal := s'.proposalOf reply }
    | (_, .error _) => none
  | _ => none

end SequentialCall

/-- The decisions accepted for one controller. -/
def decisionsOf (controllerId : String) (log : List Accepted) : List Accepted :=
  log.filter (fun x => x.decision.controllerRef = controllerId)

/-- Between two hand-offs a reopening is accepted, and after it a closure. -/
def ReopenedBetween (log : List Accepted) : Prop :=
  ∀ before x between y after, log = before ++ x :: (between ++ y :: after) →
    x.decision.kind = .proposeWork → y.decision.kind = .proposeWork →
    ∃ a r b c d, between = a ++ r :: (b ++ c :: d) ∧ r.decision.kind = .reopen ∧
      c.decision.kind = .formClosure

/-- The same effect class and capabilities. -/
structure SameReach (a b : CognitiveClosure) : Prop where
  effectClass : a.effectClass = b.effectClass
  requestedCapabilities : a.requestedCapabilities = b.requestedCapabilities

structure ProposedWithin (proposal : WorkProposal) (closure : CognitiveClosure) : Prop where
  effectClass : proposal.effectClass = closure.effectClass
  requestedCapabilities : proposal.requestedCapabilities ⊆ closure.requestedCapabilities

/-- Every hand-off is a proposal within the closure formed last before it. -/
def WithinLastClosure (log : List Accepted) : Prop :=
  ∀ before y after, log = before ++ y :: after → y.decision.kind = .proposeWork →
    ∃ a c b closure proposal, before = a ++ c :: b ∧ c.decision.kind = .formClosure ∧
      (∀ x ∈ b, x.decision.kind ≠ .formClosure) ∧ c.decision.closure = some closure ∧
      y.proposal = some proposal ∧ ProposedWithin proposal closure

/-- A recorded state with a proposal has a closure, and an open one has no proposal. -/
structure ControllerState.Coherent (state : ControllerState) : Prop where
  handed : state.workProposalRef.isSome = true → state.activeClosureRef.isSome = true
  fresh : state.status = .open → state.workProposalRef = none

/-! ## The phases of a controller -/

inductive HandoffPhase where
  | exploring
  | closed (closure : CognitiveClosure)
  | handedOff (closure : CognitiveClosure)

namespace HandoffPhase

def closure? : HandoffPhase → Option CognitiveClosure
  | .exploring => none
  | .closed closure => some closure
  | .handedOff closure => some closure

def next (phase : HandoffPhase) (x : Accepted) : Option HandoffPhase :=
  match x.decision.kind, phase with
  | .formClosure, .exploring => x.decision.closure.map .closed
  | .formClosure, _ => none
  | .proposeWork, .closed closure => some (.handedOff closure)
  | .proposeWork, _ => none
  | .reopen, _ => some .exploring
  | _, phase => some phase

def IsHandedOff : HandoffPhase → Prop
  | .handedOff _ => True
  | _ => False

def IsExploring : HandoffPhase → Prop
  | .exploring => True
  | _ => False

section Next

attribute [local simp] next

variable {phase phase' : HandoffPhase} {x : Accepted}

theorem next_of_proposeWork (h : phase.next x = some phase')
    (hkind : x.decision.kind = .proposeWork) :
    ∃ closure, phase = .closed closure ∧ phase' = .handedOff closure := by
  cases phase <;> simp [next, hkind] at h
  case closed closure => exact ⟨closure, rfl, h.symm⟩

/-- Only a reopening leaves a hand-off, and leads to exploring. -/
theorem reopen_of_leaves (h : phase.next x = some phase') (hphase : phase.IsHandedOff)
    (hphase' : ¬ phase'.IsHandedOff) : x.decision.kind = .reopen ∧ phase'.IsExploring := by
  cases phase with
  | handedOff closure =>
    cases hkind : x.decision.kind <;> simp [next, hkind] at h <;> subst h
    case reopen => exact ⟨rfl, trivial⟩
    all_goals exact absurd trivial hphase'
  | _ => exact hphase.elim

/-- Only a closure leaves exploring. -/
theorem formClosure_of_leaves (h : phase.next x = some phase') (hphase : phase.IsExploring)
    (hphase' : ¬ phase'.IsExploring) : x.decision.kind = .formClosure := by
  cases phase with
  | exploring =>
    cases hkind : x.decision.kind <;> simp [next, hkind] at h
    case formClosure => rfl
    all_goals exact absurd (h ▸ trivial) hphase'
  | _ => exact hphase.elim

/-- The closure of a phase is the one that led to it, or that of the phase before. -/
theorem closure_of_next {closure : CognitiveClosure} (h : phase.next x = some phase')
    (hclosure : phase'.closure? = some closure) :
    (x.decision.kind = .formClosure ∧ x.decision.closure = some closure) ∨
      (phase.closure? = some closure ∧ x.decision.kind ≠ .formClosure) := by
  cases hkind : x.decision.kind <;> cases phase <;> simp [next, hkind] at h <;>
    first
      | (obtain ⟨formed, hformed, rfl⟩ := h
         exact .inl ⟨rfl, hformed.trans hclosure⟩)
      | (subst h
         exact .inr ⟨hclosure, by simp⟩)
      | (subst h
         exact absurd hclosure (by simp [closure?]))

end Next

section Words

variable {log : List Accepted} {phase : HandoffPhase}

theorem reopenedBetween (h : log.foldlM next .exploring = some phase) : ReopenedBetween log := by
  intro before x between y after hlog hx hy
  rw [hlog] at h
  obtain ⟨first, -, h⟩ := foldlM_append_eq_some.mp h
  obtain ⟨handed, hhanded, h⟩ := foldlM_cons_eq_some.mp h
  obtain ⟨last, hbetween, h⟩ := foldlM_append_eq_some.mp h
  obtain ⟨_, hlast, -⟩ := foldlM_cons_eq_some.mp h
  obtain ⟨_, -, rfl⟩ := next_of_proposeWork hhanded hx
  obtain ⟨_, rfl, -⟩ := next_of_proposeWork hlast hy
  obtain ⟨a, r, rest, u, v, rfl, hu, hv, hreopen, hrest⟩ :=
    foldlM_leaves (S := IsHandedOff) hbetween trivial (fun h => h)
  obtain ⟨hkind, hexploring⟩ := reopen_of_leaves hreopen hu hv
  obtain ⟨b, c, d, u', v', rfl, hu', hv', hform, -⟩ :=
    foldlM_leaves (S := IsExploring) hrest hexploring (fun h => h)
  exact ⟨a, r, b, c, d, rfl, hkind, formClosure_of_leaves hform hu' hv'⟩

/-- The closure of the phase is the one formed last. -/
theorem formed_last {closure : CognitiveClosure} (h : log.foldlM next .exploring = some phase)
    (hclosure : phase.closure? = some closure) :
    ∃ before x after, log = before ++ x :: after ∧ x.decision.kind = .formClosure ∧
      (∀ y ∈ after, y.decision.kind ≠ .formClosure) ∧ x.decision.closure = some closure := by
  have hformed := foldlM_established (S := fun p => p.closure? = some closure)
    (E := fun x => x.decision.kind = .formClosure ∧ x.decision.closure = some closure)
    (K := fun x => x.decision.kind ≠ .formClosure) (fun _ _ _ => closure_of_next) h hclosure
  rcases hformed with ⟨before, x, after, hsplit, ⟨hkind, hx⟩, hafter⟩ | ⟨hnone, -⟩
  · exact ⟨before, x, after, hsplit, hkind, hafter, hx⟩
  · exact absurd hnone (by simp [closure?])

end Words
end HandoffPhase
end PortableRuntime
