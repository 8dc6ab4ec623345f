import PortableRuntime.Library.Run
import PortableRuntime.Responsibility.Service

/-!
# How the journal grows

A call leaves the journal as it is, or records an object under a new id after the checks
that `Admits` collects.  `step_induction` is the invariant rule that follows.
-/

namespace PortableRuntime
namespace ResponsibilityStore

/-- The responsibility is active at a version. -/
def ActiveAt (s : ResponsibilityStore) (responsibilityRef : String) (version : Int) : Prop :=
  (∃ d, s.currentDefinition responsibilityRef = .ok d ∧ d.version = version) ∧
  s.currentStatus responsibilityRef = .ok .active

/-- The objects a commitment names, and what `commit` checks of them. -/
structure Admissible (s : ResponsibilityStore) (now : Time) (c : Commitment)
    (proposal : WorkProposal) (priority : PriorityJudgment)
    (portfolio : PortfolioAdmissionDecision) (reservation : ResourceReservation) : Prop where
  proposalStored : s.journalGet c.proposalRef = some (.proposal proposal)
  priorityStored : s.journalGet c.priorityJudgmentRef = some (.priority priority)
  portfolioStored : s.journalGet c.portfolioAdmissionRef = some (.portfolio portfolio)
  reservationStored : s.journalGet c.reservationRef = some (.reservation reservation)
  active : s.ActiveAt c.responsibilityRef c.responsibilityVersion
  proposalRef : proposal.responsibilityRef = c.responsibilityRef
  proposalVersion : proposal.responsibilityVersion = c.responsibilityVersion
  priorityOf : priority.proposalRef = proposal.id
  priorityAdmitted : priority.admitted = true
  portfolioOf : portfolio.proposalRef = proposal.id
  portfolioAdmitted : portfolio.admitted = true
  reservationOf : reservation.proposalRef = proposal.id
  held : s.reservationReleased reservation now = false
  proposalResources : (c.resources == proposal.requestedResources) = true
  reservationResources : (c.resources == reservation.resources) = true

/-- What the kernel has checked of an object that it records. -/
def Admits (call : KernelCall) (s : ResponsibilityStore) : ResponsibilityObject → Prop
  | .admission v => ∃ identity, s.journalGet v.responsibilityRef = some (.responsibility identity)
  | .revision v =>
    (∃ d, s.currentDefinition v.responsibilityRef = .ok d ∧ v.fromVersion = d.version) ∧
    ∃ status, s.currentStatus v.responsibilityRef = .ok status ∧ status ≠ .discharged
  | .transition v =>
    (∃ d, s.currentDefinition v.responsibilityRef = .ok d ∧
      v.responsibilityVersion = d.version) ∧
    s.currentStatus v.responsibilityRef = .ok v.fromStatus
  | .proposal v => s.ActiveAt v.responsibilityRef v.responsibilityVersion
  | .portfolio v => ∃ proposal pool,
    s.journalGet v.proposalRef = some (.proposal proposal) ∧
    s.journalGet v.resourcePoolRef = some (.pool pool) ∧
    (v.admitted = true → proposal.requestedResources.fitsWithin pool.capacity = true)
  | .reservation v => ∃ t proposal available, call = .reserve v t ∧
    s.journalGet v.proposalRef = some (.proposal proposal) ∧
    proposal.responsibilityRef = v.responsibilityRef ∧
    s.availableResources v.resourcePoolRef t = .ok available ∧
    v.resources.fitsWithin available = true
  | .release v => ∃ reservation,
    s.journalGet v.reservationRef = some (.reservation reservation) ∧
    reservation.responsibilityRef = v.responsibilityRef ∧ s.releases reservation = []
  | .commitment v => ∃ t proposal priority portfolio reservation, call = .commit v t ∧
    s.Admissible t v proposal priority portfolio reservation
  | _ => True

/-- The store as it was, or with one more object. -/
def Recorded (call : KernelCall) (s s' : ResponsibilityStore) : Prop :=
  s' = s ∨ ∃ v, s.journalGet v.id = none ∧ s.Admits call v ∧ s' = s.record v

/-- Every answer of a computation over the store records at most one object. -/
def Records {α : Type} (call : KernelCall) (s : ResponsibilityStore)
    (x : Result (α × ResponsibilityStore)) : Prop :=
  ∀ a s', x = .ok (a, s') → s.Recorded call s'

section Records

variable {α β : Type} {call : KernelCall} {s : ResponsibilityStore}

theorem Records.bind {x : Result β} {f : β → Result (α × ResponsibilityStore)}
    (h : ∀ b, x = .ok b → s.Records call (f b)) : s.Records call (x >>= f) := by
  intro a s' hx
  obtain ⟨b, hb, hf⟩ := Result.bind_eq_ok.mp hx
  exact h b hb a s' hf

theorem Records.guard {holds : Bool} {message : String} {f : Unit → Result (α × ResponsibilityStore)}
    (h : holds = true → s.Records call (f ())) :
    s.Records call (guardValue holds message >>= f) :=
  Records.bind (fun () hguard => h (guardValue_eq_ok.mp hguard))

theorem Records.raise {message : String} :
    s.Records call (raiseValue message : Result (α × ResponsibilityStore)) := by
  intro a s' h
  exact absurd h (by simp [raiseValue])

theorem Records.unchanged {a : α} : s.Records call (pure (a, s)) := by
  intro a' s' h
  rw [Result.pure_eq_ok, Prod.mk.injEq] at h
  exact .inl h.2.symm

/-- A store that the rest of a computation only carries along. -/
theorem Records.map {x : Result (α × ResponsibilityStore)} {f : α → β}
    (h : s.Records call x) :
    s.Records call (x >>= fun p => pure (f p.1, p.2)) := by
  intro b s' hx
  obtain ⟨⟨a, s''⟩, hp, hf⟩ := Result.bind_eq_ok.mp hx
  rw [Result.pure_eq_ok, Prod.mk.injEq] at hf
  exact hf.2 ▸ h a s'' hp

theorem journalSave_of_none {v : ResponsibilityObject} (hfresh : s.journalGet v.id = none) :
    s.journalSave v = .ok (v, s.record v) := by
  rw [journalSave, hfresh]

/-- An object is found again under its id, or recorded there. -/
theorem saveAppendOnly_cases {v w : ResponsibilityObject} {s' : ResponsibilityStore}
    (h : s.saveAppendOnly v = .ok (w, s')) :
    s' = s ∨ (s.journalGet v.id = none ∧ s' = s.record v) := by
  unfold saveAppendOnly at h
  cases hget : s.journalGet v.id with
  | some existing =>
    rw [hget] at h
    dsimp only at h
    split at h
    · rw [Except.ok.injEq, Prod.mk.injEq] at h
      exact .inl h.2.symm
    · exact absurd h (by simp [raiseValue])
  | none =>
    rw [hget, journalSave_of_none hget, Except.ok.injEq, Prod.mk.injEq] at h
    exact .inr ⟨rfl, h.2.symm⟩

theorem Records.save {v : ResponsibilityObject} (h : s.Admits call v) :
    s.Records call (s.saveAppendOnly v) := by
  intro w s' hsave
  rcases saveAppendOnly_cases hsave with rfl | ⟨hfresh, rfl⟩
  · exact .inl rfl
  · exact .inr ⟨v, hfresh, h, rfl⟩

end Records

theorem get_eq_ok {α : Type} {s : ResponsibilityStore} {as : ResponsibilityObject → Option α}
    {mk : α → ResponsibilityObject} (has : ∀ {o v}, as o = some v ↔ o = mk v)
    {expected objectId : String} {a : α} :
    s.get as expected objectId = .ok a ↔ s.journalGet objectId = some (mk a) := by
  rw [get, Result.bind_eq_ok]
  constructor
  · rintro ⟨o, ho, ha⟩
    rw [orRaise_eq_ok.mp ho, has.mp (orRaise_eq_ok.mp ha)]
  · intro h
    exact ⟨mk a, orRaise_eq_ok.mpr h, orRaise_eq_ok.mpr (has.mpr rfl)⟩

section Get

variable {s : ResponsibilityStore} {id : String}

theorem getResponsibility_eq_ok {v : StandingResponsibility} :
    s.getResponsibility id = .ok v ↔ s.journalGet id = some (.responsibility v) :=
  get_eq_ok ResponsibilityObject.asResponsibility_eq_some

theorem getProposal_eq_ok {v : WorkProposal} :
    s.getProposal id = .ok v ↔ s.journalGet id = some (.proposal v) :=
  get_eq_ok ResponsibilityObject.asProposal_eq_some

theorem getPriority_eq_ok {v : PriorityJudgment} :
    s.getPriority id = .ok v ↔ s.journalGet id = some (.priority v) :=
  get_eq_ok ResponsibilityObject.asPriority_eq_some

theorem getPool_eq_ok {v : ResourcePool} :
    s.getPool id = .ok v ↔ s.journalGet id = some (.pool v) :=
  get_eq_ok ResponsibilityObject.asPool_eq_some

theorem getPortfolio_eq_ok {v : PortfolioAdmissionDecision} :
    s.getPortfolio id = .ok v ↔ s.journalGet id = some (.portfolio v) :=
  get_eq_ok ResponsibilityObject.asPortfolio_eq_some

theorem getReservation_eq_ok {v : ResourceReservation} :
    s.getReservation id = .ok v ↔ s.journalGet id = some (.reservation v) :=
  get_eq_ok ResponsibilityObject.asReservation_eq_some

theorem getCommitment_eq_ok {v : Commitment} :
    s.getCommitment id = .ok v ↔ s.journalGet id = some (.commitment v) :=
  get_eq_ok ResponsibilityObject.asCommitment_eq_some

end Get

/-! ## One lemma for each operation -/

section Operations

variable {call : KernelCall} {s : ResponsibilityStore}

theorem requireActive_eq_ok {id message : String} {u : Unit} :
    s.requireActive id message = .ok u ↔ s.currentStatus id = .ok .active := by
  rw [requireActive, Result.bind_eq_ok]
  constructor
  · rintro ⟨status, hstatus, hactive⟩
    rw [hstatus, of_decide_eq_true (guardValue_eq_ok.mp hactive)]
  · intro h
    exact ⟨.active, h, guardValue_eq_ok.mpr rfl⟩

theorem records_revise {v : ResponsibilityRevision} : s.Records call (s.revise v) := by
  refine .bind (fun d hd => .guard fun hversion => .bind fun status hstatus => .guard fun hopen => ?_)
  exact .save ⟨⟨d, hd, of_decide_eq_true hversion⟩, status, hstatus, of_decide_eq_true hopen⟩

theorem records_transition {v : ResponsibilityLifecycleTransition} :
    s.Records call (s.transition v) := by
  refine .bind (fun d hd => .guard fun hversion => .bind fun status hstatus => .guard fun hfrom => ?_)
  refine .save ⟨⟨d, hd, of_decide_eq_true hversion⟩, ?_⟩
  rw [of_decide_eq_true hfrom]
  exact hstatus

theorem records_createExpectation {v : ResponsibilityExpectation} :
    s.Records call (s.createExpectation v) :=
  .bind fun _ _ => .bind fun _ _ => .guard fun _ => .save trivial

theorem records_resolveExpectation {v : ResponsibilityExpectationResolution} :
    s.Records call (s.resolveExpectation v) := by
  refine .bind (fun e _ => .guard fun _ => ?_)
  split
  · exact .save trivial
  · split
    · exact .unchanged
    · exact .raise
  · exact .raise

theorem records_assessDueExpectation {ids : StableId} {id : String} {t clock : Time}
    {observed : List String} : s.Records call (s.assessDueExpectation ids id t clock observed) := by
  refine .bind (fun e _ => .bind fun isOpen _ => ?_)
  split
  · exact .unchanged
  · refine .bind (fun d _ => .guard fun _ => .bind fun status _ => ?_)
    split
    · exact .unchanged
    · dsimp only
      split
      · exact .map (f := fun _ => none) records_resolveExpectation
      · split
        · exact .unchanged
        · split
          · exact .guard fun _ => .unchanged
          · exact .map (f := some) (.save trivial)

theorem records_recordDomainAssessment {v : ResponsibilityAssessment} {t : Time} :
    s.Records call (s.recordDomainAssessment v t) := by
  refine .bind (fun d _ => .bind fun _ _ => .guard fun _ => .guard fun _ => ?_)
  split
  · split
    · exact .unchanged
    · exact .raise
  · next hfresh =>
    intro w s' h
    rw [journalSave_of_none hfresh, Except.ok.injEq, Prod.mk.injEq] at h
    exact .inr ⟨.assessment v, hfresh, trivial, h.2.symm⟩

theorem records_propose {v : WorkProposal} {t : Time} : s.Records call (s.propose v t) := by
  refine .bind (fun d hd => .bind fun _ hactive => .guard fun hversion => ?_)
  refine .bind (fun a _ => .guard fun _ => .guard fun _ => .guard fun _ => .guard fun _ => ?_)
  exact .save ⟨⟨d, hd, (of_decide_eq_true hversion).symm⟩, requireActive_eq_ok.mp hactive⟩

theorem records_recordPriorityJudgment {v : PriorityJudgment} :
    s.Records call (s.recordPriorityJudgment v) :=
  .bind fun _ _ => .guard fun _ => .save trivial

theorem records_createResourcePool {v : ResourcePool} : s.Records call (s.createResourcePool v) :=
  .guard fun _ => .save trivial

theorem records_recordPortfolioAdmission {v : PortfolioAdmissionDecision} :
    s.Records call (s.recordPortfolioAdmission v) := by
  refine .bind (fun proposal hproposal => .bind fun pool hpool => .guard fun _ => .guard fun hfits => ?_)
  refine .save ⟨proposal, pool, getProposal_eq_ok.mp hproposal, getPool_eq_ok.mp hpool, ?_⟩
  intro hadmitted
  simpa [hadmitted] using hfits

theorem records_reserve {v : ResourceReservation} {t : Time} :
    s.Records (.reserve v t) (s.reserve v t) := by
  refine .bind (fun proposal hproposal => .guard fun hof => .guard fun _ => ?_)
  refine .bind (fun available havailable => .guard fun hfits => .save ?_)
  exact ⟨t, proposal, available, rfl, getProposal_eq_ok.mp hproposal, of_decide_eq_true hof,
    havailable, hfits⟩

theorem records_releaseReservation {v : ResourceReservationRelease} :
    s.Records call (s.releaseReservation v) := by
  refine .bind (fun reservation hreservation => .guard fun hof => ?_)
  split
  · next hnone =>
    exact .save ⟨reservation, getReservation_eq_ok.mp hreservation, of_decide_eq_true hof, hnone⟩
  · split
    · exact .unchanged
    · exact .raise
  · exact .raise

/-- An accepted commitment has passed every check. -/
theorem admissible_of_commit {c : Commitment} {t : Time} {w : ResponsibilityObject}
    {s' : ResponsibilityStore} (h : s.commit c t = .ok (w, s')) :
    (∃ proposal priority portfolio reservation,
      s.Admissible t c proposal priority portfolio reservation) ∧
    s.saveAppendOnly (.commitment c) = .ok (w, s') := by
  unfold commit at h
  obtain ⟨proposal, hproposal, h⟩ := Result.bind_eq_ok.mp h
  obtain ⟨priority, hpriority, h⟩ := Result.bind_eq_ok.mp h
  obtain ⟨portfolio, hportfolio, h⟩ := Result.bind_eq_ok.mp h
  obtain ⟨reservation, hreservation, h⟩ := Result.bind_eq_ok.mp h
  obtain ⟨d, hd, h⟩ := Result.bind_eq_ok.mp h
  obtain ⟨hactive, h⟩ := Result.check_eq_ok.mp h
  obtain ⟨hversion, h⟩ := Result.check_eq_ok.mp h
  obtain ⟨hof, h⟩ := Result.check_eq_ok.mp h
  obtain ⟨hproposalVersion, h⟩ := Result.check_eq_ok.mp h
  obtain ⟨-, h⟩ := Result.check_eq_ok.mp h
  obtain ⟨assessment, -, h⟩ := Result.bind_eq_ok.mp h
  obtain ⟨-, h⟩ := Result.check_eq_ok.mp h
  obtain ⟨hpriorityOf, h⟩ := Result.check_eq_ok.mp h
  obtain ⟨hportfolioOf, h⟩ := Result.check_eq_ok.mp h
  obtain ⟨hreservationOf, h⟩ := Result.check_eq_ok.mp h
  obtain ⟨hheld, h⟩ := Result.check_eq_ok.mp h
  obtain ⟨hresources, h⟩ := Result.check_eq_ok.mp h
  simp only [guardValue_eq_ok, Bool.and_eq_true, decide_eq_true_eq, Bool.not_eq_true']
    at hversion hof hproposalVersion hpriorityOf hportfolioOf hreservationOf hheld hresources
  refine ⟨⟨proposal, priority, portfolio, reservation, ?_⟩, h⟩
  exact {
    proposalStored := getProposal_eq_ok.mp hproposal
    priorityStored := getPriority_eq_ok.mp hpriority
    portfolioStored := getPortfolio_eq_ok.mp hportfolio
    reservationStored := getReservation_eq_ok.mp hreservation
    active := ⟨⟨d, hd, hversion.symm⟩, requireActive_eq_ok.mp hactive⟩
    proposalRef := hof
    proposalVersion := hproposalVersion.trans hversion.symm
    priorityOf := hpriorityOf.1
    priorityAdmitted := hpriorityOf.2
    portfolioOf := hportfolioOf.1
    portfolioAdmitted := hportfolioOf.2
    reservationOf := hreservationOf
    held := hheld
    proposalResources := hresources.1
    reservationResources := hresources.2 }

theorem records_commit {c : Commitment} {t : Time} : s.Records (.commit c t) (s.commit c t) := by
  intro w s' h
  obtain ⟨⟨proposal, priority, portfolio, reservation, hadmissible⟩, hsave⟩ :=
    admissible_of_commit h
  exact Records.save (v := .commitment c)
    ⟨t, proposal, priority, portfolio, reservation, rfl, hadmissible⟩ w s' hsave

theorem records_bindReasoningSession {v : ReasoningSessionBinding} :
    s.Records call (s.bindReasoningSession v) :=
  .bind fun _ _ => .guard fun _ => .save trivial

theorem records_createContextSnapshot {ids : StableId} {id : String} {refs : SnapshotRefs}
    {clock : Time} : s.Records call (s.createContextSnapshot ids id refs clock) :=
  .bind fun _ _ => .bind fun _ _ => .save trivial

theorem records_handoff {v : ResponsibilityHandoff} : s.Records call (s.handoff v) :=
  .bind fun _ _ => .guard fun _ => .guard fun _ => .bind fun _ _ => .bind fun _ _ =>
    .guard fun _ => .save trivial

theorem records_validateHandoff {ids : StableId} {id : String} {t clock : Time} :
    s.Records call (s.validateHandoff ids id t clock) := by
  refine .bind (fun _ _ => .bind fun _ _ => .bind fun _ _ => .bind fun _ _ => ?_)
  exact .bind fun _ _ => .bind fun _ _ => .bind fun _ _ => .bind fun _ _ => .save trivial

/-- `register` records an identity and an admission of it, unless that was recorded before. -/
theorem register_cases {identity : StandingResponsibility} {admission : ResponsibilityAdmission}
    {w : ResponsibilityObject} {s' : ResponsibilityStore}
    (h : s.register identity admission = .ok (w, s')) :
    s.journalGet identity.id = none ∧
    (s.record (.responsibility identity)).Recorded call s' := by
  unfold register at h
  obtain ⟨hof, h⟩ := Result.check_eq_ok.mp h
  obtain ⟨-, h⟩ := Result.check_eq_ok.mp h
  obtain ⟨-, h⟩ := Result.check_eq_ok.mp h
  obtain ⟨hnone, h⟩ := Result.check_eq_ok.mp h
  rw [guardValue_eq_ok] at hof hnone
  have hfresh : s.journalGet identity.id = none := Option.isNone_iff_eq_none.mp hnone
  obtain ⟨⟨saved, s₁⟩, hsaved, h⟩ := Result.bind_eq_ok.mp h
  rw [journalSave_of_none (v := .responsibility identity) hfresh, Except.ok.injEq,
    Prod.mk.injEq] at hsaved
  obtain ⟨-, rfl⟩ := hsaved
  obtain ⟨⟨saved', s₂⟩, hsaved', h⟩ := Result.bind_eq_ok.mp h
  rw [Result.pure_eq_ok, Prod.mk.injEq] at h
  obtain ⟨-, rfl⟩ := h
  refine ⟨hfresh, Records.save (v := .admission admission) ⟨identity, ?_⟩ saved' s₂ hsaved'⟩
  rw [of_decide_eq_true hof]
  exact (journalGet_record s (.responsibility identity) identity.id).trans (if_pos rfl)

/-- Materialization answers with the Work it finds, or stores a new one. -/
theorem materializeWork_cases {ids : StableId} {id : String} {clock : Time}
    {gate : Result Unit} {work : Work} {s' : ResponsibilityStore}
    (h : s.materializeWork ids id clock gate = .ok (work, s')) :
    ∃ c proposal, s.journalGet id = some (.commitment c) ∧
      s.journalGet c.proposalRef = some (.proposal proposal) ∧
      ((s' = s ∧ s.works.get? (ids.text "work" [c.id, proposal.id]) = some work) ∨
        (s.works.get? (ids.text "work" [c.id, proposal.id]) = none ∧
          work = materializedWork (ids.text "work" [c.id, proposal.id]) c proposal clock ∧
          s' = s.putWork work)) := by
  unfold materializeWork at h
  obtain ⟨c, hc, h⟩ := Result.bind_eq_ok.mp h
  obtain ⟨proposal, hproposal, h⟩ := Result.bind_eq_ok.mp h
  refine ⟨c, proposal, getCommitment_eq_ok.mp hc, getProposal_eq_ok.mp hproposal, ?_⟩
  dsimp only at h
  split at h
  · next existing hexisting =>
    obtain ⟨-, h⟩ := Result.check_eq_ok.mp h
    rw [Result.pure_eq_ok, Prod.mk.injEq] at h
    exact .inl ⟨h.2.symm, h.1 ▸ hexisting⟩
  · next hnone =>
    obtain ⟨-, h⟩ := Result.check_eq_ok.mp h
    rw [Result.pure_eq_ok, Prod.mk.injEq] at h
    exact .inr ⟨hnone, h.1.symm, by rw [← h.2, h.1]⟩

end Operations

/-! ## Every call -/

section Step

variable {ids : StableId} {s : ResponsibilityStore} {call : KernelCall}

theorem perform_cases {s' : ResponsibilityStore} (h : call.perform ids s = .ok s') :
    s.Recorded call s' ∨
    (∃ identity, s.journalGet identity.id = none ∧
      (s.record (.responsibility identity)).Recorded call s') ∨
    ∃ work, s' = s.putWork work := by
  have hsaved : ∀ {α : Type} {x : Result (α × ResponsibilityStore)},
      s.Records call x → Prod.snd <$> x = .ok s' → s.Recorded call s' := by
    intro α x hx hmap
    cases x with
    | error e => exact absurd hmap (by simp [Functor.map, Except.map])
    | ok p =>
      have hp : p.2 = s' := by simpa [Functor.map, Except.map] using hmap
      exact hp ▸ hx p.1 p.2 rfl
  have hok : ∀ {α : Type} {x : Result (α × ResponsibilityStore)},
      Prod.snd <$> x = .ok s' → ∃ a, x = .ok (a, s') := by
    intro α x hmap
    cases x with
    | error e => exact absurd hmap (by simp [Functor.map, Except.map])
    | ok p =>
      have hp : p.2 = s' := by simpa [Functor.map, Except.map] using hmap
      exact ⟨p.1, by rw [← hp]⟩
  cases call with
  | register identity admission =>
    obtain ⟨w, hw⟩ := hok h
    obtain ⟨hfresh, hnext⟩ : s.journalGet identity.id = none ∧
        (s.record (.responsibility identity)).Recorded (.register identity admission) s' := register_cases hw
    exact .inr (.inl ⟨identity, hfresh, hnext⟩)
  | revise v => exact .inl (hsaved records_revise h)
  | transition v => exact .inl (hsaved records_transition h)
  | createExpectation v => exact .inl (hsaved records_createExpectation h)
  | resolveExpectation v => exact .inl (hsaved records_resolveExpectation h)
  | assessDueExpectation id now clock observed =>
    exact .inl (hsaved records_assessDueExpectation h)
  | recordDomainAssessment v now => exact .inl (hsaved records_recordDomainAssessment h)
  | propose v now => exact .inl (hsaved records_propose h)
  | recordPriorityJudgment v => exact .inl (hsaved records_recordPriorityJudgment h)
  | createResourcePool v => exact .inl (hsaved records_createResourcePool h)
  | recordPortfolioAdmission v => exact .inl (hsaved records_recordPortfolioAdmission h)
  | reserve v now => exact .inl (hsaved records_reserve h)
  | releaseReservation v => exact .inl (hsaved records_releaseReservation h)
  | commit v now => exact .inl (hsaved records_commit h)
  | materializeWork id clock gate =>
    obtain ⟨work, hwork⟩ := hok h
    obtain ⟨c, proposal, -, -, ⟨rfl, -⟩ | ⟨-, -, rfl⟩⟩ := materializeWork_cases hwork
    · exact .inl (.inl rfl)
    · exact .inr (.inr ⟨work, rfl⟩)
  | bindReasoningSession v => exact .inl (hsaved records_bindReasoningSession h)
  | createContextSnapshot id refs clock => exact .inl (hsaved records_createContextSnapshot h)
  | handoff v => exact .inl (hsaved records_handoff h)
  | validateHandoff id now clock => exact .inl (hsaved records_validateHandoff h)

/-- What a new Work and an admitted object keep, every call keeps. -/
theorem step_induction {I : ResponsibilityStore → Prop}
    (hwork : ∀ s work, I s → I (s.putWork work))
    (hrecord : ∀ s v, I s → s.journalGet v.id = none → s.Admits call v → I (s.record v))
    (hs : I s) : I (call.step ids s) := by
  have hrecorded : ∀ {s s'}, I s → s.Recorded call s' → I s' := by
    rintro s s' hs (rfl | ⟨v, hfresh, hadmits, rfl⟩)
    · exact hs
    · exact hrecord s v hs hfresh hadmits
  unfold KernelCall.step
  cases h : call.perform ids s with
  | error e => exact hs
  | ok s' =>
    rcases perform_cases h with hsame | ⟨identity, hfresh, hnext⟩ | ⟨work, rfl⟩
    · exact hrecorded hs hsame
    · exact hrecorded (hrecord s (.responsibility identity) hs hfresh trivial) hnext
    · exact hwork s work hs

end Step

end ResponsibilityStore
end PortableRuntime
