import PortableRuntime.Governance.OutcomeConvergence
import PortableRuntime.Governance.Revalidation

/-!
# Openings of a change

A call observes a change: it looks whether the event is processed, assesses the relations and
projects each assessment, and opens the reviews together with the mark of the event.  Between two of
these steps other calls may commit.
-/

namespace PortableRuntime
namespace Governance

/-! ## Calls -/

/-- The arguments of `observe_change`. -/
structure ObservedChange where
  eventRef : String
  changeRef : String
  changeType : String
  relations : List RelationAttributes
  context : String
  profile : RevalidationPolicyProfile := .default

structure RevalidationGovernanceResult where
  assessments : List AffectedAssessment
  openedObligations : List ReviewObligation
  alreadyProcessedObligationIds : List String
  projectionUnavailable : List ReviewProjection := []

/-- The locals of the loop over the assessments. -/
structure Projecting where
  assessments : List AffectedAssessment
  remaining : List AffectedAssessment
  ready : List ReviewObligation := []
  unavailable : List ReviewProjection := []

/-- How far a call has come. -/
inductive ChangeProgress where
  | called
  | projecting (locals : Projecting)
  | returned (result : Result RevalidationGovernanceResult)

section Observe

variable (textDigest : String → String)

/-- `project_review_obligation`. -/
def projectReviewObligation (persistence : GovernanceStore) (assessment : AffectedAssessment)
    (eventRef context : String) : Result ReviewProjection :=
  let disposition := assessment.revalidationDisposition.getD
    { action := assessment.disposition, rationaleRefs := assessment.reasonRefs }
  projectReviewObligationFromDisposition textDigest persistence eventRef assessment.affectedRef
    context disposition [assessment.changeRef]

/-- The loop body. -/
def projectAssessment (persistence : GovernanceStore) (args : ObservedChange)
    (locals : Projecting) (assessment : AffectedAssessment) (rest : List AffectedAssessment) :
    ChangeProgress :=
  let locals := { locals with remaining := rest }
  match projectReviewObligation textDigest persistence assessment args.eventRef args.context with
  | .error e => .returned (.error e)
  | .ok projection => match projection.status with
    | .notRequired => .projecting locals
    | .projectionUnavailable =>
      if projection.blocking then
        .returned (raiseValue (s!"governance projection unavailable for " ++
          s!"{Text.pyRepr projection.target} under {Text.pyRepr projection.action.text} " ++
          "disposition"))
      else .projecting { locals with unavailable := locals.unavailable ++ [projection] }
    | .ready => match projection.obligation with
      | none => .returned (raiseValue "ready governance projection requires an obligation")
      | some obligation => .projecting { locals with ready := locals.ready ++ [obligation] }

/-- The end of a call: nothing is marked where a projection is missing. -/
def finishChange (persistence : GovernanceStore) (args : ObservedChange) (locals : Projecting) :
    ChangeProgress × GovernanceStore :=
  if locals.unavailable ≠ [] then
    (.returned (.ok
      { assessments := locals.assessments, openedObligations := [],
        alreadyProcessedObligationIds := [], projectionUnavailable := locals.unavailable }),
      persistence)
  else match persistence.commitEventObligations args.eventRef locals.ready with
    | .error e => (.returned (.error e), persistence)
    | .ok (ids, persistence) =>
      (.returned (.ok
        { assessments := locals.assessments
          openedObligations := locals.ready.filter (fun o => ids.contains o.id)
          alreadyProcessedObligationIds := [] }), persistence)

/-- One call of `observe_change`, up to its next step. -/
def advanceChange (persistence : GovernanceStore) (args : ObservedChange) :
    ChangeProgress → ChangeProgress × GovernanceStore
  | .called =>
    if args.eventRef = "" then
      (.returned (raiseValue "event_ref must be non-empty"), persistence)
    else match persistence.processedEventObligationIds args.eventRef with
      | .error e => (.returned (.error e), persistence)
      | .ok (some ids) =>
        (.returned (.ok
          { assessments := [], openedObligations := [], alreadyProcessedObligationIds := ids }),
          persistence)
      | .ok none =>
        match assessRevalidation args.changeRef args.changeType args.relations args.profile with
        | .error e => (.returned (.error e), persistence)
        | .ok assessments => (.projecting { assessments, remaining := assessments }, persistence)
  | .projecting locals => match locals.remaining with
    | assessment :: rest =>
      (projectAssessment textDigest persistence args locals assessment rest, persistence)
    | [] => finishChange persistence args locals
  | .returned result => (.returned result, persistence)

end Observe

/-! ## Calls in flight -/

structure ChangeAttempt where
  args : ObservedChange
  progress : ChangeProgress := .called

/-- One store and the calls that observe changes. -/
structure Changing where
  store : GovernanceStore := {}
  attempts : List ChangeAttempt := []

/-- A call goes on, or another one is made in one piece. -/
inductive ChangeMove where
  | observeChange (args : ObservedChange)
  | advance (i : Nat)
  | persist (call : PersistenceCall)

namespace Changing

def step (textDigest : String → String) (w : Changing) : ChangeMove → Changing
  | .observeChange args => { w with attempts := w.attempts ++ [{ args }] }
  | .advance i => match w.attempts[i]? with
    | none => w
    | some attempt =>
      let advanced := advanceChange textDigest w.store attempt.args attempt.progress
      { store := advanced.2
        attempts := w.attempts.set i { attempt with progress := advanced.1 } }
  | .persist call => { w with store := call.step w.store }

end Changing

/-- An obligation is opened by hand for other events only. -/
def PersistenceCall.OpensForOthers (eventRef : String) : PersistenceCall → Prop
  | .openObligation obligation => obligation.triggerRef ≠ eventRef
  | _ => True

def ChangeMove.OpensForOthers (eventRef : String) : ChangeMove → Prop
  | .persist call => call.OpensForOthers eventRef
  | _ => True

namespace GovernanceStore

variable {s s' : GovernanceStore} {eventRef : String}

/-! ## What a call opens -/

/-- How a row comes to be: it was there, or it is put by hand or with the mark of its event. -/
def OpenedBy (s : GovernanceStore) (o : ReviewObligation) : PersistenceCall → Prop
  | .openObligation obligation => obligation = o
  | .commitEventObligations called obligations =>
    CommittedOpenings s called obligations ∧ o ∈ obligations
  | _ => False

theorem mem_of_opened {obligations : List ReviewObligation} {k : String} {o : ReviewObligation}
    (h : (s.opened obligations).obligations.get? k = some o) :
    s.obligations.get? k = some o ∨ o ∈ obligations := by
  induction obligations generalizing s with
  | nil => exact .inl h
  | cons first rest ih =>
    rcases ih h with hrow | hrest
    · by_cases hk : k = first.id
      · have hself : (s.obligations.set first.id first).get? k = some o := hrow
        rw [hk, Dict.get?_set_self, Option.some.injEq] at hself
        exact .inr (hself ▸ List.mem_cons_self)
      · exact .inl ((Dict.get?_set_of_ne _ hk _).symm.trans hrow)
    · exact .inr (List.mem_cons_of_mem first hrest)

theorem openedBy_of_row {call : PersistenceCall} {k : String} {o : ReviewObligation}
    (h : (call.step s).obligations.get? k = some o) :
    s.obligations.get? k = some o ∨ s.OpenedBy o call := by
  unfold PersistenceCall.step at h
  cases hperform : call.perform s with
  | error e =>
    rw [hperform] at h
    exact .inl h
  | ok s' =>
    rw [hperform] at h
    dsimp only at h
    cases call with
    | seedState schemeId state =>
      obtain ⟨-, ⟨-, rfl⟩ | ⟨-, -, rfl⟩⟩ := seedState_eq_ok.mp hperform <;> exact .inl h
    | openObligation obligation =>
      rcases openObligation_eq_ok.mp hperform with ⟨-, rfl⟩ | ⟨-, -, hmaterialize⟩
      · exact .inl h
      · obtain ⟨-, rfl⟩ := materialize_eq_ok.mp hmaterialize
        rcases @mem_of_opened _ [obligation] _ _ h with hrow | hmem
        · exact .inl hrow
        · exact .inr (List.mem_singleton.mp hmem).symm
    | commitEventObligations called obligations =>
      rcases commitEventObligations_eq_ok.mp (perform_commitEventObligations.mp hperform) with
        ⟨-, -, -, rfl⟩ | ⟨hc, -, rfl⟩
      · exact .inl h
      · exact (mem_of_opened h).imp_right (fun hmem => ⟨hc, hmem⟩)
    | recordDecision decision =>
      rcases recordDecision_eq_ok.mp hperform with ⟨-, rfl⟩ | ⟨-, -, -, -, rfl⟩ <;> exact .inl h
    | commitStateApplication schemeId nextState receipt freshness =>
      obtain ⟨-, -, rfl⟩ := commitStateApplication_eq_ok.mp hperform
      exact .inl h
    | commitReviewDischarge obligationId receipt freshness =>
      obtain ⟨-, -, rfl⟩ := commitReviewDischarge_eq_ok.mp hperform
      have hrow : (s.obligations.erase obligationId).get? k = some o := h
      rw [Dict.get?_erase] at hrow
      split at hrow
      · exact nomatch hrow
      · exact .inl hrow

/-- What a call appends to the journal. -/
def AppendedBy (s : GovernanceStore) (event : GovernanceEvent) : PersistenceCall → Prop
  | .seedState schemeId state => event = .stateSeeded schemeId state
  | .openObligation obligation => event = .reviewOpened obligation
  | .commitEventObligations called obligations =>
    CommittedOpenings s called obligations ∧
      ((∃ o ∈ obligations, event = .reviewOpened o) ∨
        event = .eventProcessed called (obligations.map (·.id)))
  | .recordDecision decision => event = .decisionRecorded decision
  | .commitStateApplication _ nextState receipt _ =>
    event = .applicationCommitted receipt (some nextState)
  | .commitReviewDischarge _ receipt _ => event = .applicationCommitted receipt none

theorem appendedBy_of_event {call : PersistenceCall} {event : GovernanceEvent}
    (h : event ∈ (call.step s).events) : event ∈ s.events ∨ s.AppendedBy event call := by
  unfold PersistenceCall.step at h
  cases hperform : call.perform s with
  | error e =>
    rw [hperform] at h
    exact .inl h
  | ok s' =>
    rw [hperform] at h
    dsimp only at h
    have hrecord : ∀ {s₁ : GovernanceStore} {event' : GovernanceEvent},
        s₁.takes event' = true → event ∈ (s₁.record event').events →
          event ∈ s₁.events ∨ event = event' := by
      intro s₁ event' htakes hmem
      exact (List.mem_append.mp ((mem_events_record htakes _).mp hmem)).imp_right
        List.mem_singleton.mp
    cases call with
    | seedState schemeId state =>
      obtain ⟨-, ⟨-, rfl⟩ | ⟨-, htakes, rfl⟩⟩ := seedState_eq_ok.mp hperform
      · exact .inl h
      · exact hrecord htakes h
    | openObligation obligation =>
      rcases openObligation_eq_ok.mp hperform with ⟨-, rfl⟩ | ⟨-, -, hmaterialize⟩
      · exact .inl h
      · obtain ⟨htakes, rfl⟩ := materialize_eq_ok.mp hmaterialize
        exact hrecord htakes h
    | commitEventObligations called obligations =>
      rcases commitEventObligations_eq_ok.mp (perform_commitEventObligations.mp hperform) with
        ⟨-, -, -, rfl⟩ | ⟨hc, htakes, rfl⟩
      · exact .inl h
      · rcases hrecord htakes h with hopened | hmark
        · exact ((mem_events_opened hc.apart hc.taken _).mp hopened).imp_right
            (fun hreview => ⟨hc, .inl hreview⟩)
        · exact .inr ⟨hc, .inr hmark⟩
    | recordDecision decision =>
      rcases recordDecision_eq_ok.mp hperform with ⟨-, rfl⟩ | ⟨-, -, -, htakes, rfl⟩
      · exact .inl h
      · exact hrecord htakes h
    | commitStateApplication schemeId nextState receipt freshness =>
      obtain ⟨-, htakes, rfl⟩ := commitStateApplication_eq_ok.mp hperform
      exact hrecord htakes h
    | commitReviewDischarge obligationId receipt freshness =>
      obtain ⟨-, htakes, rfl⟩ := commitReviewDischarge_eq_ok.mp hperform
      exact hrecord htakes h

/-! ## The mark of an event -/

theorem processedIds_iff (h : Consistent s) {ids : List String} :
    s.processedEventObligationIds eventRef = .ok (some ids) ↔
      .eventProcessed eventRef ids ∈ s.events := by
  rw [mem_events_iff h.keyed, processedEventObligationIds,
    show (GovernanceEvent.eventProcessed eventRef ids).id =
      (GovernanceEvent.eventProcessed eventRef []).id from rfl]
  constructor
  · intro hmark
    split at hmark
    · rename_i key marked hget
      rw [Result.check_eq_ok, guardValue_eq_ok, decide_eq_true_eq, Result.pure_eq_ok,
        Option.some.injEq] at hmark
      rw [hget, hmark.1, hmark.2]
    · exact nomatch hmark
  · intro hget
    simp [hget, guardValue, pure, Except.pure, bind, Except.bind]

theorem processedIds_kept (h : Consistent s) (call : PersistenceCall) {ids : List String}
    (hmark : s.processedEventObligationIds eventRef = .ok (some ids)) :
    (call.step s).processedEventObligationIds eventRef = .ok (some ids) :=
  (processedIds_iff (h.step call)).mpr (events_step s call ((processedIds_iff h).mp hmark))

/-- A commit that is accepted first marks the event with the ids that it opens. -/
theorem processedIds_of_commit {obligations : List ReviewObligation} {ids : List String}
    (hnone : s.processedEventObligationIds eventRef = .ok none)
    (h : s.commitEventObligations eventRef obligations = .ok (ids, s')) :
    ids = obligations.map (·.id) ∧
      s'.processedEventObligationIds eventRef = .ok (some ids) := by
  unfold commitEventObligations at h
  simp only [Result.bind_eq_ok, guardValue_eq_ok, exists_const, hnone, Except.ok.injEq,
    exists_eq_left', Result.pure_eq_ok, Prod.mk.injEq, appendHistoryEvent_eq_ok] at h
  obtain ⟨-, -, -, -, s₁, -, s₂, ⟨-, rfl⟩, rfl, rfl⟩ := h
  exact ⟨rfl, processedIds_marked _ _⟩

theorem processedIds_of_committed {obligations : List ReviewObligation} (hs : Consistent s)
    (h : CommittedOpenings s eventRef obligations) :
    ((PersistenceCall.commitEventObligations eventRef obligations).step
      s).processedEventObligationIds eventRef = .ok (some (obligations.map (·.id))) := by
  obtain ⟨ids, hcommit⟩ := commitEventObligations_eq_ok.mpr
    (.inr ⟨h, takes_processed hs h.unprocessed, rfl⟩)
  obtain ⟨rfl, hmark⟩ := processedIds_of_commit h.unprocessed hcommit
  rw [step_of_perform _ (perform_commitEventObligations.mpr ⟨_, hcommit⟩)]
  exact hmark

theorem commit_of_processed {obligations : List ReviewObligation} {ids : List String}
    (hnamed : eventRef ≠ "")
    (hmark : s.processedEventObligationIds eventRef = .ok (some ids))
    (htriggers : ∀ o ∈ obligations, o.triggerRef = eventRef) :
    s.commitEventObligations eventRef obligations = .ok (ids, s) := by
  unfold commitEventObligations
  rw [Result.check_eq_ok, Result.check_eq_ok, guardValue_eq_ok, guardValue_eq_ok, hmark]
  exact ⟨by simpa using hnamed, by simpa using htriggers, rfl⟩

theorem commit_of_other {obligations : List ReviewObligation} {o : ReviewObligation}
    (ho : o ∈ obligations) (hother : o.triggerRef ≠ eventRef) :
    ∃ e, s.commitEventObligations eventRef obligations = .error e := by
  cases h : s.commitEventObligations eventRef obligations with
  | error e => exact ⟨e, rfl⟩
  | ok result =>
    unfold commitEventObligations at h
    rw [Result.check_eq_ok, Result.check_eq_ok, guardValue_eq_ok, guardValue_eq_ok,
      List.all_eq_true] at h
    exact absurd (by simpa using h.2.1 o ho) hother

/-- What the journal says of the openings of an event. -/
structure OpenedWithMark (eventRef : String) (s : GovernanceStore) : Prop where
  consistent : Consistent s
  named : ∀ ids, s.processedEventObligationIds eventRef = .ok (some ids) → eventRef ≠ ""
  marked : ∀ o, .reviewOpened o ∈ s.events → o.triggerRef = eventRef →
    ∃ ids, s.processedEventObligationIds eventRef = .ok (some ids) ∧ o.id ∈ ids

theorem OpenedWithMark.empty : OpenedWithMark eventRef {} :=
  ⟨Consistent.empty, fun _ h => (nomatch h), fun _ h => absurd h List.not_mem_nil⟩

theorem OpenedWithMark.step (h : OpenedWithMark eventRef s) {call : PersistenceCall}
    (hcall : call.OpensForOthers eventRef) : OpenedWithMark eventRef (call.step s) := by
  have hconsistent := h.consistent.step call
  refine ⟨hconsistent, fun ids hmark => ?_, fun o ho htrigger => ?_⟩
  · rcases appendedBy_of_event ((processedIds_iff hconsistent).mp hmark) with hold | happended
    · exact h.named ids ((processedIds_iff h.consistent).mpr hold)
    · cases call with
      | commitEventObligations called obligations =>
        obtain ⟨hc, ⟨o, -, heq⟩ | heq⟩ := happended
        · exact nomatch heq
        · rw [GovernanceEvent.eventProcessed.injEq] at heq
          exact heq.1 ▸ hc.named
      | _ => exact nomatch happended
  · rcases appendedBy_of_event ho with hold | happended
    · obtain ⟨ids, hmark, hid⟩ := h.marked o hold htrigger
      exact ⟨ids, processedIds_kept h.consistent call hmark, hid⟩
    · cases call with
      | openObligation obligation =>
        have heq := happended
        rw [GovernanceStore.AppendedBy, GovernanceEvent.reviewOpened.injEq] at heq
        exact absurd (heq ▸ htrigger) hcall
      | commitEventObligations called obligations =>
        obtain ⟨hc, ⟨o', ho', heq⟩ | heq⟩ := happended
        · obtain rfl : o = o' := GovernanceEvent.reviewOpened.inj heq
          obtain rfl : eventRef = called := htrigger.symm.trans (hc.triggers o ho')
          exact ⟨_, processedIds_of_committed h.consistent hc, List.mem_map_of_mem ho'⟩
        · exact nomatch heq
      | _ => exact nomatch happended

/-- The journal has one opening under an id. -/
theorem eq_of_opened (h : Consistent s) {o o' : ReviewObligation}
    (hevent : .reviewOpened o ∈ s.events) (hrow : s.obligations.get? o.id = some o') : o' = o := by
  obtain ⟨hid, hevent'⟩ := h.reviews.opened _ _ hrow
  have hget := (mem_events_iff h.keyed).mp hevent
  have hget' := (mem_events_iff h.keyed).mp hevent'
  rw [reviewOpened_id_eq.mpr hid, hget] at hget'
  exact (GovernanceEvent.reviewOpened.inj (Option.some.inj hget')).symm

/-- An obligation of the event that was opened and is not open stays so. -/
theorem OpenedWithMark.stays_closed (h : OpenedWithMark eventRef s) {call : PersistenceCall}
    (hcall : call.OpensForOthers eventRef) {o : ReviewObligation}
    (htrigger : o.triggerRef = eventRef) (hevent : .reviewOpened o ∈ s.events)
    (hclosed : s.obligations.get? o.id = none) :
    (call.step s).obligations.get? o.id = none := by
  cases hrow : (call.step s).obligations.get? o.id with
  | none => rfl
  | some o' =>
    obtain rfl : o' = o :=
      eq_of_opened (h.consistent.step call) (events_step s call hevent) hrow
    rcases openedBy_of_row hrow with hold | hopened
    · rw [hclosed] at hold
      exact nomatch hold
    · cases call with
      | openObligation obligation =>
        obtain rfl : obligation = o' := hopened
        exact absurd htrigger hcall
      | commitEventObligations called obligations =>
        obtain ⟨hc, hmem⟩ := hopened
        obtain rfl : eventRef = called := htrigger.symm.trans (hc.triggers o' hmem)
        obtain ⟨ids, hmark, -⟩ := h.marked o' hevent htrigger
        exact nomatch hc.unprocessed.symm.trans hmark
      | _ => exact hopened.elim

end GovernanceStore

/-! ## Runs -/

namespace Changing

variable {textDigest : String → String} {w : Changing} {eventRef : String}

/-- A call that observes a change commits the openings of its event, or nothing. -/
theorem advance_store (textDigest : String → String) (s : GovernanceStore) (args : ObservedChange)
    (progress : ChangeProgress) :
    (advanceChange textDigest s args progress).2 = s ∨
      ∃ ready, (advanceChange textDigest s args progress).2 =
        (PersistenceCall.commitEventObligations args.eventRef ready).step s := by
  cases progress with
  | called =>
    refine .inl ?_
    simp only [advanceChange]
    split
    · rfl
    · split
      · rfl
      · rfl
      · split <;> rfl
  | projecting locals =>
    simp only [advanceChange]
    split
    · exact .inl rfl
    · rw [finishChange]
      split
      · exact .inl rfl
      · refine .inr ⟨locals.ready, ?_⟩
        rw [PersistenceCall.step, PersistenceCall.perform]
        cases s.commitEventObligations args.eventRef locals.ready <;> rfl
  | returned result => exact .inl rfl

/-- What a move does to the store is a call's doing. -/
theorem step_store (textDigest : String → String) (w : Changing) (m : ChangeMove)
    (hm : m.OpensForOthers eventRef) :
    (w.step textDigest m).store = w.store ∨
      ∃ call : PersistenceCall, call.OpensForOthers eventRef ∧
        (w.step textDigest m).store = call.step w.store := by
  cases m with
  | observeChange args => exact .inl rfl
  | persist call => exact .inr ⟨call, hm, rfl⟩
  | advance i =>
    cases hget : w.attempts[i]? with
    | none => exact .inl (by simp only [step, hget])
    | some attempt =>
      simp only [step, hget]
      rcases advance_store textDigest w.store attempt.args attempt.progress with hsame | ⟨ready, h⟩
      · exact .inl hsame
      · exact .inr ⟨.commitEventObligations attempt.args.eventRef ready, trivial, h⟩

variable (textDigest) in
theorem openedWithMark_step (h : w.store.OpenedWithMark eventRef) {m : ChangeMove}
    (hm : m.OpensForOthers eventRef) : (w.step textDigest m).store.OpenedWithMark eventRef := by
  rcases step_store textDigest w m hm with hsame | ⟨call, hcall, heq⟩
  · rw [hsame]
    exact h
  · rw [heq]
    exact h.step hcall

/-- What later states keep of the openings of an event. -/
structure KeepsOpenings (eventRef : String) (w w' : Changing) : Prop where
  events : w.store.events ⊆ w'.store.events
  marked : ∀ ids, w.store.processedEventObligationIds eventRef = .ok (some ids) →
    w'.store.processedEventObligationIds eventRef = .ok (some ids)
  closed : ∀ o, o.triggerRef = eventRef → .reviewOpened o ∈ w.store.events →
    w.store.obligations.get? o.id = none → w'.store.obligations.get? o.id = none

variable (textDigest) in
theorem keepsOpenings_step (h : w.store.OpenedWithMark eventRef) {m : ChangeMove}
    (hm : m.OpensForOthers eventRef) : KeepsOpenings eventRef w (w.step textDigest m) := by
  rcases step_store textDigest w m hm with hsame | ⟨call, hcall, heq⟩
  · refine ⟨?_, fun ids hmark => ?_, fun o _ _ hclosed => ?_⟩
    · rw [hsame]
      exact List.Subset.refl _
    · rwa [hsame]
    · rwa [hsame]
  · refine ⟨?_, fun ids hmark => ?_, fun o htrigger hevent hclosed => ?_⟩
    · rw [heq]
      exact GovernanceStore.events_step w.store call
    · rw [heq]
      exact GovernanceStore.processedIds_kept h.consistent call hmark
    · rw [heq]
      exact h.stays_closed hcall htrigger hevent hclosed

variable (textDigest) in
theorem openedWithMark_run (h : w.store.OpenedWithMark eventRef) {moves : List ChangeMove}
    (hmoves : ∀ m ∈ moves, m.OpensForOthers eventRef) :
    (run (step textDigest) w moves).store.OpenedWithMark eventRef ∧
      KeepsOpenings eventRef w (run (step textDigest) w moves) := by
  induction moves generalizing w with
  | nil => exact ⟨h, List.Subset.refl _, fun _ hmark => hmark, fun _ _ _ hclosed => hclosed⟩
  | cons m rest ih =>
    have hm := hmoves m List.mem_cons_self
    have hfirst := keepsOpenings_step textDigest h hm
    obtain ⟨hlast, hrest⟩ := ih (openedWithMark_step textDigest h hm)
      (fun m' hm' => hmoves m' (List.mem_cons_of_mem m hm'))
    exact ⟨hlast, List.Subset.trans hfirst.events hrest.events,
      fun ids hmark => hrest.marked ids (hfirst.marked ids hmark),
      fun o htrigger hevent hclosed => hrest.closed o htrigger (hfirst.events hevent)
        (hfirst.closed o htrigger hevent hclosed)⟩

end Changing

/-- What calls for an event that is marked with ids do: those that begin now return the ids, and none
changes the store.  A commit of an obligation that another event triggers is refused. -/
structure FixedIds (textDigest : String → String) (eventRef : String) (ids : List String)
    (s : GovernanceStore) : Prop where
  marked : s.processedEventObligationIds eventRef = .ok (some ids)
  commit : ∀ obligations : List ReviewObligation, (∀ o ∈ obligations, o.triggerRef = eventRef) →
    s.commitEventObligations eventRef obligations = .ok (ids, s)
  refused : ∀ obligations : List ReviewObligation, ∀ o ∈ obligations, o.triggerRef ≠ eventRef →
    ∃ e, s.commitEventObligations eventRef obligations = .error e
  observe : ∀ args : ObservedChange, args.eventRef = eventRef →
    advanceChange textDigest s args .called =
      (.returned (.ok
        { assessments := [], openedObligations := [], alreadyProcessedObligationIds := ids }), s)
  inFlight : ∀ (args : ObservedChange) (progress : ChangeProgress), args.eventRef = eventRef →
    (advanceChange textDigest s args progress).2 = s

theorem fixedIds (textDigest : String → String) {eventRef : String} {ids : List String}
    {s : GovernanceStore} (hnamed : eventRef ≠ "")
    (hmark : s.processedEventObligationIds eventRef = .ok (some ids)) :
    FixedIds textDigest eventRef ids s where
  marked := hmark
  commit := fun _ htriggers => GovernanceStore.commit_of_processed hnamed hmark htriggers
  refused := fun _ _ ho hother => GovernanceStore.commit_of_other ho hother
  observe := by
    rintro args rfl
    simp only [advanceChange, if_neg hnamed, hmark]
  inFlight := by
    rintro args progress rfl
    rcases Changing.advance_store textDigest s args progress with hsame | ⟨ready, heq⟩
    · exact hsame
    · rw [heq, PersistenceCall.step]
      cases hperform : (PersistenceCall.commitEventObligations args.eventRef ready).perform s with
      | error e => rfl
      | ok s' =>
        rcases GovernanceStore.commitEventObligations_eq_ok.mp
          (GovernanceStore.perform_commitEventObligations.mp hperform) with
          ⟨-, -, -, rfl⟩ | ⟨hc, -, -⟩
        · rfl
        · cases hc.unprocessed.symm.trans hmark

/-! ## Exactly once -/

/-- Wherever calls interleave: the first commit for an event that is accepted marks it with the ids
that it opens; from then on no call for the event changes the store, and those that begin return
the ids; and an open obligation of the event is one of these, and is not opened again once it is
closed. -/
theorem event_opening_exactly_once (textDigest : String → String) (eventRef : String)
    (before middle after : List ChangeMove)
    (h : ∀ m ∈ before ++ middle ++ after, m.OpensForOthers eventRef) :
    let w₀ := run (Changing.step textDigest) {} before
    let w₁ := run (Changing.step textDigest) w₀ middle
    let w₂ := run (Changing.step textDigest) w₁ after
    (∀ obligations ids s', w₀.store.processedEventObligationIds eventRef = .ok none →
      w₀.store.commitEventObligations eventRef obligations = .ok (ids, s') →
        ids = obligations.map (·.id) ∧ FixedIds textDigest eventRef ids s') ∧
    (∀ ids, w₀.store.processedEventObligationIds eventRef = .ok (some ids) →
      FixedIds textDigest eventRef ids w₁.store) ∧
    (∀ o, o.triggerRef = eventRef → w₀.store.obligations.get? o.id = some o →
      (∃ ids, w₀.store.processedEventObligationIds eventRef = .ok (some ids) ∧ o.id ∈ ids) ∧
      (w₁.store.obligations.get? o.id ≠ some o → w₂.store.obligations.get? o.id = none)) := by
  intro w₀ w₁ w₂
  have hempty : ({} : Changing).store.OpenedWithMark eventRef := GovernanceStore.OpenedWithMark.empty
  obtain ⟨hw₀, -⟩ := Changing.openedWithMark_run textDigest hempty
    (fun m hm => h m (by simp [hm]) : ∀ m ∈ before, _)
  obtain ⟨hw₁, hkeeps₁⟩ := Changing.openedWithMark_run textDigest hw₀
    (fun m hm => h m (by simp [hm]) : ∀ m ∈ middle, _)
  obtain ⟨-, hkeeps₂⟩ := Changing.openedWithMark_run textDigest hw₁
    (fun m hm => h m (by simp [hm]) : ∀ m ∈ after, _)
  refine ⟨fun obligations ids s' hnone hcommit => ?_, fun ids hmark => ?_,
    fun o htrigger hopen => ?_⟩
  · obtain ⟨hids, hmark⟩ := GovernanceStore.processedIds_of_commit hnone hcommit
    refine ⟨hids, fixedIds textDigest ?_ hmark⟩
    rintro rfl
    have hc := GovernanceStore.commitEventObligations_eq_ok.mp ⟨ids, hcommit⟩
    exact hc.elim (fun hold => hold.1 rfl) (fun hnew => hnew.1.named rfl)
  · exact fixedIds textDigest (hw₀.named ids hmark) (hkeeps₁.marked ids hmark)
  · obtain ⟨-, hevent⟩ := hw₀.consistent.reviews.opened _ _ hopen
    refine ⟨hw₀.marked o hevent htrigger, fun hclosed => ?_⟩
    have hevent₁ := hkeeps₁.events hevent
    refine hkeeps₂.closed o htrigger hevent₁ ?_
    cases hrow : w₁.store.obligations.get? o.id with
    | none => rfl
    | some o' =>
      obtain rfl : o' = o := GovernanceStore.eq_of_opened hw₁.consistent hevent₁ hrow
      exact absurd hrow hclosed

namespace Qualification

/-- The review is opened for its event and discharged without a change; then the event is observed
and committed again. -/
def observedAgain : List ChangeMove :=
  [.observeChange
    { eventRef := review.triggerRef, changeRef := "model", changeType := "model", relations := [],
      context := "production" },
    .advance 0, .persist (.commitEventObligations review.triggerRef [review])]

def openedForEvent : List ChangeMove :=
  [.persist (.seedState "scheme" candidate),
    .persist (.commitEventObligations review.triggerRef [review])]

def closedWithoutChange : List ChangeMove :=
  [.persist (.recordDecision noChange),
    .persist (.commitReviewDischarge "review" dischargedReview (some unchanged))]

end Qualification

open Governance.Qualification in
/-- The review of the event stays closed. -/
theorem event_opening_once_observed_again :
    (run (Changing.step id) (run (Changing.step id) (run (Changing.step id) {} openedForEvent)
      closedWithoutChange) observedAgain).store.obligations.get? review.id = none := by
  refine ((event_opening_exactly_once id review.triggerRef openedForEvent closedWithoutChange
    observedAgain ?_).2.2 review rfl ?_).2 ?_
  · intro m hm
    simp only [openedForEvent, closedWithoutChange, observedAgain, List.cons_append,
      List.nil_append, List.mem_cons, List.not_mem_nil, or_false] at hm
    rcases hm with rfl | rfl | rfl | rfl | rfl | rfl | rfl <;> trivial
  · decide
  · decide

open Governance.Qualification in
/-- A later commit of an obligation that another event triggers returns no ids. -/
theorem later_commit_refused :
    ¬ ∀ (eventRef : String) (calls : List PersistenceCall) (ids : List String),
      (run PersistenceCall.step {} calls).processedEventObligationIds eventRef = .ok (some ids) →
        ∀ obligations : List ReviewObligation,
          (run PersistenceCall.step {} calls).commitEventObligations eventRef obligations =
            .ok (ids, run PersistenceCall.step {} calls) := by
  intro h
  have hcommit := h "other" [.commitEventObligations "other" []] [] (by decide) [review]
  have herror : ((run PersistenceCall.step {} [.commitEventObligations "other"
      []]).commitEventObligations "other" [review]).isOk = false := by decide
  rw [hcommit] at herror
  exact nomatch herror

end Governance
end PortableRuntime
