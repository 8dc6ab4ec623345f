import PortableRuntime.Governance.Persistence

/-!
# What an accepted persistence operation says

One lemma for each operation of the durable store: what its acceptance says of the store,
and what it leaves.
-/

namespace PortableRuntime
namespace Governance
namespace GovernanceStore

/-- The journal takes an event of a new id, or one that it has. -/
def takes (s : GovernanceStore) (event : GovernanceEvent) : Bool :=
  (s.history.get? event.id).all (· = event)

def record (s : GovernanceStore) (event : GovernanceEvent) : GovernanceStore :=
  { s with history := s.history.set event.id event }

/-- What a committed state application finds and is checked for. -/
structure CommittedApplication (s : GovernanceStore) (schemeId : String)
    (nextState : DistinctionState) (receipt : ApplicationReceipt)
    (freshness : Option FreshnessAnchorLookup) (current : DistinctionState)
    (decision : GovernanceDecision) : Prop where
  fresh : s.applications.get? receipt.application.id = none
  found : s.states.get? schemeId = some current
  decided : s.decisions.get? receipt.application.decisionRef = some decision
  basis : freshness.all (relevantBasisUnchanged decision) = true
  kind : receipt.effectKind = "state"
  scheme : receipt.application.schemeId = schemeId
  target : receipt.application.target = schemeId
  decisionTarget : decision.target = schemeId
  linked : linked receipt.application decision = true
  preAnchor : receipt.preAnchor = stateAnchor current
  anchored : receipt.preAnchor = decision.expectedStateAnchor
  candidate : candidateStateEffect receipt.application current = nextState
  admissible : stateAdmissibleFor schemeId nextState = true
  effect : effectMatchesDecision decision nextState = true
  postAnchor : receipt.postAnchor = stateAnchor nextState

/-- What a committed review discharge finds and is checked for. -/
structure CommittedDischarge (s : GovernanceStore) (obligationId : String)
    (receipt : ApplicationReceipt) (freshness : Option FreshnessAnchorLookup)
    (obligation : ReviewObligation) (decision : GovernanceDecision) : Prop where
  fresh : s.applications.get? receipt.application.id = none
  opened : s.obligations.get? obligationId = some obligation
  decided : s.decisions.get? receipt.application.decisionRef = some decision
  basis : freshness.all (relevantBasisUnchanged decision) = true
  kind : receipt.effectKind = "review_discharge"
  operation : receipt.application.operation = applyReviewDischargeOp
  named : receipt.application.reviewObligationId = some obligationId
  target : receipt.application.target = "review_obligation:" ++ obligationId
  scheme : receipt.application.schemeId = decision.target
  reviewed : decision.reviewRefs.contains obligationId = true
  obligationTarget : obligation.target = decision.target
  context : obligation.context = decision.context
  linked : linked receipt.application decision = true
  preAnchor : receipt.preAnchor = obligationsAnchor s.obligations
  postAnchor : receipt.postAnchor = obligationsAnchor (s.obligations.erase obligationId)

section Specs

variable {s s' : GovernanceStore}

theorem appendHistoryEvent_eq_ok {event : GovernanceEvent} :
    s.appendHistoryEvent event = .ok s' ↔ s.takes event = true ∧ s' = s.record event := by
  unfold appendHistoryEvent takes record
  cases hget : s.history.get? event.id with
  | none =>
    rw [Except.ok.injEq, eq_comm]
    exact (and_iff_right rfl).symm
  | some existing =>
    by_cases hsame : existing = event
    · subst hsame
      have hkept : { s with history := s.history.set existing.id existing } = s := by
        rw [Dict.set_of_get? hget]
      simp only [if_true, Option.all_some, decide_true, true_and, hkept, Except.ok.injEq]
      exact eq_comm
    · simp [hsame, raiseValue]

theorem seedState_eq_ok {schemeId : String} {state : DistinctionState} :
    s.seedState schemeId state = .ok s' ↔ stateAdmissibleFor schemeId state = true ∧
      ((s.states.get? schemeId = some state ∧ s' = s) ∨
        (s.states.get? schemeId = none ∧ s.takes (.stateSeeded schemeId state) = true ∧
          s' = { s with states := s.states.set schemeId state }.record
            (.stateSeeded schemeId state))) := by
  unfold seedState
  rw [Result.check_eq_ok, guardValue_eq_ok]
  refine and_congr Iff.rfl ?_
  cases hget : s.states.get? schemeId with
  | none =>
    simp only [appendHistoryEvent_eq_ok, reduceCtorEq, false_and, false_or, true_and]
    exact Iff.rfl
  | some existing =>
    simp only [Result.check_eq_ok, guardValue_eq_ok, Result.pure_eq_ok, decide_eq_true_eq,
      Option.some.injEq, reduceCtorEq, false_and, or_false]
    exact and_congr Iff.rfl eq_comm

theorem materialize_eq_ok {o : ReviewObligation} :
    s.materialize o = .ok s' ↔ s.takes (.reviewOpened o) = true ∧
      s' = { s with obligations := s.obligations.set o.id o }.record (.reviewOpened o) := by
  unfold materialize
  rw [appendHistoryEvent_eq_ok]
  exact Iff.rfl

theorem validateNewObligation_eq_ok {o : ReviewObligation} {new : Bool} :
    s.validateNewObligation o = .ok new ↔
      (s.obligations.get? o.id = some o ∧ new = false) ∨
      (s.obligations.get? o.id = none ∧ keyOpen s.configuration.runtime o = false ∧
        new = true) := by
  unfold validateNewObligation
  cases hget : s.obligations.get? o.id with
  | none =>
    simp only [Result.check_eq_ok, guardValue_eq_ok, Result.pure_eq_ok, Bool.not_eq_true',
      reduceCtorEq, false_and, false_or, true_and]
    exact and_congr Iff.rfl eq_comm
  | some existing =>
    by_cases hsame : existing = o
    · simp only [hsame, if_true, Except.ok.injEq, true_and, reduceCtorEq, false_and, or_false]
      exact eq_comm
    · simp [hsame, raiseValue]

theorem openObligation_eq_ok {o : ReviewObligation} :
    s.openObligation o = .ok s' ↔
      (s.obligations.get? o.id = some o ∧ s' = s) ∨
      (s.obligations.get? o.id = none ∧ keyOpen s.configuration.runtime o = false ∧
        s.materialize o = .ok s') := by
  unfold openObligation
  rw [Result.bind_eq_ok]
  constructor
  · rintro ⟨new, hnew, h⟩
    rcases validateNewObligation_eq_ok.mp hnew with ⟨hopen, rfl⟩ | ⟨hnone, hkey, rfl⟩
    · rw [if_neg Bool.false_ne_true, Result.pure_eq_ok] at h
      exact .inl ⟨hopen, h.symm⟩
    · rw [if_pos rfl] at h
      exact .inr ⟨hnone, hkey, h⟩
  · rintro (⟨hopen, rfl⟩ | ⟨hnone, hkey, h⟩)
    · exact ⟨false, validateNewObligation_eq_ok.mpr (.inl ⟨hopen, rfl⟩), rfl⟩
    · exact ⟨true, validateNewObligation_eq_ok.mpr (.inr ⟨hnone, hkey, rfl⟩), h⟩

/-! ## Openings of an event -/

theorem validateEventObligations_eq_ok {seen : List (String × String × List String × String)}
    {obligations : List ReviewObligation} :
    s.validateEventObligations seen obligations = .ok () ↔
      (obligations.map obligationKey).Nodup ∧
      ∀ o ∈ obligations, obligationKey o ∉ seen ∧ s.validateNewObligation o = .ok true := by
  induction obligations generalizing seen with
  | nil => simp [validateEventObligations, Result.pure_eq_ok]
  | cons o rest ih =>
    simp only [validateEventObligations, Result.bind_eq_ok, guardValue_eq_ok, exists_const, ih,
      Bool.not_eq_true', List.contains_eq_mem, decide_eq_false_iff_not]
    rw [List.map_cons, List.nodup_cons, List.forall_mem_cons]
    constructor
    · rintro ⟨hseen, new, hnew, rfl, hnodup, hrest⟩
      refine ⟨⟨fun hmem => ?_, hnodup⟩, ⟨hseen, hnew⟩, fun o' ho' => ?_⟩
      · obtain ⟨o', ho', hkey⟩ := List.mem_map.mp hmem
        exact (hrest o' ho').1 (hkey ▸ List.mem_cons_self)
      · exact ⟨fun hmem => (hrest o' ho').1 (List.mem_cons_of_mem _ hmem), (hrest o' ho').2⟩
    · rintro ⟨⟨hdistinct, hnodup⟩, ⟨hseen, hnew⟩, hrest⟩
      refine ⟨hseen, true, hnew, rfl, hnodup, fun o' ho' => ⟨fun hmem => ?_, (hrest o' ho').2⟩⟩
      rcases List.mem_cons.mp hmem with hkey | hold
      · exact hdistinct (List.mem_map.mpr ⟨o', ho', hkey⟩)
      · exact (hrest o' ho').1 hold

/-- The store once the obligations are put and their events appended. -/
def opened (s : GovernanceStore) (obligations : List ReviewObligation) : GovernanceStore :=
  obligations.foldl (fun s o =>
    { s with obligations := s.obligations.set o.id o }.record (.reviewOpened o)) s

theorem takes_record_of_ne {event event' : GovernanceEvent} (h : event'.id ≠ event.id) :
    (s.record event).takes event' = s.takes event' := by
  unfold takes record
  rw [Dict.get?_set_of_ne _ h]

theorem takes_record_self {event event' : GovernanceEvent} (h : event'.id = event.id) :
    (s.record event).takes event' = true ↔ event' = event := by
  unfold takes record
  rw [h, Dict.get?_set_self, Option.all_some, decide_eq_true_eq, eq_comm]

theorem reviewOpened_id_eq {o o' : ReviewObligation} :
    (GovernanceEvent.reviewOpened o).id = (GovernanceEvent.reviewOpened o').id ↔ o.id = o'.id := by
  simp [GovernanceEvent.id]

/-- Obligations of distinct keys are put if their ids are distinct and their events are taken. -/
theorem foldlM_materialize_eq_ok {obligations : List ReviewObligation}
    (hnodup : obligations.Nodup) :
    obligations.foldlM materialize s = .ok s' ↔
      (obligations.map (·.id)).Nodup ∧
      (∀ o ∈ obligations, s.takes (.reviewOpened o) = true) ∧ s' = s.opened obligations := by
  induction obligations generalizing s with
  | nil =>
    rw [List.foldlM_nil, Result.pure_eq_ok, eq_comm]
    simp [opened]
  | cons o rest ih =>
    obtain ⟨ho, hrest⟩ := List.nodup_cons.mp hnodup
    rw [List.foldlM_cons, Result.bind_eq_ok]
    simp only [materialize_eq_ok, ih hrest, List.map_cons, List.nodup_cons, List.forall_mem_cons]
    constructor
    · rintro ⟨s₁, ⟨htakes, rfl⟩, hids, hall, rfl⟩
      have hne : ∀ o' ∈ rest, o'.id ≠ o.id := by
        intro o' ho' hid
        have hsame := (takes_record_self (reviewOpened_id_eq.mpr hid)).mp (hall o' ho')
        rw [GovernanceEvent.reviewOpened.injEq] at hsame
        exact ho (hsame ▸ ho')
      refine ⟨⟨fun hmem => ?_, hids⟩, ⟨htakes, fun o' ho' => ?_⟩, rfl⟩
      · obtain ⟨o', ho', hid⟩ := List.mem_map.mp hmem
        exact hne o' ho' hid
      · rw [← hall o' ho', takes_record_of_ne (fun h => hne o' ho' (reviewOpened_id_eq.mp h))]
        rfl
    · rintro ⟨⟨hid, hids⟩, ⟨htakes, hall⟩, rfl⟩
      refine ⟨_, ⟨htakes, rfl⟩, hids, fun o' ho' => ?_, rfl⟩
      have hne : o'.id ≠ o.id := fun h => hid (List.mem_map.mpr ⟨o', ho', h⟩)
      rw [takes_record_of_ne (fun h => hne (reviewOpened_id_eq.mp h))]
      exact hall o' ho'

/-- What a commit of the obligations of an event is checked for. -/
structure CommittedOpenings (s : GovernanceStore) (eventRef : String)
    (obligations : List ReviewObligation) : Prop where
  named : eventRef ≠ ""
  triggers : ∀ o ∈ obligations, o.triggerRef = eventRef
  unprocessed : s.processedEventObligationIds eventRef = .ok none
  valid : s.validateEventObligations [] obligations = .ok ()
  apart : (obligations.map (·.id)).Nodup
  taken : ∀ o ∈ obligations, s.takes (.reviewOpened o) = true

theorem commitEventObligations_eq_ok {eventRef : String} {obligations : List ReviewObligation} :
    (∃ ids, s.commitEventObligations eventRef obligations = .ok (ids, s')) ↔
      (eventRef ≠ "" ∧ (∀ o ∈ obligations, o.triggerRef = eventRef) ∧
        (∃ ids, s.processedEventObligationIds eventRef = .ok (some ids)) ∧ s' = s) ∨
      (CommittedOpenings s eventRef obligations ∧
        (s.opened obligations).takes (.eventProcessed eventRef (obligations.map (·.id))) = true ∧
        s' = (s.opened obligations).record
          (.eventProcessed eventRef (obligations.map (·.id)))) := by
  unfold commitEventObligations
  simp only [Result.bind_eq_ok, guardValue_eq_ok, exists_const, decide_eq_true_eq, List.all_eq_true]
  constructor
  · rintro ⟨ids, hnamed, htriggers, marker, hmarker, h⟩
    cases marker with
    | some existing =>
      rw [Result.pure_eq_ok, Prod.mk.injEq] at h
      exact .inl ⟨hnamed, htriggers, ⟨existing, hmarker⟩, h.2.symm⟩
    | none =>
      simp only [Result.bind_eq_ok, Result.pure_eq_ok, Prod.mk.injEq,
        appendHistoryEvent_eq_ok] at h
      obtain ⟨⟨⟩, hvalid, s₁, hfold, s₂, ⟨htakes, rfl⟩, -, rfl⟩ := h
      have hnodup := (validateEventObligations_eq_ok.mp hvalid).1.of_map
      obtain ⟨hids, htaken, rfl⟩ := (foldlM_materialize_eq_ok hnodup).mp hfold
      exact .inr ⟨⟨hnamed, htriggers, hmarker, hvalid, hids, htaken⟩, htakes, rfl⟩
  · rintro (⟨hnamed, htriggers, ⟨ids, hmarker⟩, rfl⟩ | ⟨h, htakes, rfl⟩)
    · exact ⟨ids, hnamed, htriggers, some ids, hmarker, rfl⟩
    · have hnodup := (validateEventObligations_eq_ok.mp h.valid).1.of_map
      refine ⟨obligations.map (·.id), h.named, h.triggers, none, h.unprocessed, ?_⟩
      simp only [Result.bind_eq_ok, Result.pure_eq_ok, appendHistoryEvent_eq_ok]
      exact ⟨(), h.valid, _, (foldlM_materialize_eq_ok hnodup).mpr ⟨h.apart, h.taken, rfl⟩, _,
        ⟨htakes, rfl⟩, rfl⟩

/-! ## Decisions and applications -/

theorem recordDecision_eq_ok {decision : GovernanceDecision} :
    s.recordDecision decision = .ok s' ↔
      (s.decisions.get? decision.id = some decision ∧ s' = s) ∨
      (s.decisions.get? decision.id = none ∧ (s.states.get? decision.target).isSome = true ∧
        reviewDecisionInputMatches decision s.configuration = true ∧
        s.takes (.decisionRecorded decision) = true ∧
        s' = { s with decisions := s.decisions.set decision.id decision }.record
          (.decisionRecorded decision)) := by
  unfold recordDecision
  cases hget : s.decisions.get? decision.id with
  | none =>
    simp only [Result.check_eq_ok, guardValue_eq_ok, appendHistoryEvent_eq_ok, reduceCtorEq,
      false_and, false_or, true_and]
    exact Iff.rfl
  | some existing =>
    by_cases hsame : existing = decision
    · simp only [hsame, if_true, Except.ok.injEq, true_and, reduceCtorEq, false_and, or_false]
      exact eq_comm
    · simp [hsame, raiseValue]

theorem commitStateApplication_eq_ok {schemeId : String} {nextState : DistinctionState}
    {receipt : ApplicationReceipt} {freshness : Option FreshnessAnchorLookup} :
    s.commitStateApplication schemeId nextState receipt freshness = .ok s' ↔
      (∃ current decision,
        CommittedApplication s schemeId nextState receipt freshness current decision) ∧
      s.takes (.applicationCommitted receipt (some nextState)) = true ∧
      s' = { s with
        states := s.states.set schemeId nextState,
        applications := s.applications.set receipt.application.id receipt }.record
          (.applicationCommitted receipt (some nextState)) := by
  unfold commitStateApplication
  simp only [Result.bind_eq_ok, orRaise_eq_ok, guardValue_eq_ok, exists_const,
    requireFreshApplicationId, recheckFreshness, appendHistoryEvent_eq_ok, Bool.and_eq_true,
    beq_iff_eq, decide_eq_true_eq, Option.isNone_iff_eq_none]
  constructor
  · rintro ⟨hfresh, current, hcurrent, decision, hdecision, hbasis, ⟨⟨⟨⟨hkind, hscheme⟩, htarget⟩,
      hdtarget⟩, hlinked⟩, hpre, hanchored, hcandidate, ⟨hadmissible, heffect⟩, hpost, htakes, hs'⟩
    exact ⟨⟨current, decision, hfresh, hcurrent, hdecision, hbasis, hkind, hscheme, htarget,
      hdtarget, hlinked, hpre, hanchored, hcandidate, hadmissible, heffect, hpost⟩, htakes, hs'⟩
  · rintro ⟨⟨current, decision, h⟩, htakes, hs'⟩
    exact ⟨h.fresh, current, h.found, decision, h.decided, h.basis,
      ⟨⟨⟨⟨h.kind, h.scheme⟩, h.target⟩, h.decisionTarget⟩, h.linked⟩, h.preAnchor, h.anchored,
      h.candidate, ⟨h.admissible, h.effect⟩, h.postAnchor, htakes, hs'⟩

theorem commitReviewDischarge_eq_ok {obligationId : String} {receipt : ApplicationReceipt}
    {freshness : Option FreshnessAnchorLookup} :
    s.commitReviewDischarge obligationId receipt freshness = .ok s' ↔
      (∃ obligation decision,
        CommittedDischarge s obligationId receipt freshness obligation decision) ∧
      s.takes (.applicationCommitted receipt none) = true ∧
      s' = { s with
        obligations := s.obligations.erase obligationId,
        applications := s.applications.set receipt.application.id receipt }.record
          (.applicationCommitted receipt none) := by
  unfold commitReviewDischarge
  simp only [Result.bind_eq_ok, orRaise_eq_ok, guardValue_eq_ok, exists_const,
    requireFreshApplicationId, recheckFreshness, appendHistoryEvent_eq_ok, Bool.and_eq_true,
    beq_iff_eq, decide_eq_true_eq, Option.isNone_iff_eq_none]
  constructor
  · rintro ⟨hfresh, obligation, hopened, decision, hdecision, hbasis, ⟨⟨⟨⟨⟨⟨⟨⟨hkind, hoperation⟩,
      hnamed⟩, htarget⟩, hscheme⟩, hreviewed⟩, hotarget⟩, hcontext⟩, hlinked⟩, hpre, hpost,
      htakes, hs'⟩
    exact ⟨⟨obligation, decision, hfresh, hopened, hdecision, hbasis, hkind, hoperation, hnamed,
      htarget, hscheme, hreviewed, hotarget, hcontext, hlinked, hpre, hpost⟩, htakes, hs'⟩
  · rintro ⟨⟨obligation, decision, h⟩, htakes, hs'⟩
    exact ⟨h.fresh, obligation, h.opened, decision, h.decided, h.basis,
      ⟨⟨⟨⟨⟨⟨⟨⟨h.kind, h.operation⟩, h.named⟩, h.target⟩, h.scheme⟩, h.reviewed⟩,
        h.obligationTarget⟩, h.context⟩, h.linked⟩, h.preAnchor, h.postAnchor, htakes, hs'⟩

end Specs

end GovernanceStore
end Governance
end PortableRuntime
