import PortableRuntime.Governance.Distinction

/-!
# What an admission says

One lemma for each operation: what its acceptance says of the configuration, and what it
leaves.
-/

namespace PortableRuntime
namespace Governance

/-- A state application that is admissible, with the decision and the state that it finds. -/
structure AdmittedApplication (config : GovernanceConfiguration) (application : GovernedApplication)
    (authority : AuthorityCheck) (freshness : FreshnessAnchorLookup)
    (decision : GovernanceDecision) (current : DistinctionState) : Prop where
  operation : stateApplyOperations.contains application.operation = true
  target : application.target = application.schemeId
  decided : config.runtime.decisions.get? application.decisionRef = some decision
  authorized : authority (applicationAuthorityRequest application decision) = true
  linked : linked application decision = true
  common : commonDecisionFreshness decision config freshness = true
  anchored : stateAnchor current = decision.expectedStateAnchor
  snapshot : snapshotMatches decision current = true
  precondition : precondition application config = true
  found : config.states.get? application.schemeId = some current
  admissible : stateAdmissibleFor application.schemeId
    (candidateStateEffect application current) = true
  disposition : decision.disposition = "transition_required"
  effect : effectMatchesDecision decision (candidateStateEffect application current) = true

/-- A review discharge that is admissible, with what it finds. -/
structure AdmittedDischarge (config : GovernanceConfiguration) (application : GovernedApplication)
    (authority : AuthorityCheck) (freshness : FreshnessAnchorLookup)
    (stateApplication : Option GovernedApplication) (decision : GovernanceDecision)
    (obligationId : String) (obligation : ReviewObligation) (state : DistinctionState) : Prop where
  operation : application.operation = applyReviewDischargeOp
  decided : config.runtime.decisions.get? application.decisionRef = some decision
  named : application.reviewObligationId = some obligationId
  opened : config.runtime.obligations.get? obligationId = some obligation
  target : application.target = "review_obligation:" ++ obligation.id
  found : config.states.get? decision.target = some state
  authorized : authority (reviewDischargeAuthorityRequest application obligation state) = true
  precondition : precondition application config = true
  linked : linked application decision = true
  closure : closureAdmissible decision obligation config freshness = true
  fresh : decisionFreshForDischarge decision config freshness stateApplication = true
  disposition : (if decision.disposition = "no_change" then stateApplication.isNone
    else decision.disposition == "transition_required" && stateApplication.isSome) = true

section Linked

variable {application : GovernedApplication} {decision : GovernanceDecision}

theorem linked_decisionRef (h : linked application decision = true) :
    application.decisionRef = decision.id := by
  simp only [linked, Bool.and_eq_true, beq_iff_eq] at h
  exact h.1.1

theorem linked_schemeId (h : linked application decision = true) :
    application.schemeId = decision.target := by
  simp only [linked, Bool.and_eq_true, beq_iff_eq] at h
  exact h.1.2

end Linked

theorem globalStateAdmissible_iff {config : GovernanceConfiguration} :
    globalStateAdmissible config = true ↔
      ∀ k state, config.states.get? k = some state → stateAdmissibleFor k state = true := by
  rw [globalStateAdmissible, List.all_eq_true]
  constructor
  · intro h k state hstate
    exact h (k, state) (Dict.get?_eq_some.mp hstate)
  · intro h e he
    exact h e.1 e.2 (Dict.get?_eq_some.mpr he)

section Admission

variable {config : GovernanceConfiguration} {application : GovernedApplication}
  {authority : AuthorityCheck} {freshness : FreshnessAnchorLookup}
  {stateApplication : Option GovernedApplication}

theorem applicationAdmissible_iff :
    applicationAdmissible config application authority freshness = true ↔
      ∃ decision current,
        AdmittedApplication config application authority freshness decision current := by
  constructor
  · intro h
    unfold applicationAdmissible at h
    rw [Bool.and_eq_true, Bool.and_eq_true, beq_iff_eq] at h
    obtain ⟨⟨hoperation, htarget⟩, h⟩ := h
    cases hdecision : config.runtime.decisions.get? application.decisionRef with
    | none => rw [hdecision] at h; exact absurd h (by simp)
    | some decision =>
      rw [hdecision] at h
      simp only [Bool.and_eq_true] at h
      obtain ⟨⟨⟨⟨hauthorized, hlinked⟩, hfresh⟩, hprecondition⟩, h⟩ := h
      cases hstate : config.states.get? application.schemeId with
      | none => rw [hstate] at h; exact absurd h (by simp)
      | some current =>
        rw [hstate] at h
        simp only [Bool.and_eq_true, beq_iff_eq] at h
        rw [decisionFreshForApplication, ← linked_schemeId hlinked, hstate] at hfresh
        simp only [Bool.and_eq_true, beq_iff_eq] at hfresh
        exact ⟨decision, current, hoperation, htarget, hdecision, hauthorized, hlinked,
          hfresh.1.1, hfresh.1.2, hfresh.2, hprecondition, hstate, h.1.1, h.1.2, h.2⟩
  · rintro ⟨decision, current, h⟩
    have hfresh : decisionFreshForApplication decision config freshness = true := by
      rw [decisionFreshForApplication, ← linked_schemeId h.linked, h.found]
      simp [h.common, h.anchored, h.snapshot]
    rw [applicationAdmissible, h.decided]
    dsimp only
    rw [h.found]
    simp only [h.operation, h.target, h.authorized, h.linked, hfresh, h.precondition, h.admissible,
      h.disposition, h.effect, BEq.rfl, Bool.and_self]

theorem dischargeAdmissible_iff :
    dischargeAdmissible config application authority freshness stateApplication = true ↔
      ∃ decision obligationId obligation state, AdmittedDischarge config application authority
        freshness stateApplication decision obligationId obligation state := by
  constructor
  · intro h
    unfold dischargeAdmissible at h
    rw [Bool.and_eq_true, beq_iff_eq] at h
    obtain ⟨hoperation, h⟩ := h
    split at h
    · next decision obligation hdecision hobligation =>
      simp only [Bool.and_eq_true, beq_iff_eq] at h
      obtain ⟨⟨⟨⟨⟨⟨htarget, hauthorized⟩, hprecondition⟩, hlinked⟩, hclosure⟩, hfresh⟩, hlast⟩ := h
      obtain ⟨obligationId, hnamed, hopened⟩ := Option.bind_eq_some_iff.mp hobligation
      cases hstate : config.states.get? decision.target with
      | none => rw [hstate] at hauthorized; exact absurd hauthorized (by simp)
      | some state =>
        rw [hstate] at hauthorized
        exact ⟨decision, obligationId, obligation, state, hoperation, hdecision, hnamed, hopened,
          htarget, hstate, hauthorized, hprecondition, hlinked, hclosure, hfresh, hlast⟩
    · exact absurd h (by simp)
  · rintro ⟨decision, obligationId, obligation, state, h⟩
    rw [dischargeAdmissible, h.decided, h.named, Option.bind_some, h.opened]
    dsimp only
    rw [h.found]
    simp only [h.operation, h.target, h.authorized, h.precondition, h.linked, h.closure, h.fresh,
      h.disposition, BEq.rfl, Bool.and_self]

/-- What an accepted state application leaves. -/
theorem applyStateTransition_eq_some {config' : GovernanceConfiguration} :
    applyStateTransition config application authority freshness = some config' ↔
      ∃ decision current,
        AdmittedApplication config application authority freshness decision current ∧
        config' = {
          states := config.states.set application.schemeId
            (candidateStateEffect application current),
          runtime := { config.runtime with
            applications := config.runtime.applications.set application.id
              (stateReceipt application current) } } := by
  unfold applyStateTransition
  cases hadmissible : applicationAdmissible config application authority freshness with
  | false =>
    refine iff_of_false (by simp) ?_
    rintro ⟨decision, current, hadmitted, -⟩
    rw [applicationAdmissible_iff.mpr ⟨decision, current, hadmitted⟩] at hadmissible
    exact absurd hadmissible (by simp)
  | true =>
    obtain ⟨decision, current, hadmitted⟩ := applicationAdmissible_iff.mp hadmissible
    simp only [Bool.not_true, Bool.false_eq_true, if_false, hadmitted.found]
    constructor
    · intro h
      exact ⟨decision, current, hadmitted, (Option.some.inj h).symm⟩
    · rintro ⟨_, current', hadmitted', rfl⟩
      have hsame : current' = current :=
        Option.some.inj (hadmitted'.found.symm.trans hadmitted.found)
      rw [hsame]
      rfl

/-- What an accepted review discharge leaves. -/
theorem applyReviewDischarge_eq_some {config' : GovernanceConfiguration} :
    applyReviewDischarge config application authority freshness stateApplication =
        some config' ↔
      ∃ decision obligationId obligation state, AdmittedDischarge config application authority
        freshness stateApplication decision obligationId obligation state ∧
        config' = { config with runtime := { config.runtime with
          obligations := config.runtime.obligations.erase obligationId,
          applications := config.runtime.applications.set application.id
            (dischargeReceipt application config.runtime.obligations
              (config.runtime.obligations.erase obligationId)) } } := by
  unfold applyReviewDischarge
  cases hadmissible : dischargeAdmissible config application authority freshness
      stateApplication with
  | false =>
    refine iff_of_false (by simp) ?_
    rintro ⟨decision, obligationId, obligation, state, hadmitted, -⟩
    rw [dischargeAdmissible_iff.mpr ⟨decision, obligationId, obligation, state, hadmitted⟩]
      at hadmissible
    exact absurd hadmissible (by simp)
  | true =>
    obtain ⟨decision, obligationId, obligation, state, hadmitted⟩ :=
      dischargeAdmissible_iff.mp hadmissible
    simp only [Bool.not_true, Bool.false_eq_true, if_false, hadmitted.named]
    constructor
    · intro h
      exact ⟨decision, obligationId, obligation, state, hadmitted, (Option.some.inj h).symm⟩
    · rintro ⟨_, obligationId', _, _, hadmitted', rfl⟩
      have hsame : obligationId' = obligationId :=
        Option.some.inj (hadmitted'.named.symm.trans hadmitted.named)
      rw [hsame]
      rfl

/-- An application that is admitted is new. -/
theorem precondition_fresh (h : precondition application config = true) :
    config.runtime.applications.get? application.id = none := by
  simp only [precondition, Bool.and_eq_true, Option.isNone_iff_eq_none] at h
  exact h.1.1.2

/-- The precondition in a configuration where the application is still new. -/
theorem precondition_kept {config' : GovernanceConfiguration}
    (h : precondition application config = true)
    (hfresh : config'.runtime.applications.get? application.id = none)
    (hscheme : (config'.states.get? application.schemeId).isSome = true) :
    precondition application config' = true := by
  simp only [precondition, Bool.and_eq_true] at h ⊢
  refine ⟨⟨⟨h.1.1.1, ?_⟩, hscheme⟩, h.2⟩
  rw [hfresh]
  rfl

end Admission

/-! ## What a discharge reads -/

section Closure

variable {config : GovernanceConfiguration} {decision : GovernanceDecision}
  {freshness : FreshnessAnchorLookup} {state : DistinctionState}

/-- The receipt of a required transition that led to the state. -/
structure RealizedTransition (config : GovernanceConfiguration) (decision : GovernanceDecision)
    (stateApplication : GovernedApplication) (state : DistinctionState)
    (receipt : ApplicationReceipt) : Prop where
  found : config.runtime.applications.get? stateApplication.id = some receipt
  disposition : decision.disposition = "transition_required"
  application : receipt.application = stateApplication
  decisionRef : stateApplication.decisionRef = decision.id
  linked : linked stateApplication decision = true
  kind : receipt.effectKind = "state"
  preAnchor : receipt.preAnchor = decision.expectedStateAnchor
  postAnchor : receipt.postAnchor = stateAnchor state
  effect : effectMatchesDecision decision state = true
  admissible : stateAdmissibleFor decision.target state = true

theorem requiredTransitionRealized_iff {stateApplication : GovernedApplication}
    (hstate : config.states.get? decision.target = some state) :
    requiredTransitionRealized decision stateApplication config = true ↔
      ∃ receipt, RealizedTransition config decision stateApplication state receipt := by
  rw [requiredTransitionRealized, hstate]
  cases hreceipt : config.runtime.applications.get? stateApplication.id with
  | none =>
    refine iff_of_false (by simp) ?_
    rintro ⟨receipt, h⟩
    rw [h.found] at hreceipt
    exact absurd hreceipt (by simp)
  | some receipt =>
    simp only [Bool.and_eq_true, beq_iff_eq]
    constructor
    · rintro ⟨⟨⟨⟨⟨⟨⟨⟨hdisposition, happlication⟩, href⟩, hlinked⟩, hkind⟩, hpre⟩, hpost⟩, heffect⟩,
        hadmissible⟩
      exact ⟨receipt, hreceipt, hdisposition, happlication, href, hlinked, hkind, hpre, hpost,
        heffect, hadmissible⟩
    · rintro ⟨receipt', h⟩
      obtain rfl : receipt' = receipt := Option.some.inj (h.found.symm.trans hreceipt)
      exact ⟨⟨⟨⟨⟨⟨⟨⟨h.disposition, h.application⟩, h.decisionRef⟩, h.linked⟩, h.kind⟩, h.preAnchor⟩,
        h.postAnchor⟩, h.effect⟩, h.admissible⟩

theorem decisionFreshForDischarge_iff {stateApplication : Option GovernedApplication}
    (hstate : config.states.get? decision.target = some state) :
    decisionFreshForDischarge decision config freshness stateApplication = true ↔
      commonDecisionFreshness decision config freshness = true ∧
      ((decision.disposition = "no_change" ∧ stateAnchor state = decision.expectedStateAnchor ∧
          snapshotMatches decision state = true) ∨
        (decision.disposition ≠ "no_change" ∧ ∃ a receipt, stateApplication = some a ∧
          RealizedTransition config decision a state receipt)) := by
  rw [decisionFreshForDischarge, hstate]
  by_cases hdisposition : decision.disposition = "no_change"
  · simp [hdisposition]
  · simp only [hdisposition, if_false, Bool.and_eq_true, beq_iff_eq, false_and, false_or,
      ne_eq, not_false_eq_true, true_and, Option.any_eq_true]
    refine and_congr Iff.rfl ?_
    constructor
    · rintro ⟨-, a, rfl, hrealized⟩
      obtain ⟨receipt, h⟩ := (requiredTransitionRealized_iff hstate).mp hrealized
      exact ⟨a, receipt, rfl, h⟩
    · rintro ⟨a, receipt, rfl, h⟩
      exact ⟨h.disposition, a, rfl, (requiredTransitionRealized_iff hstate).mpr ⟨receipt, h⟩⟩

/-- What a closure asks of the decision, the obligation and the state. -/
structure AdmittedClosure (config : GovernanceConfiguration) (decision : GovernanceDecision)
    (obligation : ReviewObligation) (freshness : FreshnessAnchorLookup)
    (state : DistinctionState) : Prop where
  recorded : decisionRecorded decision config = true
  opened : config.runtime.obligations.get? obligation.id = some obligation
  reviewed : decision.reviewRefs.contains obligation.id = true
  target : decision.target = obligation.target
  context : decision.context = obligation.context
  disposition : dispositionEffective decision = true
  snapshot : snapshotMatches decision state = true
  basis : relevantBasisUnchanged decision freshness = true
  closed : obligation.closureRequirements.isSubset decision.closureFacts = true

theorem closureAdmissible_iff {obligation : ReviewObligation}
    (hstate : config.states.get? decision.target = some state) :
    closureAdmissible decision obligation config freshness = true ↔
      AdmittedClosure config decision obligation freshness state := by
  rw [closureAdmissible, hstate]
  simp only [Bool.and_eq_true, beq_iff_eq]
  constructor
  · rintro ⟨⟨⟨⟨⟨⟨hrecorded, hopened⟩, hreviewed⟩, htarget⟩, hcontext⟩, hdisposition⟩,
      ⟨hsnapshot, hbasis⟩, hclosed⟩
    exact ⟨hrecorded, hopened, hreviewed, htarget, hcontext, hdisposition, hsnapshot, hbasis,
      hclosed⟩
  · intro h
    exact ⟨⟨⟨⟨⟨⟨h.recorded, h.opened⟩, h.reviewed⟩, h.target⟩, h.context⟩, h.disposition⟩,
      ⟨h.snapshot, h.basis⟩, h.closed⟩

end Closure

/-! ## Openings and decisions -/

theorem commitEventOpening_eq_some {config config' : GovernanceConfiguration}
    {obligations : List ReviewObligation} {eventKey : String} {processed keys : List String}
    (h : commitEventOpening config obligations eventKey processed = some (config', keys)) :
    config' = { config with runtime := openAll config.runtime obligations } := by
  unfold commitEventOpening at h
  split at h
  · exact absurd h (by simp)
  · split at h
    · exact absurd h (by simp)
    · rw [Option.some.injEq, Prod.mk.injEq] at h
      exact h.1.symm

theorem openObligation_eq_some {runtime runtime' : GovernanceRuntime} {o : ReviewObligation}
    (h : openObligation runtime o = some runtime') :
    keyOpen runtime o = false ∧
      runtime' = { runtime with obligations := runtime.obligations.set o.id o } := by
  unfold openObligation at h
  split at h
  · exact absurd h (by simp)
  · next hkey => exact ⟨by simpa using hkey, (Option.some.inj h).symm⟩

theorem recordDecision_eq_some {config config' : GovernanceConfiguration}
    {decision : GovernanceDecision} {authority : AuthorityCheck}
    (h : recordDecision config decision authority = some config') :
    config' = config ∨ (config.runtime.decisions.get? decision.id = none ∧
      config' = { config with runtime := { config.runtime with
        decisions := config.runtime.decisions.set decision.id decision } }) := by
  unfold recordDecision at h
  split at h
  · exact absurd h (by simp)
  · split at h
    · exact .inl (Option.some.inj h).symm
    · next hnone => exact .inr ⟨hnone, (Option.some.inj h).symm⟩

end Governance
end PortableRuntime
