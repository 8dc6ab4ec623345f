import PortableRuntime.Governance.Anchors
import PortableRuntime.Governance.Consistency
import PortableRuntime.Governance.RunInvariants

/-!
# The revalidation lifecycle

A client checks its application against the configuration that it reads, and commits later,
with the freshness anchors of that time.  Commits of other clients and openings may stand
between the two.
-/

namespace PortableRuntime
namespace Governance

/-- A call of a client between its read and its commit, with its local values. -/
inductive PendingCall where
  | applyState (application : GovernedApplication) (authority : AuthorityCheck)
      (config : GovernanceConfiguration) (nextState : DistinctionState)
      (receipt : ApplicationReceipt)
  | discharge (application : GovernedApplication) (authority : AuthorityCheck)
      (stateApplication : Option GovernedApplication) (config : GovernanceConfiguration)
      (obligationId : String) (receipt : ApplicationReceipt)

namespace RevalidationGovernanceLifecycle

/-- `apply_state`, up to its commit. -/
def applyState (s : GovernanceStore) (application : GovernedApplication)
    (authority : AuthorityCheck) (freshness : FreshnessAnchorLookup) : Result PendingCall := do
  let config := s.configuration
  let admitted ← orRaise (applyStateTransition config application authority freshness)
    "governed state application is not admissible under the current snapshot"
  -- the transition has just set both keys
  let receipt ← orRaise (admitted.runtime.applications.get? application.id) application.id
  let nextState ← orRaise (admitted.states.get? application.schemeId) application.schemeId
  return .applyState application authority config nextState receipt

/-- `discharge`, up to its commit. -/
def discharge (s : GovernanceStore) (application : GovernedApplication)
    (authority : AuthorityCheck) (freshness : FreshnessAnchorLookup)
    (stateApplication : Option GovernedApplication) : Result PendingCall := do
  let config := s.configuration
  let admitted ← orRaise
    (applyReviewDischarge config application authority freshness stateApplication)
    "review discharge is not admissible under the current snapshot"
  let receipt ← orRaise (admitted.runtime.applications.get? application.id) application.id
  let obligationId ← orRaise application.reviewObligationId
    "review discharge requires an explicit obligation reference"
  return .discharge application authority stateApplication config obligationId receipt

end RevalidationGovernanceLifecycle

namespace PendingCall

def commit (freshness : FreshnessAnchorLookup) : PendingCall → PersistenceCall
  | .applyState application _ _ nextState receipt =>
    .commitStateApplication application.schemeId nextState receipt (some freshness)
  | .discharge _ _ _ _ obligationId receipt =>
    .commitReviewDischarge obligationId receipt (some freshness)

/-- The check that the call makes of the configuration that it reads. -/
def admissible (config : GovernanceConfiguration) (freshness : FreshnessAnchorLookup) :
    PendingCall → Bool
  | .applyState application authority _ _ _ =>
    applicationAdmissible config application authority freshness
  | .discharge application authority stateApplication _ _ _ =>
    dischargeAdmissible config application authority freshness stateApplication

end PendingCall

/-- One store and the calls that have read it and not committed yet. -/
structure LifecycleRun where
  store : GovernanceStore := {}
  pending : List PendingCall := []

inductive LifecycleStep where
  | seedState (schemeId : String) (state : DistinctionState)
  | openObligation (obligation : ReviewObligation)
  | commitEventObligations (eventRef : String) (obligations : List ReviewObligation)
  | recordDecision (decision : GovernanceDecision)
  | applyState (application : GovernedApplication) (authority : AuthorityCheck)
      (freshness : FreshnessAnchorLookup)
  | discharge (application : GovernedApplication) (authority : AuthorityCheck)
      (freshness : FreshnessAnchorLookup) (stateApplication : Option GovernedApplication)
  | commit (client : Nat) (freshness : FreshnessAnchorLookup)

namespace LifecycleRun

def persist (r : LifecycleRun) (call : PersistenceCall) : LifecycleRun :=
  { r with store := call.step r.store }

/-- A read that raises leaves nothing to commit. -/
def await (r : LifecycleRun) (call : Result PendingCall) : LifecycleRun :=
  { r with pending := r.pending ++ call.toOption.toList }

def step (r : LifecycleRun) : LifecycleStep → LifecycleRun
  | .seedState schemeId state => r.persist (.seedState schemeId state)
  | .openObligation obligation => r.persist (.openObligation obligation)
  | .commitEventObligations eventRef obligations =>
    r.persist (.commitEventObligations eventRef obligations)
  | .recordDecision decision => r.persist (.recordDecision decision)
  | .applyState application authority freshness =>
    r.await (RevalidationGovernanceLifecycle.applyState r.store application authority freshness)
  | .discharge application authority freshness stateApplication =>
    r.await (RevalidationGovernanceLifecycle.discharge r.store application authority freshness
      stateApplication)
  | .commit client freshness =>
    match r.pending[client]? with
    | none => r
    | some call =>
      { store := (call.commit freshness).step r.store, pending := r.pending.eraseIdx client }

/-- A commit that is accepted is admissible in the configuration just before it. -/
def CommitsAdmissible (r : LifecycleRun) : LifecycleStep → Prop
  | .commit client freshness =>
    ∀ call, r.pending[client]? = some call →
      ∀ s', (call.commit freshness).perform r.store = .ok s' →
        call.admissible r.store.configuration freshness = true
  | _ => True

end LifecycleRun

/-- What a commit does not check again: that no open review invalidates the decision, and for
a discharge that the state of its scheme is the one that was read. -/
def PendingCall.Unaffected (s : GovernanceStore) (freshness : FreshnessAnchorLookup) :
    PendingCall → Prop
  | .applyState application _ _ nextState receipt =>
    ∀ current decision, GovernanceStore.CommittedApplication s application.schemeId nextState
      receipt (some freshness) current decision →
        noInvalidatingReview decision s.configuration = true
  | .discharge _ _ _ config obligationId receipt =>
    ∀ obligation decision, GovernanceStore.CommittedDischarge s obligationId receipt
      (some freshness) obligation decision →
        noInvalidatingReview decision s.configuration = true ∧
          s.states.get? decision.target = config.states.get? decision.target

def LifecycleRun.CommitsUnaffected (r : LifecycleRun) : LifecycleStep → Prop
  | .commit client freshness =>
    ∀ call, r.pending[client]? = some call → call.Unaffected r.store freshness
  | _ => True

/-! ## What was read stays told -/

/-- The events tell what a configuration holds. -/
structure ToldConfiguration (config : GovernanceConfiguration) (events : List GovernanceEvent) :
    Prop where
  states : ∀ k state, config.states.get? k = some state → ToldBy events k state
  obligations : ∀ k o, config.runtime.obligations.get? k = some o →
    o.id = k ∧ .reviewOpened o ∈ events
  decisions : ∀ k d, config.runtime.decisions.get? k = some d →
    d.id = k ∧ .decisionRecorded d ∈ events
  applications : ∀ k a, config.runtime.applications.get? k = some a →
    a.application.id = k ∧ AppliedBy events a

section Told

variable {config : GovernanceConfiguration} {events events' : List GovernanceEvent}
  {s : GovernanceStore}

theorem ToldConfiguration.mono (h : ToldConfiguration config events)
    (hsub : events ⊆ events') : ToldConfiguration config events' where
  states k state hstate := by
    rcases h.states k state hstate with hseed | ⟨receipt, happlied, hscheme⟩
    · exact .inl (hsub hseed)
    · exact .inr ⟨receipt, hsub happlied, hscheme⟩
  obligations k o ho := (h.obligations k o ho).imp id (fun hmem => hsub hmem)
  decisions k d hd := (h.decisions k d hd).imp id (fun hmem => hsub hmem)
  applications k a ha := (h.applications k a ha).imp id
    (fun ⟨state, hmem⟩ => ⟨state, hsub hmem⟩)

namespace GovernanceStore

theorem Consistent.toldConfiguration (h : Consistent s) :
    ToldConfiguration s.configuration s.events where
  states := h.states.told
  obligations := h.reviews.opened
  decisions k d := (h.decisions k d).mp
  applications k a := (h.applications k a).mp

theorem events_record {event : GovernanceEvent} (htakes : s.takes event = true) :
    s.events ⊆ (s.record event).events :=
  fun e he => (mem_events_record htakes e).mpr (List.mem_append_left _ he)

theorem events_opened {obligations : List ReviewObligation}
    (hids : (obligations.map (·.id)).Nodup)
    (htakes : ∀ o ∈ obligations, s.takes (.reviewOpened o) = true) :
    s.events ⊆ (s.opened obligations).events := by
  induction obligations generalizing s with
  | nil => exact List.Subset.refl _
  | cons o rest ih =>
    obtain ⟨hid, hrest⟩ := List.nodup_cons.mp hids
    have hfirst := events_record (htakes o List.mem_cons_self)
    refine List.Subset.trans hfirst
      (ih (s := { s with obligations := s.obligations.set o.id o }.record (.reviewOpened o))
        hrest (fun o' ho' => ?_))
    have hne : o'.id ≠ o.id := fun heq => hid (List.mem_map.mpr ⟨o', ho', heq⟩)
    rw [takes_record_of_ne (fun heq => hne (reviewOpened_id_eq.mp heq))]
    exact htakes o' (List.mem_cons_of_mem o ho')

/-- No call takes an event from the journal. -/
theorem events_step (s : GovernanceStore) (call : PersistenceCall) :
    s.events ⊆ (call.step s).events := by
  unfold PersistenceCall.step
  cases hperform : call.perform s with
  | error e => exact List.Subset.refl _
  | ok s' =>
    cases call with
    | seedState schemeId state =>
      obtain ⟨-, ⟨-, rfl⟩ | ⟨-, htakes, rfl⟩⟩ := seedState_eq_ok.mp hperform
      · exact List.Subset.refl _
      · exact events_record htakes
    | openObligation o =>
      rcases openObligation_eq_ok.mp hperform with ⟨-, rfl⟩ | ⟨-, -, hmaterialize⟩
      · exact List.Subset.refl _
      · obtain ⟨htakes, rfl⟩ := materialize_eq_ok.mp hmaterialize
        exact events_record htakes
    | commitEventObligations eventRef obligations =>
      rcases commitEventObligations_eq_ok.mp (perform_commitEventObligations.mp hperform) with
        ⟨-, -, -, rfl⟩ | ⟨hc, htakes, rfl⟩
      · exact List.Subset.refl _
      · exact List.Subset.trans (events_opened hc.apart hc.taken) (events_record htakes)
    | recordDecision decision =>
      rcases recordDecision_eq_ok.mp hperform with ⟨-, rfl⟩ | ⟨-, -, -, htakes, rfl⟩
      · exact List.Subset.refl _
      · exact events_record htakes
    | commitStateApplication schemeId nextState receipt freshness =>
      obtain ⟨-, htakes, rfl⟩ := commitStateApplication_eq_ok.mp hperform
      exact events_record htakes
    | commitReviewDischarge obligationId receipt freshness =>
      obtain ⟨-, htakes, rfl⟩ := commitReviewDischarge_eq_ok.mp hperform
      exact events_record htakes

end GovernanceStore

/-! ### What a store still holds of a configuration that was read -/

theorem ToldConfiguration.decision_kept (h : ToldConfiguration config s.events)
    (hs : s.Consistent) {k : String} {d : GovernanceDecision}
    (hd : config.runtime.decisions.get? k = some d) : s.decisions.get? k = some d :=
  (hs.decisions k d).mpr (h.decisions k d hd)

theorem ToldConfiguration.application_kept (h : ToldConfiguration config s.events)
    (hs : s.Consistent) {k : String} {a : ApplicationReceipt}
    (ha : config.runtime.applications.get? k = some a) : s.applications.get? k = some a :=
  (hs.applications k a).mpr (h.applications k a ha)

theorem ToldConfiguration.state_kept (h : ToldConfiguration config s.events)
    (hs : s.Consistent) {k : String} {state : DistinctionState}
    (hstate : config.states.get? k = some state) :
    ∃ current, s.states.get? k = some current ∧
      (state = current ∨ state.version < current.version) :=
  hs.states.newest k state (h.states k state hstate)

/-- An obligation that is still open is the one that was read. -/
theorem ToldConfiguration.obligation_same (h : ToldConfiguration config s.events)
    (hs : s.Consistent) {k : String} {o o' : ReviewObligation}
    (ho : config.runtime.obligations.get? k = some o) (ho' : s.obligations.get? k = some o') :
    o' = o := by
  obtain ⟨hid, hmem⟩ := h.obligations k o ho
  obtain ⟨hid', hmem'⟩ := hs.reviews.opened k o' ho'
  have hget := (GovernanceStore.mem_events_iff hs.keyed).mp hmem
  have hget' := (GovernanceStore.mem_events_iff hs.keyed).mp hmem'
  rw [GovernanceStore.reviewOpened_id_eq.mpr (hid'.trans hid.symm), hget, Option.some.injEq]
    at hget'
  exact (GovernanceEvent.reviewOpened.inj hget').symm

end Told

/-! ## Pending calls -/

/-- A pending call was admitted by the configuration that it read, which the store has left
behind only by later events. -/
def PendingCall.Prepared (s : GovernanceStore) : PendingCall → Prop
  | .applyState application authority config nextState receipt =>
    ToldConfiguration config s.events ∧ ∃ freshness decision current,
      AdmittedApplication config application authority freshness decision current ∧
      nextState = candidateStateEffect application current ∧
      receipt = stateReceipt application current
  | .discharge application authority stateApplication config obligationId receipt =>
    ToldConfiguration config s.events ∧ ∃ freshness decision obligation state,
      AdmittedDischarge config application authority freshness stateApplication decision
        obligationId obligation state ∧
      receipt = dischargeReceipt application config.runtime.obligations
        (config.runtime.obligations.erase obligationId)

section Pending

variable {s : GovernanceStore} {application : GovernedApplication} {authority : AuthorityCheck}
  {config : GovernanceConfiguration} {freshness : FreshnessAnchorLookup}

theorem PendingCall.Prepared.step {call : PendingCall} (h : call.Prepared s)
    (other : PersistenceCall) : call.Prepared (other.step s) := by
  have hsub := GovernanceStore.events_step s other
  cases call with
  | applyState application authority config nextState receipt => exact ⟨h.1.mono hsub, h.2⟩
  | discharge application authority stateApplication config obligationId receipt =>
    exact ⟨h.1.mono hsub, h.2⟩

theorem prepared_applyState (hs : s.Consistent) {call : PendingCall}
    (hread : RevalidationGovernanceLifecycle.applyState s application authority freshness =
      .ok call) : call.Prepared s := by
  simp only [RevalidationGovernanceLifecycle.applyState, Result.bind_eq_ok, orRaise_eq_ok,
    Result.pure_eq_ok] at hread
  obtain ⟨admitted, hadmitted, receipt, hreceipt, nextState, hnext, rfl⟩ := hread
  obtain ⟨decision, current, hadm, rfl⟩ := applyStateTransition_eq_some.mp hadmitted
  dsimp only at hreceipt hnext
  rw [Dict.get?_set_self, Option.some.injEq] at hreceipt hnext
  exact ⟨hs.toldConfiguration, freshness, decision, current, hadm, hnext.symm, hreceipt.symm⟩

theorem prepared_discharge (hs : s.Consistent) {call : PendingCall}
    {stateApplication : Option GovernedApplication}
    (hread : RevalidationGovernanceLifecycle.discharge s application authority freshness
      stateApplication = .ok call) : call.Prepared s := by
  simp only [RevalidationGovernanceLifecycle.discharge, Result.bind_eq_ok, orRaise_eq_ok,
    Result.pure_eq_ok] at hread
  obtain ⟨admitted, hadmitted, receipt, hreceipt, obligationId, hnamed, rfl⟩ := hread
  obtain ⟨decision, obligationId', obligation, state, hadm, rfl⟩ :=
    applyReviewDischarge_eq_some.mp hadmitted
  obtain rfl : obligationId = obligationId' := Option.some.inj (hnamed.symm.trans hadm.named)
  dsimp only at hreceipt
  rw [Dict.get?_set_self, Option.some.injEq] at hreceipt
  exact ⟨hs.toldConfiguration, freshness, decision, obligation, state, hadm, hreceipt.symm⟩

/-- What is rechecked at the commit of a state application, and what is not. -/
theorem applicationAdmissible_iff_at_commit {nextState current : DistinctionState}
    {receipt : ApplicationReceipt} {decision : GovernanceDecision} (hs : s.Consistent)
    (hp : (PendingCall.applyState application authority config nextState receipt).Prepared s)
    (hc : GovernanceStore.CommittedApplication s application.schemeId nextState receipt
      (some freshness) current decision) :
    applicationAdmissible s.configuration application authority freshness = true ↔
      noInvalidatingReview decision s.configuration = true := by
  obtain ⟨htold, freshness₀, decision', read, hadm, rfl, rfl⟩ := hp
  have hdecided : s.decisions.get? application.decisionRef = some decision := hc.decided
  obtain rfl : decision' = decision :=
    Option.some.inj ((htold.decision_kept hs hadm.decided).symm.trans hdecided)
  obtain ⟨current', hcurrent', hkept⟩ := htold.state_kept hs hadm.found
  obtain rfl : current' = current := Option.some.inj (hcurrent'.symm.trans hc.found)
  -- the anchors agree, so the versions do, and a version names one state of the scheme
  have hsame : read = current' := by
    rcases hkept with hsame | hlt
    · exact hsame
    · have hversion := version_eq_of_anchor hc.preAnchor
      exact absurd hversion (ne_of_lt hlt)
  subst hsame
  have hid : decision'.id = application.decisionRef := (linked_decisionRef hadm.linked).symm
  have hbasis : relevantBasisUnchanged decision' freshness = true := hc.basis
  have hcommon := hadm.common
  simp only [commonDecisionFreshness, Bool.and_eq_true] at hcommon
  have hrecorded : decisionRecorded decision' s.configuration = true := by
    rw [decisionRecorded, beq_iff_eq, hid]
    exact hdecided
  rw [applicationAdmissible_iff]
  constructor
  · rintro ⟨found, state, hnow⟩
    obtain rfl : found = decision' := Option.some.inj (hnow.decided.symm.trans hdecided)
    have hcommon' := hnow.common
    simp only [commonDecisionFreshness, Bool.and_eq_true] at hcommon'
    exact hcommon'.2
  · intro hreviews
    refine ⟨decision', read, hadm.operation, hadm.target, hdecided, hadm.authorized, hadm.linked,
      ?_, hadm.anchored, hadm.snapshot, ?_, hc.found, hadm.admissible, hadm.disposition,
      hadm.effect⟩
    · simp only [commonDecisionFreshness, Bool.and_eq_true]
      exact ⟨⟨⟨hrecorded, hcommon.1.1.2⟩, hbasis⟩, hreviews⟩
    · exact precondition_kept hadm.precondition hc.fresh
        (Option.isSome_iff_exists.mpr ⟨read, hc.found⟩)

/-- What the anchors of a discharge tell of a state, while the store keeps what was read. -/
theorem discharge_anchor_same {decision : GovernanceDecision}
    {stateApplication : Option GovernedApplication} {freshness₀ : FreshnessAnchorLookup}
    {read state : DistinctionState} (hs : s.Consistent) (htold : ToldConfiguration config s.events)
    (hread : config.states.get? decision.target = some read)
    (hstate : s.configuration.states.get? decision.target = some state)
    (hfresh : decisionFreshForDischarge decision config freshness₀ stateApplication = true)
    (hfresh' : decisionFreshForDischarge decision s.configuration freshness stateApplication =
      true) : stateAnchor read = stateAnchor state := by
  obtain ⟨-, hthen⟩ := (decisionFreshForDischarge_iff hread).mp hfresh
  obtain ⟨-, hnow⟩ := (decisionFreshForDischarge_iff hstate).mp hfresh'
  rcases hthen with ⟨hnone, hanchor, -⟩ | ⟨hsome, a, receipt, rfl, hrealized⟩
  · rcases hnow with ⟨-, hanchor', -⟩ | ⟨hsome, -⟩
    · rw [hanchor, hanchor']
    · exact absurd hnone hsome
  · rcases hnow with ⟨hnone, -⟩ | ⟨-, a', receipt', ha, hrealized'⟩
    · exact absurd hnone hsome
    · obtain rfl := Option.some.inj ha
      have hkept : s.applications.get? a.id = some receipt :=
        htold.application_kept hs hrealized.found
      obtain rfl : receipt' = receipt := Option.some.inj (hrealized'.found.symm.trans hkept)
      rw [← hrealized.postAnchor, ← hrealized'.postAnchor]

/-- What is rechecked at the commit of a discharge, and what is not. -/
theorem dischargeAdmissible_iff_at_commit {stateApplication : Option GovernedApplication}
    {obligationId : String} {receipt : ApplicationReceipt} {obligation : ReviewObligation}
    {decision : GovernanceDecision} (hs : s.Consistent)
    (hp : (PendingCall.discharge application authority stateApplication config obligationId
      receipt).Prepared s)
    (hc : GovernanceStore.CommittedDischarge s obligationId receipt (some freshness) obligation
      decision) :
    dischargeAdmissible s.configuration application authority freshness stateApplication = true ↔
      noInvalidatingReview decision s.configuration = true ∧
        s.states.get? decision.target = config.states.get? decision.target := by
  obtain ⟨htold, freshness₀, decision', read, state, hadm, rfl⟩ := hp
  have hdecided : s.decisions.get? application.decisionRef = some decision := hc.decided
  obtain rfl : decision' = decision :=
    Option.some.inj ((htold.decision_kept hs hadm.decided).symm.trans hdecided)
  obtain rfl : obligation = read := htold.obligation_same hs hadm.opened hc.opened
  have hid : obligation.id = obligationId := (hs.reviews.opened _ _ hc.opened).1
  rw [dischargeAdmissible_iff]
  constructor
  · rintro ⟨found, named, opened, state', hnow⟩
    obtain rfl : found = decision' := Option.some.inj (hnow.decided.symm.trans hdecided)
    have hcommon := ((decisionFreshForDischarge_iff hnow.found).mp hnow.fresh).1
    simp only [commonDecisionFreshness, Bool.and_eq_true] at hcommon
    refine ⟨hcommon.2, ?_⟩
    have hanchor := discharge_anchor_same hs htold hadm.found hnow.found hadm.fresh hnow.fresh
    obtain ⟨current, hcurrent, hkept⟩ := htold.state_kept hs hadm.found
    obtain rfl : state' = current := Option.some.inj (hnow.found.symm.trans hcurrent)
    rcases hkept with rfl | hlt
    · rw [hcurrent, hadm.found]
    · exact absurd (version_eq_of_anchor hanchor) (ne_of_lt hlt)
  · rintro ⟨hreviews, hsame⟩
    have hfound : s.configuration.states.get? decision'.target = some state :=
      hsame.trans hadm.found
    have hbasis : relevantBasisUnchanged decision' freshness = true := hc.basis
    have hrecorded : decisionRecorded decision' s.configuration = true := by
      rw [decisionRecorded, beq_iff_eq, ← linked_decisionRef hadm.linked]
      exact hdecided
    obtain ⟨hcommon, hthen⟩ := (decisionFreshForDischarge_iff hadm.found).mp hadm.fresh
    have hclosure := (closureAdmissible_iff hadm.found).mp hadm.closure
    have hscheme : (s.configuration.states.get? application.schemeId).isSome = true := by
      rw [linked_schemeId hadm.linked, hfound]
      rfl
    refine ⟨decision', obligationId, obligation, state, hadm.operation, hdecided, hadm.named,
      hc.opened, hadm.target, hfound, hadm.authorized,
      precondition_kept hadm.precondition hc.fresh hscheme, hadm.linked,
      (closureAdmissible_iff hfound).mpr { hclosure with
        recorded := hrecorded, basis := hbasis, opened := by rw [hid]; exact hc.opened }, ?_,
      hadm.disposition⟩
    rw [decisionFreshForDischarge_iff hfound]
    constructor
    · simp only [commonDecisionFreshness, Bool.and_eq_true] at hcommon ⊢
      exact ⟨⟨⟨hrecorded, hcommon.1.1.2⟩, hbasis⟩, hreviews⟩
    · rcases hthen with hnone | ⟨hsome, a, transition, ha, hrealized⟩
      · exact .inl hnone
      · exact .inr ⟨hsome, a, transition, ha, { hrealized with
          found := htold.application_kept hs hrealized.found }⟩

end Pending

/-! ## Runs -/

namespace LifecycleRun

structure Coherent (r : LifecycleRun) : Prop where
  store : r.store.Consistent
  pending : ∀ call ∈ r.pending, call.Prepared r.store

section Runs

variable {r : LifecycleRun}

theorem Coherent.persist (h : r.Coherent) (call : PersistenceCall) : (r.persist call).Coherent where
  store := h.store.step call
  pending waiting hmem := (h.pending waiting hmem).step call

theorem Coherent.await (h : r.Coherent) {read : Result PendingCall}
    (hread : ∀ call, read = .ok call → call.Prepared r.store) : (r.await read).Coherent where
  store := h.store
  pending waiting hmem := by
    rcases List.mem_append.mp hmem with hold | hnew
    · exact h.pending waiting hold
    · cases read with
      | error e => exact absurd hnew List.not_mem_nil
      | ok call =>
        have hlast : waiting = call := List.mem_singleton.mp hnew
        exact hlast ▸ hread call rfl

theorem Coherent.step (h : r.Coherent) (op : LifecycleStep) : (r.step op).Coherent := by
  cases op with
  | seedState schemeId state => exact h.persist _
  | openObligation obligation => exact h.persist _
  | commitEventObligations eventRef obligations => exact h.persist _
  | recordDecision decision => exact h.persist _
  | applyState application authority freshness =>
    exact h.await (fun call hread => prepared_applyState h.store hread)
  | discharge application authority freshness stateApplication =>
    exact h.await (fun call hread => prepared_discharge h.store hread)
  | commit client freshness =>
    simp only [LifecycleRun.step]
    split
    · exact h
    · next call hcall =>
      refine ⟨h.store.step _, fun waiting hmem => ?_⟩
      exact (h.pending waiting (List.mem_of_mem_eraseIdx hmem)).step _

/-- An accepted commit is admissible exactly if it is unaffected. -/
theorem commitsAdmissible_iff (h : r.Coherent) (op : LifecycleStep) :
    r.CommitsAdmissible op ↔ r.CommitsUnaffected op := by
  cases op with
  | commit client freshness =>
    refine forall_congr' (fun call => forall_congr' (fun hcall => ?_))
    have hprepared := h.pending call (List.mem_of_getElem? hcall)
    cases call with
    | applyState application authority config nextState receipt =>
      constructor
      · intro hadmissible current decision hc
        refine (applicationAdmissible_iff_at_commit h.store hprepared hc).mp ?_
        exact hadmissible _ (GovernanceStore.commitStateApplication_eq_ok.mpr
          ⟨⟨current, decision, hc⟩, GovernanceStore.takes_application h.store hc.fresh, rfl⟩)
      · intro hunaffected s' hperform
        obtain ⟨⟨current, decision, hc⟩, -, -⟩ :=
          GovernanceStore.commitStateApplication_eq_ok.mp hperform
        exact (applicationAdmissible_iff_at_commit h.store hprepared hc).mpr
          (hunaffected current decision hc)
    | discharge application authority stateApplication config obligationId receipt =>
      constructor
      · intro hadmissible obligation decision hc
        refine (dischargeAdmissible_iff_at_commit h.store hprepared hc).mp ?_
        exact hadmissible _ (GovernanceStore.commitReviewDischarge_eq_ok.mpr
          ⟨⟨obligation, decision, hc⟩, GovernanceStore.takes_application h.store hc.fresh, rfl⟩)
      · intro hunaffected s' hperform
        obtain ⟨⟨obligation, decision, hc⟩, -, -⟩ :=
          GovernanceStore.commitReviewDischarge_eq_ok.mp hperform
        exact (dischargeAdmissible_iff_at_commit h.store hprepared hc).mpr
          (hunaffected obligation decision hc)
  | _ => exact Iff.rfl

/-- In every interleaving of the clients, the accepted commits are admissible just before they
are made exactly if none was affected since its read by what its commit does not check. -/
theorem commits_admissible_iff_unaffected (steps : List LifecycleStep) :
    Along LifecycleRun.step CommitsAdmissible {} steps ↔
      Along LifecycleRun.step CommitsUnaffected {} steps := by
  have hempty : Coherent {} := ⟨GovernanceStore.Consistent.empty, by simp⟩
  exact along_iff_along (I := Coherent) (fun r op h => h.step op)
    (fun r op h => commitsAdmissible_iff h op) hempty

end Runs

end LifecycleRun

/-! ## A review that invalidates a decision between its read and its commit -/

namespace Qualification

/-- A later review of the scheme, which invalidates the decision. -/
def laterReview : ReviewObligation :=
  { review with
    id := "later", triggerRef := "later-event",
    invalidatesDecisions := ⟨["decision"], by decide⟩ }

def overtaken : List LifecycleStep :=
  [.seedState "scheme" candidate, .openObligation review, .recordDecision decision,
    .applyState application granted unchanged, .openObligation laterReview,
    .commit 0 unchanged]

end Qualification

open Qualification in
/-- The state application is committed although the decision is invalidated. -/
theorem commits_admissible_overtaken :
    ¬ Along LifecycleRun.step LifecycleRun.CommitsAdmissible {} overtaken := by
  rintro ⟨-, -, -, -, -, hcommit, -⟩
  have hcase : ((run LifecycleRun.step {} (overtaken.take 5)).pending[0]?).map (fun call =>
      ((call.commit unchanged).perform (run LifecycleRun.step {} (overtaken.take 5)).store).isOk &&
        !call.admissible (run LifecycleRun.step {} (overtaken.take 5)).store.configuration
          unchanged) = some true := by decide
  obtain ⟨call, hcall, hlast⟩ := Option.map_eq_some_iff.mp hcase
  rw [Bool.and_eq_true, Bool.not_eq_true'] at hlast
  obtain ⟨s', hperform⟩ := Result.exists_of_isOk hlast.1
  have hadmissible := hcommit call hcall s' hperform
  exact absurd (hlast.2.symm.trans hadmissible) Bool.false_ne_true

end Governance
end PortableRuntime
