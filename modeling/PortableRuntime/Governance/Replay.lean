import PortableRuntime.Governance.Persistence

/-!
# Reading a history back

Events of distinct ids are read without an error in any order.  What has been read is
determined by which events they are: the newest state told of a scheme, and the objects
recorded.
-/

namespace PortableRuntime
namespace Governance

/-- Some of the events tells a state of a scheme. -/
def ToldBy (events : List GovernanceEvent) (schemeId : String) (state : DistinctionState) : Prop :=
  .stateSeeded schemeId state ∈ events ∨
    ∃ receipt, .applicationCommitted receipt (some state) ∈ events ∧
      receipt.application.schemeId = schemeId

def AppliedBy (events : List GovernanceEvent) (receipt : ApplicationReceipt) : Prop :=
  ∃ nextState, .applicationCommitted receipt nextState ∈ events

def DischargedBy (events : List GovernanceEvent) (obligationId : String) : Prop :=
  ∃ receipt, AppliedBy events receipt ∧ receipt.effectKind = "review_discharge" ∧
    receipt.application.reviewObligationId = some obligationId

section Concat

variable {events : List GovernanceEvent} {event : GovernanceEvent} {k : String}

theorem toldBy_concat {state : DistinctionState} :
    ToldBy (events ++ [event]) k state ↔ ToldBy events k state ∨ ToldBy [event] k state := by
  simp only [ToldBy, List.mem_append, or_and_right, exists_or]
  exact or_or_or_comm

theorem appliedBy_concat {receipt : ApplicationReceipt} :
    AppliedBy (events ++ [event]) receipt ↔ AppliedBy events receipt ∨ AppliedBy [event] receipt := by
  simp only [AppliedBy, List.mem_append, exists_or]

theorem dischargedBy_concat :
    DischargedBy (events ++ [event]) k ↔ DischargedBy events k ∨ DischargedBy [event] k := by
  simp only [DischargedBy, appliedBy_concat, or_and_right, exists_or]

theorem appliedBy_singleton {receipt a : ApplicationReceipt}
    {nextState : Option DistinctionState} :
    AppliedBy [.applicationCommitted receipt nextState] a ↔ a = receipt := by
  simp only [AppliedBy, List.mem_singleton, GovernanceEvent.applicationCommitted.injEq]
  constructor
  · rintro ⟨state, rfl, -⟩
    rfl
  · rintro rfl
    exact ⟨nextState, rfl, rfl⟩

theorem toldBy_application {receipt : ApplicationReceipt} {state st : DistinctionState} :
    ToldBy [.applicationCommitted receipt (some state)] k st ↔
      receipt.application.schemeId = k ∧ state = st := by
  simp only [ToldBy, List.mem_singleton, reduceCtorEq, false_or,
    GovernanceEvent.applicationCommitted.injEq, Option.some.injEq]
  constructor
  · rintro ⟨a, ⟨rfl, rfl⟩, hscheme⟩
    exact ⟨hscheme, rfl⟩
  · rintro ⟨hscheme, rfl⟩
    exact ⟨receipt, ⟨rfl, rfl⟩, hscheme⟩

end Concat

/-- What is read after some events. -/
structure ReadBack (events : List GovernanceEvent) (r : Replay) : Prop where
  told : ∀ k state, r.states.get? k = some state → ToldBy events k state
  newest : ∀ k state, ToldBy events k state →
    ∃ current, r.states.get? k = some current ∧ state.version ≤ current.version
  opened : ∀ k o, r.obligations.get? k = some o ↔ o.id = k ∧ .reviewOpened o ∈ events
  decided : ∀ k d, r.decisions.get? k = some d ↔ d.id = k ∧ .decisionRecorded d ∈ events
  applied : ∀ k a, r.applications.get? k = some a ↔ a.application.id = k ∧ AppliedBy events a
  discharged : ∀ k, k ∈ r.discharged ↔ k ≠ "" ∧ DischargedBy events k
  processed : ∀ k ids, r.processed.get? k = some ids ↔ .eventProcessed k ids ∈ events

section Read

variable {events : List GovernanceEvent} {r : Replay} {event : GovernanceEvent}

theorem bindIdentity_of_none {α : Type} [DecidableEq α] {d : Dict String α} {identity : String}
    {value : α} {message : String} (h : d.get? identity = none) :
    bindIdentity d identity value message = .ok (d.set identity value) := by
  rw [bindIdentity, h]
  rfl

/-- The states once one more state is told of a scheme: the newer one is kept. -/
def Replay.statesTold (r : Replay) (schemeId : String) (state : DistinctionState) :
    Dict String DistinctionState :=
  if (r.states.get? schemeId).all (fun current => current.version < state.version) then
    r.states.set schemeId state
  else r.states

theorem readState_eq_ok {schemeId : String} {state : DistinctionState}
    (h : stateAdmissibleFor schemeId state = true) :
    r.readState schemeId state = .ok { r with states := r.statesTold schemeId state } := by
  rw [Replay.readState, h, Replay.statesTold]
  split <;> rfl

/-- What a receipt closes when it is read. -/
def dischargedIds (receipt : ApplicationReceipt) : List String :=
  if receipt.effectKind = "review_discharge" then
    (receipt.application.reviewObligationId.filter (· ≠ "")).toList
  else []

theorem mem_dischargedIds {receipt : ApplicationReceipt} {k : String} :
    k ∈ dischargedIds receipt ↔ k ≠ "" ∧ receipt.effectKind = "review_discharge" ∧
      receipt.application.reviewObligationId = some k := by
  unfold dischargedIds
  split
  · next hkind =>
    simp only [Option.mem_toList, Option.filter_eq_some_iff, decide_eq_true_eq, hkind, true_and]
    exact and_comm
  · next hkind => simp [hkind]

theorem ReadBack.empty : ReadBack [] {} where
  told k state h := absurd h (by simp)
  newest k state h := absurd h (by simp [ToldBy])
  opened k o := by simp
  decided k d := by simp
  applied k a := by simp [AppliedBy]
  discharged k := by simp [DischargedBy, AppliedBy]
  processed k ids := by simp

def Replay.withReceipt (r : Replay) (receipt : ApplicationReceipt) : Replay :=
  { r with
    applications := r.applications.set receipt.application.id receipt,
    discharged := r.discharged ++ dischargedIds receipt }

theorem read_applicationCommitted {receipt : ApplicationReceipt}
    {nextState : Option DistinctionState}
    (hnone : r.applications.get? receipt.application.id = none) :
    r.read (.applicationCommitted receipt nextState) =
      match nextState with
      | some state => (r.withReceipt receipt).readState receipt.application.schemeId state
      | none => .ok (r.withReceipt receipt) := by
  rw [Replay.read, bindIdentity_of_none hnone, Replay.withReceipt, dischargedIds]
  cases nextState <;> split <;> simp only [List.append_nil] <;> rfl

section Kinds

variable (event)

/-- A state is told by a seed or an application only. -/
theorem ReadBack.states_kept (h : ReadBack events r) (hnone : ∀ k state, ¬ ToldBy [event] k state) :
    (∀ k state, r.states.get? k = some state → ToldBy (events ++ [event]) k state) ∧
    ∀ k state, ToldBy (events ++ [event]) k state →
      ∃ current, r.states.get? k = some current ∧ state.version ≤ current.version := by
  refine ⟨fun k state hstate => toldBy_concat.mpr (.inl (h.told k state hstate)), ?_⟩
  intro k state htold
  rcases toldBy_concat.mp htold with hold | hnew
  · exact h.newest k state hold
  · exact absurd hnew (hnone k state)

theorem ReadBack.applications_kept (h : ReadBack events r) (hnone : ∀ receipt, ¬ AppliedBy [event] receipt) :
    (∀ k a, r.applications.get? k = some a ↔
      a.application.id = k ∧ AppliedBy (events ++ [event]) a) ∧
    ∀ k, k ∈ r.discharged ↔ k ≠ "" ∧ DischargedBy (events ++ [event]) k := by
  refine ⟨fun k a => ?_, fun k => ?_⟩
  · rw [h.applied, appliedBy_concat, or_iff_left (hnone a)]
  · rw [h.discharged, dischargedBy_concat, or_iff_left]
    rintro ⟨receipt, happlied, -⟩
    exact hnone receipt happlied

/-- What one more receipt leaves. -/
theorem ReadBack.applications_read (h : ReadBack events r) {receipt : ApplicationReceipt}
    (nextState : Option DistinctionState)
    (hnone : r.applications.get? receipt.application.id = none) :
    (∀ k a, (r.applications.set receipt.application.id receipt).get? k = some a ↔
      a.application.id = k ∧
        AppliedBy (events ++ [.applicationCommitted receipt nextState]) a) ∧
    ∀ k, k ∈ r.discharged ++ dischargedIds receipt ↔
      k ≠ "" ∧ DischargedBy (events ++ [.applicationCommitted receipt nextState]) k := by
  refine ⟨fun k a => ?_, fun k => ?_⟩
  · rw [Dict.get?_set_iff h.applied hnone, appliedBy_concat, appliedBy_singleton, and_or_left]
    refine or_congr Iff.rfl ?_
    constructor
    · rintro ⟨rfl, rfl⟩
      exact ⟨rfl, rfl⟩
    · rintro ⟨rfl, rfl⟩
      exact ⟨rfl, rfl⟩
  · rw [List.mem_append, h.discharged, dischargedBy_concat, and_or_left, mem_dischargedIds]
    refine or_congr Iff.rfl (and_congr Iff.rfl ?_)
    constructor
    · rintro ⟨hkind, hid⟩
      exact ⟨receipt, appliedBy_singleton.mpr rfl, hkind, hid⟩
    · rintro ⟨a, ha, hkind, hid⟩
      obtain rfl := appliedBy_singleton.mp ha
      exact ⟨hkind, hid⟩

/-- What one more state leaves, when it is told of its scheme by the event. -/
theorem ReadBack.states_read (h : ReadBack events r) (schemeId : String)
    (state : DistinctionState)
    (htold : ∀ k st, ToldBy [event] k st ↔ k = schemeId ∧ st = state) :
    (∀ k st, (r.statesTold schemeId state).get? k = some st →
      ToldBy (events ++ [event]) k st) ∧
    ∀ k st, ToldBy (events ++ [event]) k st →
      ∃ current, (r.statesTold schemeId state).get? k = some current ∧
        st.version ≤ current.version := by
  have hafter : ∀ k st, ToldBy (events ++ [event]) k st ↔
      ToldBy events k st ∨ (k = schemeId ∧ st = state) :=
    fun k st => by rw [toldBy_concat, htold]
  unfold Replay.statesTold
  split
  · next hnew =>
    refine ⟨fun k st hst => ?_, fun k st hst => ?_⟩
    · rw [Dict.get?_set] at hst
      rw [hafter]
      by_cases hk : k = schemeId
      · rw [if_pos hk, Option.some.injEq] at hst
        exact .inr ⟨hk, hst.symm⟩
      · rw [if_neg hk] at hst
        exact .inl (h.told k st hst)
    · rw [Dict.get?_set]
      rcases (hafter k st).mp hst with hold | ⟨rfl, rfl⟩
      · obtain ⟨current, hcurrent, hle⟩ := h.newest k st hold
        by_cases hk : k = schemeId
        · subst hk
          rw [hcurrent, Option.all_some, decide_eq_true_eq] at hnew
          exact ⟨state, if_pos rfl, hle.trans hnew.le⟩
        · exact ⟨current, by rw [if_neg hk, hcurrent], hle⟩
      · exact ⟨st, if_pos rfl, le_refl _⟩
  · next hnew =>
    refine ⟨fun k st hst => (hafter k st).mpr (.inl (h.told k st hst)), fun k st hst => ?_⟩
    rcases (hafter k st).mp hst with hold | ⟨rfl, rfl⟩
    · exact h.newest k st hold
    · cases hcurrent : r.states.get? k with
      | none => rw [hcurrent] at hnew; exact absurd rfl hnew
      | some current =>
        rw [hcurrent, Option.all_some, decide_eq_true_eq, not_lt] at hnew
        exact ⟨current, rfl, hnew⟩

end Kinds

/-! One kind of event after another.  A dictionary that holds what the events of one kind
recorded has no row under the id of a new event, and one entry more once it is read. -/

section Rows

variable {α : Type} {d : Dict String α} {idOf : α → String} {Recorded Recorded' : α → Prop}
  {value : α}

theorem row_fresh (h : ∀ k a, d.get? k = some a ↔ idOf a = k ∧ Recorded a)
    (hfresh : ∀ a, Recorded a → idOf a ≠ idOf value) : d.get? (idOf value) = none := by
  by_contra hsome
  obtain ⟨a, ha⟩ := Option.ne_none_iff_exists'.mp hsome
  obtain ⟨hid, hrecorded⟩ := (h _ a).mp ha
  exact hfresh a hrecorded hid

theorem row_read (h : ∀ k a, d.get? k = some a ↔ idOf a = k ∧ Recorded a)
    (hnone : d.get? (idOf value) = none)
    (hmore : ∀ a, Recorded' a ↔ Recorded a ∨ a = value) (k : String) (a : α) :
    (d.set (idOf value) value).get? k = some a ↔ idOf a = k ∧ Recorded' a := by
  rw [Dict.get?_set_iff h hnone, hmore, and_or_left]
  refine or_congr Iff.rfl ⟨?_, ?_⟩
  · rintro ⟨rfl, rfl⟩
    exact ⟨rfl, rfl⟩
  · rintro ⟨rfl, rfl⟩
    exact ⟨rfl, rfl⟩

end Rows

theorem ReadBack.read_stateSeeded (h : ReadBack events r) {schemeId : String}
    {state : DistinctionState} (hadmissible : stateAdmissibleFor schemeId state = true) :
    ∃ r', r.read (.stateSeeded schemeId state) = .ok r' ∧
      ReadBack (events ++ [.stateSeeded schemeId state]) r' := by
  obtain ⟨htold, hnewest⟩ :=
    h.states_read (.stateSeeded schemeId state) schemeId state (fun k st => by simp [ToldBy])
  obtain ⟨happlied, hdischarged⟩ :=
    h.applications_kept (.stateSeeded schemeId state) (by simp [AppliedBy])
  exact ⟨_, readState_eq_ok hadmissible, htold, hnewest, by simp [h.opened], by simp [h.decided],
    happlied, hdischarged, by simp [h.processed]⟩

theorem ReadBack.read_reviewOpened (h : ReadBack events r) {obligation : ReviewObligation}
    (hfresh : ∀ o, .reviewOpened o ∈ events → o.id ≠ obligation.id) :
    ∃ r', r.read (.reviewOpened obligation) = .ok r' ∧
      ReadBack (events ++ [.reviewOpened obligation]) r' := by
  have hnone := row_fresh h.opened hfresh
  obtain ⟨htold, hnewest⟩ := h.states_kept (.reviewOpened obligation) (by simp [ToldBy])
  obtain ⟨happlied, hdischarged⟩ :=
    h.applications_kept (.reviewOpened obligation) (by simp [AppliedBy])
  refine ⟨{ r with obligations := r.obligations.set obligation.id obligation }, ?_, htold,
    hnewest, row_read h.opened hnone (by simp), by simp [h.decided], happlied, hdischarged,
    by simp [h.processed]⟩
  rw [Replay.read, bindIdentity_of_none hnone]
  rfl

theorem ReadBack.read_decisionRecorded (h : ReadBack events r) {decision : GovernanceDecision}
    (hfresh : ∀ d, .decisionRecorded d ∈ events → d.id ≠ decision.id) :
    ∃ r', r.read (.decisionRecorded decision) = .ok r' ∧
      ReadBack (events ++ [.decisionRecorded decision]) r' := by
  have hnone := row_fresh h.decided hfresh
  obtain ⟨htold, hnewest⟩ := h.states_kept (.decisionRecorded decision) (by simp [ToldBy])
  obtain ⟨happlied, hdischarged⟩ :=
    h.applications_kept (.decisionRecorded decision) (by simp [AppliedBy])
  refine ⟨{ r with decisions := r.decisions.set decision.id decision }, ?_, htold, hnewest,
    by simp [h.opened], row_read h.decided hnone (by simp), happlied, hdischarged,
    by simp [h.processed]⟩
  rw [Replay.read, bindIdentity_of_none hnone]
  rfl

theorem ReadBack.read_applicationCommitted (h : ReadBack events r)
    {receipt : ApplicationReceipt} {nextState : Option DistinctionState}
    (hfresh : ∀ a, AppliedBy events a → a.application.id ≠ receipt.application.id)
    (hadmissible : ∀ state, nextState = some state →
      stateAdmissibleFor receipt.application.schemeId state = true) :
    ∃ r', r.read (.applicationCommitted receipt nextState) = .ok r' ∧
      ReadBack (events ++ [.applicationCommitted receipt nextState]) r' := by
  have hnone : r.applications.get? receipt.application.id = none :=
    row_fresh h.applied hfresh
  obtain ⟨happlied, hdischarged⟩ := h.applications_read nextState hnone
  rw [Governance.read_applicationCommitted hnone]
  cases nextState with
  | none =>
    obtain ⟨htold, hnewest⟩ :=
      h.states_kept (.applicationCommitted receipt none) (by simp [ToldBy])
    exact ⟨_, rfl, htold, hnewest, by simp [Replay.withReceipt, h.opened],
      by simp [Replay.withReceipt, h.decided], happlied, hdischarged,
      by simp [Replay.withReceipt, h.processed]⟩
  | some state =>
    obtain ⟨htold, hnewest⟩ :=
      h.states_read (.applicationCommitted receipt (some state)) receipt.application.schemeId
        state (fun k st => by rw [toldBy_application]; exact and_congr eq_comm eq_comm)
    exact ⟨_, readState_eq_ok (hadmissible state rfl), htold, hnewest,
      by simp [Replay.withReceipt, h.opened], by simp [Replay.withReceipt, h.decided], happlied,
      hdischarged, by simp [Replay.withReceipt, h.processed]⟩

theorem ReadBack.read_eventProcessed (h : ReadBack events r) {eventRef : String}
    {obligationIds : List String}
    (hfresh : ∀ ids, .eventProcessed eventRef ids ∉ events) :
    ∃ r', r.read (.eventProcessed eventRef obligationIds) = .ok r' ∧
      ReadBack (events ++ [.eventProcessed eventRef obligationIds]) r' := by
  have hnone : r.processed.get? eventRef = none := by
    by_contra hsome
    obtain ⟨ids, hids⟩ := Option.ne_none_iff_exists'.mp hsome
    exact hfresh ids ((h.processed _ _).mp hids)
  obtain ⟨htold, hnewest⟩ :=
    h.states_kept (.eventProcessed eventRef obligationIds) (by simp [ToldBy])
  obtain ⟨happlied, hdischarged⟩ :=
    h.applications_kept (.eventProcessed eventRef obligationIds) (by simp [AppliedBy])
  refine ⟨{ r with processed := r.processed.set eventRef obligationIds }, ?_, htold, hnewest,
    by simp [h.opened], by simp [h.decided], happlied, hdischarged, fun k ids => ?_⟩
  · rw [Replay.read, bindIdentity_of_none hnone]
    rfl
  · rw [Dict.get?_set_iff h.processed hnone]
    simp [GovernanceEvent.eventProcessed.injEq]

/-- One more event, under an id of its own, is read. -/
theorem ReadBack.read (h : ReadBack events r) (hfresh : ∀ e ∈ events, e.id ≠ event.id)
    (hadmissible : ∀ k state, ToldBy [event] k state → stateAdmissibleFor k state = true) :
    ∃ r', r.read event = .ok r' ∧ ReadBack (events ++ [event]) r' := by
  cases event with
  | stateSeeded schemeId state =>
    exact h.read_stateSeeded (hadmissible schemeId state (.inl (by simp)))
  | reviewOpened obligation =>
    exact h.read_reviewOpened fun o ho hid => hfresh _ ho (congrArg (Prod.mk "review") hid)
  | decisionRecorded decision =>
    exact h.read_decisionRecorded fun d hd hid => hfresh _ hd (congrArg (Prod.mk "decision") hid)
  | applicationCommitted receipt nextState =>
    refine h.read_applicationCommitted ?_ ?_
    · rintro a ⟨state, hmem⟩ hid
      exact hfresh _ hmem (congrArg (Prod.mk "application") hid)
    · rintro state rfl
      exact hadmissible _ state (.inr ⟨receipt, List.mem_singleton_self _, rfl⟩)
  | eventProcessed eventRef obligationIds =>
    exact h.read_eventProcessed fun ids hids => hfresh _ hids rfl

end Read

section Reading

variable {events events' : List GovernanceEvent} {r : Replay}

/-- Events of distinct ids that tell admissible states are read. -/
theorem ReadBack.foldlM {rest : List GovernanceEvent} (h : ReadBack events r)
    (hnodup : ((events ++ rest).map GovernanceEvent.id).Nodup)
    (hadmissible : ∀ k state, ToldBy (events ++ rest) k state →
      stateAdmissibleFor k state = true) :
    ∃ r', rest.foldlM Replay.read r = .ok r' ∧ ReadBack (events ++ rest) r' := by
  induction rest generalizing events r with
  | nil => exact ⟨r, rfl, by rwa [List.append_nil]⟩
  | cons event rest ih =>
    have hsplit : events ++ event :: rest = (events ++ [event]) ++ rest := by simp
    have hfresh : ∀ e ∈ events, e.id ≠ event.id := by
      intro e he heq
      rw [List.map_append, List.nodup_append] at hnodup
      exact hnodup.2.2 _ (List.mem_map_of_mem he) _ (List.mem_map_of_mem List.mem_cons_self) heq
    have htold : ∀ k state, ToldBy [event] k state → ToldBy (events ++ event :: rest) k state := by
      intro k state
      rintro (hseed | ⟨receipt, happlied, hscheme⟩)
      · exact .inl (by simp [List.mem_singleton.mp hseed])
      · exact .inr ⟨receipt, by simp [List.mem_singleton.mp happlied], hscheme⟩
    obtain ⟨r₁, hread, h₁⟩ :=
      h.read hfresh (fun k state hk => hadmissible k state (htold k state hk))
    rw [hsplit] at hnodup hadmissible ⊢
    obtain ⟨r', hrest, h'⟩ := ih h₁ hnodup hadmissible
    refine ⟨r', ?_, h'⟩
    rw [List.foldlM_cons, hread]
    exact hrest

theorem exists_readBack (hnodup : (events.map GovernanceEvent.id).Nodup)
    (hadmissible : ∀ k state, ToldBy events k state → stateAdmissibleFor k state = true) :
    ∃ r, events.foldlM Replay.read {} = .ok r ∧ ReadBack events r :=
  ReadBack.empty.foldlM hnodup hadmissible

theorem ToldBy.congr (h : ∀ e, e ∈ events ↔ e ∈ events') {k : String}
    {state : DistinctionState} : ToldBy events k state ↔ ToldBy events' k state := by
  simp only [ToldBy, h]

theorem AppliedBy.congr (h : ∀ e, e ∈ events ↔ e ∈ events') {receipt : ApplicationReceipt} :
    AppliedBy events receipt ↔ AppliedBy events' receipt := by
  simp only [AppliedBy, h]

theorem DischargedBy.congr (h : ∀ e, e ∈ events ↔ e ∈ events') {k : String} :
    DischargedBy events k ↔ DischargedBy events' k := by
  simp only [DischargedBy, AppliedBy.congr h]

/-- The obligations of a configuration that was read: the opened ones that no receipt
discharges. -/
theorem ReadBack.configuration_obligations (h : ReadBack events r) (k : String)
    (o : ReviewObligation) :
    r.configuration.runtime.obligations.get? k = some o ↔
      o.id = k ∧ .reviewOpened o ∈ events ∧ ¬ (k ≠ "" ∧ DischargedBy events k) := by
  show (r.discharged.foldl Dict.erase r.obligations).get? k = some o ↔ _
  rw [Dict.get?_foldl_erase]
  by_cases hk : k ∈ r.discharged
  · rw [if_pos hk]
    rw [h.discharged] at hk
    simp [hk]
  · rw [if_neg hk, h.opened]
    rw [h.discharged] at hk
    simp only [hk, not_false_eq_true, and_true]

end Reading

end Governance
end PortableRuntime
