import PortableRuntime.Governance.Commit
import PortableRuntime.Governance.Replay

/-!
# The sidecar and its journal

What the tables of a store hold is told by the events of its journal, and the other way
round, but for obligations: one that a receipt discharged can be opened again, without an
event of its own.
-/

namespace PortableRuntime
namespace Governance

/-! ## What a table tells -/

section Tables

variable {events events' : List GovernanceEvent}

/-- The state of a scheme is the newest one told of it. -/
structure StatesTold (states : Dict String DistinctionState) (events : List GovernanceEvent) :
    Prop where
  told : ∀ k state, states.get? k = some state → ToldBy events k state
  newest : ∀ k state, ToldBy events k state →
    ∃ current, states.get? k = some current ∧ (state = current ∨ state.version < current.version)
  admissible : ∀ k state, ToldBy events k state → stateAdmissibleFor k state = true

/-- What was opened is open, unless a receipt discharged it. -/
structure ReviewsTold (obligations : Dict String ReviewObligation)
    (events : List GovernanceEvent) : Prop where
  opened : ∀ k o, obligations.get? k = some o → o.id = k ∧ .reviewOpened o ∈ events
  kept : ∀ o, .reviewOpened o ∈ events →
    obligations.get? o.id = some o ∨ DischargedBy events o.id
  discharged : ∀ k, DischargedBy events k → ∃ o, o.id = k ∧ .reviewOpened o ∈ events

def DecisionsTold (decisions : Dict String GovernanceDecision) (events : List GovernanceEvent) :
    Prop :=
  ∀ k d, decisions.get? k = some d ↔ d.id = k ∧ .decisionRecorded d ∈ events

def ApplicationsTold (applications : Dict String ApplicationReceipt)
    (events : List GovernanceEvent) : Prop :=
  ∀ k a, applications.get? k = some a ↔ a.application.id = k ∧ AppliedBy events a

theorem StatesTold.congr {states : Dict String DistinctionState} (h : StatesTold states events)
    (htold : ∀ k state, ToldBy events' k state ↔ ToldBy events k state) :
    StatesTold states events' where
  told k state hstate := (htold k state).mpr (h.told k state hstate)
  newest k state hk := h.newest k state ((htold k state).mp hk)
  admissible k state hk := h.admissible k state ((htold k state).mp hk)

theorem ReviewsTold.congr {obligations : Dict String ReviewObligation}
    (h : ReviewsTold obligations events)
    (hopened : ∀ o, .reviewOpened o ∈ events' ↔ .reviewOpened o ∈ events)
    (hdischarged : ∀ k, DischargedBy events' k ↔ DischargedBy events k) :
    ReviewsTold obligations events' where
  opened k o ho := ⟨(h.opened k o ho).1, (hopened o).mpr (h.opened k o ho).2⟩
  kept o ho := by
    rw [hdischarged]
    exact h.kept o ((hopened o).mp ho)
  discharged k hk := by
    obtain ⟨o, hid, ho⟩ := h.discharged k ((hdischarged k).mp hk)
    exact ⟨o, hid, (hopened o).mpr ho⟩

end Tables

namespace GovernanceStore

def events (s : GovernanceStore) : List GovernanceEvent := s.history.values

/-- The tables and the journal of a store tell the same. -/
structure Consistent (s : GovernanceStore) : Prop where
  keyed : ∀ id event, s.history.get? id = some event → event.id = id
  states : StatesTold s.states s.events
  reviews : ReviewsTold s.obligations s.events
  decisions : DecisionsTold s.decisions s.events
  applications : ApplicationsTold s.applications s.events

section Record

variable {s : GovernanceStore} {event : GovernanceEvent}

theorem mem_events_iff (hkeyed : ∀ id e, s.history.get? id = some e → e.id = id) :
    event ∈ s.events ↔ s.history.get? event.id = some event := by
  rw [events, Dict.mem_values]
  constructor
  · rintro ⟨id, hget⟩
    rwa [hkeyed id event hget]
  · exact fun hget => ⟨event.id, hget⟩

/-- An event that the journal takes is the one event more. -/
theorem mem_events_record (htakes : s.takes event = true) (e : GovernanceEvent) :
    e ∈ (s.record event).events ↔ e ∈ s.events ++ [event] := by
  rw [List.mem_append, List.mem_singleton, events, events, Dict.mem_values, Dict.mem_values]
  simp only [record, Dict.get?_set]
  constructor
  · rintro ⟨id, hget⟩
    by_cases hid : id = event.id
    · rw [if_pos hid, Option.some.injEq] at hget
      exact .inr hget.symm
    · rw [if_neg hid] at hget
      exact .inl ⟨id, hget⟩
  · rintro (⟨id, hget⟩ | rfl)
    · by_cases hid : id = event.id
      · unfold takes at htakes
        rw [← hid, hget, Option.all_some, decide_eq_true_eq] at htakes
        exact ⟨id, by rw [if_pos hid, htakes]⟩
      · exact ⟨id, by rw [if_neg hid, hget]⟩
    · exact ⟨e.id, if_pos rfl⟩

theorem toldBy_record (htakes : s.takes event = true) {k : String} {state : DistinctionState} :
    ToldBy (s.record event).events k state ↔ ToldBy s.events k state ∨ ToldBy [event] k state := by
  rw [ToldBy.congr (mem_events_record htakes), toldBy_concat]

theorem appliedBy_record (htakes : s.takes event = true) {receipt : ApplicationReceipt} :
    AppliedBy (s.record event).events receipt ↔
      AppliedBy s.events receipt ∨ AppliedBy [event] receipt := by
  rw [AppliedBy.congr (mem_events_record htakes), appliedBy_concat]

theorem dischargedBy_record (htakes : s.takes event = true) {k : String} :
    DischargedBy (s.record event).events k ↔
      DischargedBy s.events k ∨ DischargedBy [event] k := by
  rw [DischargedBy.congr (mem_events_record htakes), dischargedBy_concat]

theorem keyed_record (hkeyed : ∀ id e, s.history.get? id = some e → e.id = id) :
    ∀ id e, (s.record event).history.get? id = some e → e.id = id := by
  intro id e hget
  rw [record, Dict.get?_set] at hget
  by_cases hid : id = event.id
  · rw [if_pos hid, Option.some.injEq] at hget
    rw [← hget, hid]
  · rw [if_neg hid] at hget
    exact hkeyed id e hget

/-! ## Tables that an event does not tell of -/

theorem statesTold_record (htakes : s.takes event = true)
    {states : Dict String DistinctionState} (h : StatesTold states s.events)
    (hnone : ∀ k state, ¬ ToldBy [event] k state) : StatesTold states (s.record event).events :=
  h.congr (fun k state => by rw [toldBy_record htakes, or_iff_left (hnone k state)])

theorem not_dischargedBy_singleton (hnone : ∀ receipt, ¬ AppliedBy [event] receipt) (k : String) :
    ¬ DischargedBy [event] k := by
  rintro ⟨receipt, happlied, -⟩
  exact hnone receipt happlied

theorem reviewsTold_record (htakes : s.takes event = true)
    {obligations : Dict String ReviewObligation} (h : ReviewsTold obligations s.events)
    (hopened : ∀ o, event ≠ .reviewOpened o) (hnone : ∀ receipt, ¬ AppliedBy [event] receipt) :
    ReviewsTold obligations (s.record event).events := by
  refine h.congr (fun o => ?_) (fun k => ?_)
  · rw [mem_events_record htakes, List.mem_append, List.mem_singleton,
      or_iff_left (hopened o).symm]
  · rw [dischargedBy_record htakes, or_iff_left (not_dischargedBy_singleton hnone k)]

theorem decisionsTold_record (htakes : s.takes event = true)
    {decisions : Dict String GovernanceDecision} (h : DecisionsTold decisions s.events)
    (hdecision : ∀ d, event ≠ .decisionRecorded d) :
    DecisionsTold decisions (s.record event).events := by
  intro k d
  rw [h k d, mem_events_record htakes, List.mem_append, List.mem_singleton,
    or_iff_left (hdecision d).symm]

theorem applicationsTold_record (htakes : s.takes event = true)
    {applications : Dict String ApplicationReceipt} (h : ApplicationsTold applications s.events)
    (hnone : ∀ receipt, ¬ AppliedBy [event] receipt) :
    ApplicationsTold applications (s.record event).events := by
  intro k a
  rw [h k a, appliedBy_record htakes, or_iff_left (hnone a)]

/-! ## Tables that an event tells of -/

/-- A newer state of a scheme, told by the event. -/
theorem statesTold_record_set (htakes : s.takes event = true) (h : StatesTold s.states s.events)
    {schemeId : String} {state : DistinctionState}
    (htold : ∀ k st, ToldBy [event] k st ↔ k = schemeId ∧ st = state)
    (hnewer : ∀ current, s.states.get? schemeId = some current → current.version < state.version)
    (hadmissible : stateAdmissibleFor schemeId state = true) :
    StatesTold (s.states.set schemeId state) (s.record event).events where
  told k st hst := by
    rw [toldBy_record htakes, htold]
    rw [Dict.get?_set] at hst
    by_cases hk : k = schemeId
    · rw [if_pos hk, Option.some.injEq] at hst
      exact .inr ⟨hk, hst.symm⟩
    · rw [if_neg hk] at hst
      exact .inl (h.told k st hst)
  newest k st hst := by
    rw [toldBy_record htakes, htold] at hst
    rw [Dict.get?_set]
    rcases hst with hold | ⟨rfl, rfl⟩
    · obtain ⟨current, hcurrent, hle⟩ := h.newest k st hold
      by_cases hk : k = schemeId
      · subst hk
        refine ⟨state, if_pos rfl, .inr ?_⟩
        rcases hle with rfl | hlt
        · exact hnewer st hcurrent
        · exact hlt.trans (hnewer current hcurrent)
      · exact ⟨current, by rw [if_neg hk, hcurrent], hle⟩
    · exact ⟨st, if_pos rfl, .inl rfl⟩
  admissible k st hst := by
    rw [toldBy_record htakes, htold] at hst
    rcases hst with hold | ⟨rfl, rfl⟩
    · exact h.admissible k st hold
    · exact hadmissible

theorem decisionsTold_record_set {decision : GovernanceDecision}
    (htakes : s.takes (.decisionRecorded decision) = true)
    (h : DecisionsTold s.decisions s.events) (hnew : s.decisions.get? decision.id = none) :
    DecisionsTold (s.decisions.set decision.id decision)
      (s.record (.decisionRecorded decision)).events := by
  intro k d
  rw [Dict.get?_set_iff h hnew, mem_events_record htakes, List.mem_append, List.mem_singleton,
    GovernanceEvent.decisionRecorded.injEq, and_or_left]
  refine or_congr Iff.rfl ⟨?_, ?_⟩
  · rintro ⟨rfl, rfl⟩
    exact ⟨rfl, rfl⟩
  · rintro ⟨rfl, rfl⟩
    exact ⟨rfl, rfl⟩

theorem applicationsTold_record_set {receipt : ApplicationReceipt}
    {nextState : Option DistinctionState}
    (htakes : s.takes (.applicationCommitted receipt nextState) = true)
    (h : ApplicationsTold s.applications s.events)
    (hnew : s.applications.get? receipt.application.id = none) :
    ApplicationsTold (s.applications.set receipt.application.id receipt)
      (s.record (.applicationCommitted receipt nextState)).events := by
  intro k a
  rw [Dict.get?_set_iff h hnew, appliedBy_record htakes, appliedBy_singleton, and_or_left]
  refine or_congr Iff.rfl ⟨?_, ?_⟩
  · rintro ⟨rfl, rfl⟩
    exact ⟨rfl, rfl⟩
  · rintro ⟨rfl, rfl⟩
    exact ⟨rfl, rfl⟩

/-- An obligation that is put, under an id under which no other one is known. -/
theorem reviewsTold_record_set {o : ReviewObligation} (htakes : s.takes (.reviewOpened o) = true)
    (hkeyed : ∀ id e, s.history.get? id = some e → e.id = id)
    (h : ReviewsTold s.obligations s.events) :
    ReviewsTold (s.obligations.set o.id o) (s.record (.reviewOpened o)).events := by
  have hdischarged : ∀ k, DischargedBy (s.record (.reviewOpened o)).events k ↔
      DischargedBy s.events k := by
    intro k
    rw [dischargedBy_record htakes,
      or_iff_left (not_dischargedBy_singleton (by simp [AppliedBy]) k)]
  have hopened : ∀ o', .reviewOpened o' ∈ (s.record (.reviewOpened o)).events ↔
      .reviewOpened o' ∈ s.events ∨ o' = o := by
    intro o'
    rw [mem_events_record htakes, List.mem_append, List.mem_singleton,
      GovernanceEvent.reviewOpened.injEq]
  constructor
  · intro k o' ho'
    rw [hopened]
    rw [Dict.get?_set] at ho'
    by_cases hk : k = o.id
    · rw [if_pos hk, Option.some.injEq] at ho'
      exact ⟨by rw [← ho', hk], .inr ho'.symm⟩
    · rw [if_neg hk] at ho'
      exact ⟨(h.opened k o' ho').1, .inl (h.opened k o' ho').2⟩
  · intro o' ho'
    rw [hdischarged, Dict.get?_set]
    by_cases hid : o'.id = o.id
    · have hsame : o' = o := by
        rcases (hopened o').mp ho' with hold | hsame
        · have hget := (mem_events_iff hkeyed).mp hold
          unfold takes at htakes
          rw [← reviewOpened_id_eq.mpr hid, hget, Option.all_some, decide_eq_true_eq] at htakes
          exact GovernanceEvent.reviewOpened.inj htakes
        · exact hsame
      exact .inl (by rw [if_pos hid, hsame])
    · rw [if_neg hid]
      rcases (hopened o').mp ho' with hold | rfl
      · exact h.kept o' hold
      · exact absurd rfl hid
  · intro k hk
    obtain ⟨o', hid, ho'⟩ := h.discharged k ((hdischarged k).mp hk)
    exact ⟨o', hid, (hopened o').mpr (.inl ho')⟩

/-- An obligation that is discharged. -/
theorem reviewsTold_record_erase {receipt : ApplicationReceipt} {obligationId : String}
    (htakes : s.takes (.applicationCommitted receipt none) = true)
    (h : ReviewsTold s.obligations s.events) (hkind : receipt.effectKind = "review_discharge")
    (hnamed : receipt.application.reviewObligationId = some obligationId)
    {o : ReviewObligation} (hopen : s.obligations.get? obligationId = some o) :
    ReviewsTold (s.obligations.erase obligationId)
      (s.record (.applicationCommitted receipt none)).events := by
  have hdischarged : ∀ k, DischargedBy (s.record (.applicationCommitted receipt none)).events k ↔
      DischargedBy s.events k ∨ k = obligationId := by
    intro k
    rw [dischargedBy_record htakes]
    refine or_congr Iff.rfl ⟨?_, ?_⟩
    · rintro ⟨a, ha, -, hid⟩
      rw [appliedBy_singleton.mp ha, hnamed] at hid
      exact (Option.some.inj hid).symm
    · rintro rfl
      exact ⟨receipt, appliedBy_singleton.mpr rfl, hkind, hnamed⟩
  have hopened : ∀ o', .reviewOpened o' ∈ (s.record (.applicationCommitted receipt none)).events ↔
      .reviewOpened o' ∈ s.events := by
    intro o'
    rw [mem_events_record htakes]
    simp
  constructor
  · intro k o' ho'
    rw [Dict.get?_erase] at ho'
    by_cases hk : k = obligationId
    · rw [if_pos hk] at ho'
      exact absurd ho' (by simp)
    · rw [if_neg hk] at ho'
      rw [hopened]
      exact h.opened k o' ho'
  · intro o' ho'
    rw [hdischarged, Dict.get?_erase]
    by_cases hid : o'.id = obligationId
    · exact .inr (.inr hid)
    · rw [if_neg hid]
      exact (h.kept o' ((hopened o').mp ho')).imp id .inl
  · intro k hk
    rcases (hdischarged k).mp hk with hold | rfl
    · obtain ⟨o', hid, ho'⟩ := h.discharged k hold
      exact ⟨o', hid, (hopened o').mpr ho'⟩
    · obtain ⟨hid, ho⟩ := h.opened _ _ hopen
      exact ⟨o, hid, (hopened o).mpr ho⟩

end Record

/-! ## Consistency of a step -/

section Steps

variable {s s' : GovernanceStore}

@[simp] theorem events_empty : ({} : GovernanceStore).events = [] := rfl

theorem Consistent.empty : Consistent {} where
  keyed id event h := absurd h (by simp)
  states := ⟨fun k state h => absurd h (by simp), fun k state h => absurd h (by simp [ToldBy]),
    fun k state h => absurd h (by simp [ToldBy])⟩
  reviews := ⟨fun k o h => absurd h (by simp), fun o h => absurd h (by simp),
    fun k h => absurd h (by simp [DischargedBy, AppliedBy])⟩
  decisions k d := by rw [Dict.get?_empty, events_empty]; simp
  applications k a := by rw [Dict.get?_empty, events_empty]; simp [AppliedBy]

theorem Consistent.seedState {schemeId : String} {state : DistinctionState} (h : Consistent s)
    (hseed : s.seedState schemeId state = .ok s') : Consistent s' := by
  obtain ⟨hadmissible, ⟨-, rfl⟩ | ⟨hnone, htakes, rfl⟩⟩ := seedState_eq_ok.mp hseed
  · exact h
  · have happlied : ∀ receipt, ¬ AppliedBy [.stateSeeded schemeId state] receipt := by
      simp [AppliedBy]
    have htold : ∀ k st, ToldBy [.stateSeeded schemeId state] k st ↔ k = schemeId ∧ st = state := by
      simp [ToldBy]
    refine ⟨keyed_record h.keyed,
      statesTold_record_set htakes h.states htold (fun current hcurrent => ?_) hadmissible,
      reviewsTold_record htakes h.reviews (by simp) happlied,
      decisionsTold_record htakes h.decisions (by simp),
      applicationsTold_record htakes h.applications happlied⟩
    rw [hnone] at hcurrent
    exact absurd hcurrent (by simp)

theorem Consistent.materialize {o : ReviewObligation} (h : Consistent s)
    (htakes : s.takes (.reviewOpened o) = true) :
    Consistent ({ s with obligations := s.obligations.set o.id o }.record (.reviewOpened o)) :=
  ⟨keyed_record h.keyed, statesTold_record htakes h.states (by simp [ToldBy]),
    reviewsTold_record_set htakes h.keyed h.reviews,
    decisionsTold_record htakes h.decisions (by simp),
    applicationsTold_record htakes h.applications (by simp [AppliedBy])⟩

theorem Consistent.recordDecision {decision : GovernanceDecision} (h : Consistent s)
    (hrecord : s.recordDecision decision = .ok s') : Consistent s' := by
  rcases recordDecision_eq_ok.mp hrecord with ⟨-, rfl⟩ | ⟨hnone, -, -, htakes, rfl⟩
  · exact h
  · exact ⟨keyed_record h.keyed, statesTold_record htakes h.states (by simp [ToldBy]),
      reviewsTold_record htakes h.reviews (by simp) (by simp [AppliedBy]),
      decisionsTold_record_set htakes h.decisions hnone,
      applicationsTold_record htakes h.applications (by simp [AppliedBy])⟩

theorem Consistent.commitStateApplication {schemeId : String} {nextState : DistinctionState}
    {receipt : ApplicationReceipt} {freshness : Option FreshnessAnchorLookup} (h : Consistent s)
    (hcommit : s.commitStateApplication schemeId nextState receipt freshness = .ok s') :
    Consistent s' := by
  obtain ⟨⟨current, decision, hc⟩, htakes, rfl⟩ := commitStateApplication_eq_ok.mp hcommit
  have htold : ∀ k st, ToldBy [.applicationCommitted receipt (some nextState)] k st ↔
      k = schemeId ∧ st = nextState := by
    intro k st
    rw [toldBy_application, hc.scheme]
    exact and_congr eq_comm eq_comm
  have hreviews : ReviewsTold s.obligations
      (s.record (.applicationCommitted receipt (some nextState))).events := by
    refine h.reviews.congr (fun o => by rw [mem_events_record htakes]; simp) (fun k => ?_)
    rw [dischargedBy_record htakes, or_iff_left]
    rintro ⟨a, ha, hkind, -⟩
    rw [appliedBy_singleton.mp ha, hc.kind] at hkind
    exact absurd hkind (by decide)
  refine ⟨keyed_record h.keyed, statesTold_record_set htakes h.states htold ?_ hc.admissible,
    hreviews, decisionsTold_record htakes h.decisions (by simp),
    applicationsTold_record_set htakes h.applications hc.fresh⟩
  intro held hheld
  obtain rfl : held = current := Option.some.inj (hheld.symm.trans hc.found)
  rw [← hc.candidate]
  exact Int.lt_succ held.version

theorem Consistent.commitReviewDischarge {obligationId : String} {receipt : ApplicationReceipt}
    {freshness : Option FreshnessAnchorLookup} (h : Consistent s)
    (hcommit : s.commitReviewDischarge obligationId receipt freshness = .ok s') :
    Consistent s' := by
  obtain ⟨⟨obligation, decision, hc⟩, htakes, rfl⟩ := commitReviewDischarge_eq_ok.mp hcommit
  exact ⟨keyed_record h.keyed, statesTold_record htakes h.states (by simp [ToldBy]),
    reviewsTold_record_erase htakes h.reviews hc.kind hc.named hc.opened,
    decisionsTold_record htakes h.decisions (by simp),
    applicationsTold_record_set htakes h.applications hc.fresh⟩

/-- Obligations under distinct ids that the journal takes. -/
theorem Consistent.opened {obligations : List ReviewObligation} (h : Consistent s)
    (hids : (obligations.map (·.id)).Nodup)
    (htakes : ∀ o ∈ obligations, s.takes (.reviewOpened o) = true) :
    Consistent (s.opened obligations) := by
  induction obligations generalizing s with
  | nil => exact h
  | cons o rest ih =>
    obtain ⟨hid, hrest⟩ := List.nodup_cons.mp hids
    refine ih (h.materialize (htakes o List.mem_cons_self)) hrest (fun o' ho' => ?_)
    have hne : o'.id ≠ o.id := fun heq => hid (List.mem_map.mpr ⟨o', ho', heq⟩)
    rw [takes_record_of_ne (fun heq => hne (reviewOpened_id_eq.mp heq))]
    exact htakes o' (List.mem_cons_of_mem o ho')

theorem Consistent.commitEventObligations {eventRef : String}
    {obligations : List ReviewObligation} {ids : List String} (h : Consistent s)
    (hcommit : s.commitEventObligations eventRef obligations = .ok (ids, s')) :
    Consistent s' := by
  rcases commitEventObligations_eq_ok.mp ⟨ids, hcommit⟩ with ⟨-, -, -, rfl⟩ | ⟨hc, htakes, rfl⟩
  · exact h
  · have hopened := h.opened hc.apart hc.taken
    exact ⟨keyed_record hopened.keyed,
      statesTold_record htakes hopened.states (by simp [ToldBy]),
      reviewsTold_record htakes hopened.reviews (by simp) (by simp [AppliedBy]),
      decisionsTold_record htakes hopened.decisions (by simp),
      applicationsTold_record htakes hopened.applications (by simp [AppliedBy])⟩

theorem Consistent.openObligation {o : ReviewObligation} (h : Consistent s)
    (hopen : s.openObligation o = .ok s') : Consistent s' := by
  rcases openObligation_eq_ok.mp hopen with ⟨-, rfl⟩ | ⟨-, -, hmaterialize⟩
  · exact h
  · obtain ⟨htakes, rfl⟩ := materialize_eq_ok.mp hmaterialize
    exact h.materialize htakes

theorem perform_commitEventObligations {eventRef : String}
    {obligations : List ReviewObligation} :
    (PersistenceCall.commitEventObligations eventRef obligations).perform s = .ok s' ↔
      ∃ ids, s.commitEventObligations eventRef obligations = .ok (ids, s') := by
  rw [PersistenceCall.perform]
  cases s.commitEventObligations eventRef obligations with
  | error e => simp
  | ok result => exact ⟨fun h => ⟨result.1, by cases h; rfl⟩, fun ⟨ids, h⟩ => by cases h; rfl⟩

theorem Consistent.step (h : Consistent s) (call : PersistenceCall) :
    Consistent (call.step s) := by
  unfold PersistenceCall.step
  cases hperform : call.perform s with
  | error e => exact h
  | ok s' =>
    cases call with
    | seedState schemeId state => exact h.seedState hperform
    | openObligation o => exact h.openObligation hperform
    | commitEventObligations eventRef obligations =>
      obtain ⟨ids, hcommit⟩ := perform_commitEventObligations.mp hperform
      exact h.commitEventObligations hcommit
    | recordDecision decision => exact h.recordDecision hperform
    | commitStateApplication schemeId nextState receipt freshness =>
      exact h.commitStateApplication hperform
    | commitReviewDischarge obligationId receipt freshness =>
      exact h.commitReviewDischarge hperform

/-- The journal takes the event of a new application. -/
theorem takes_application (h : Consistent s) {receipt : ApplicationReceipt}
    {nextState : Option DistinctionState}
    (hfresh : s.applications.get? receipt.application.id = none) :
    s.takes (.applicationCommitted receipt nextState) = true := by
  unfold takes
  cases hget : s.history.get? (GovernanceEvent.applicationCommitted receipt nextState).id with
  | none => rfl
  | some event =>
    have hid := h.keyed _ _ hget
    cases event with
    | applicationCommitted a state =>
      have hsame : a.application.id = receipt.application.id := (Prod.mk.inj hid).2
      have happlied : AppliedBy s.events a :=
        ⟨state, (mem_events_iff h.keyed).mpr (by rw [hid]; exact hget)⟩
      rw [(h.applications _ a).mpr ⟨hsame, happlied⟩] at hfresh
      exact absurd hfresh (by simp)
    | _ => exact absurd hid (by simp [GovernanceEvent.id])

end Steps

end GovernanceStore
end Governance
end PortableRuntime
