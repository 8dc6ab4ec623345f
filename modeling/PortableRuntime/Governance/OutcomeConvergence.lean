import PortableRuntime.Library.Run
import PortableRuntime.Governance.Consistency
import PortableRuntime.Governance.OutcomeReplay
import PortableRuntime.Governance.OutcomeReview

/-!
# Convergence of the observation of a confirmed outcome

The judgment of a dependency is recorded once, under the identity of what is judged, and every later
call reads it back.  So whoever marks the event opens the reviews that the records require, and
nobody opens them again.
-/

namespace PortableRuntime
namespace Governance

open Recovery

/-! ## What a record says -/

/-- An event that records a judgment about the trigger, or what to do about one. -/
def RecordsImpactOf (eventRef : String) (event : Event) : Prop :=
  (event.type = outcomeImpactJudgmentEvent ∨ event.type = outcomeDispositionEvent) ∧
    event.payload.get "trigger_event_ref" = .str eventRef

def recordedImpact (event : Event) : Option String := (event.payload.get "impact").asStr?

def recordedAction (event : Event) : Option ImpactType :=
  (event.payload.get "action").asStr?.bind (fun s => ImpactType.all.find? (fun a => a.text == s))

def recordedPolicyRef (event : Event) : Option String :=
  (event.payload.get "disposition_policy_ref").asStr?

/-- The two events of one record. -/
structure RecordPair (eventRef : String) (applicability : OutcomeGovernanceApplicability)
    (impact : String) (action : ImpactType) (policyRef : String) (je de : Event) : Prop where
  judgment : je.type = outcomeImpactJudgmentEvent
  disposition : de.type = outcomeDispositionEvent
  judgmentTrigger : je.payload.get "trigger_event_ref" = .str eventRef
  dispositionTrigger : de.payload.get "trigger_event_ref" = .str eventRef
  scheme : je.payload.get "scheme_id" = .str applicability.schemeId
  context : je.payload.get "context" = .str applicability.context
  impact : recordedImpact je = some impact
  cause : de.payload.get "judgment_event_ref" = .str je.id
  action : recordedAction de = some action
  policyRef : recordedPolicyRef de = some policyRef

section Records

variable {digest : Json → String} {now : Time}

theorem find_actionText (action : ImpactType) :
    ImpactType.all.find? (fun a => a.text == action.text) = some action := by
  cases action <;> decide

theorem readImpact_pair {key eventRef : String} {applicability : OutcomeGovernanceApplicability}
    {je de : Event} {p : PreparedOutcomeImpactCommit}
    (h : readImpact key eventRef applicability je de = .ok p) :
    RecordPair eventRef applicability p.judgment.impact p.disposition.action p.disposition.policyRef
        je de ∧ p.judgmentEvent = je ∧ p.dispositionEvent = de := by
  rw [readImpact] at h
  obtain ⟨htypes, h⟩ := Result.check_eq_ok.mp h
  obtain ⟨hbinding, h⟩ := Result.check_eq_ok.mp h
  obtain ⟨impact, himpact, h⟩ := Result.bind_eq_ok.mp h
  obtain ⟨-, h⟩ := Result.check_eq_ok.mp h
  obtain ⟨impactPolicyRef, -, h⟩ := Result.bind_eq_ok.mp h
  obtain ⟨refs, -, h⟩ := Result.bind_eq_ok.mp h
  obtain ⟨hcause, h⟩ := Result.check_eq_ok.mp h
  obtain ⟨action, haction, h⟩ := Result.bind_eq_ok.mp h
  obtain ⟨policyRef, hpolicy, h⟩ := Result.bind_eq_ok.mp h
  obtain ⟨refs', -, h⟩ := Result.bind_eq_ok.mp h
  obtain rfl := Result.pure_eq_ok.mp h
  rw [guardValue_eq_ok, Bool.and_eq_true, beq_iff_eq, beq_iff_eq] at htypes
  rw [guardValue_eq_ok, List.all_eq_true] at hbinding
  have hfield (name v : String)
      (hmem : (name, Json.str v) ∈ impactCommon (impactBindingPayload eventRef applicability) key) :
      je.payload.get name = .str v ∧ de.payload.get name = .str v := by
    have h := hbinding _ hmem
    rw [Bool.and_eq_true] at h
    exact ⟨Json.pyEq_str.mp h.1, Json.pyEq_str.mp h.2⟩
  have htrigger := hfield "trigger_event_ref" eventRef
    (by simp [impactCommon, impactBindingPayload])
  have hscheme := hfield "scheme_id" applicability.schemeId
    (by simp [impactCommon, impactBindingPayload])
  have hcontext := hfield "context" applicability.context
    (by simp [impactCommon, impactBindingPayload])
  obtain ⟨s, himpact, hfind⟩ := memberOf_eq_ok.mp himpact
  obtain rfl : impact = s := eq_of_beq (List.find?_some (p := fun v => id v == s) hfind)
  obtain ⟨text, haction, hfound⟩ := memberOf_eq_ok.mp haction
  rw [guardValue_eq_ok] at hcause
  rw [orRaise_eq_ok, visibleText, Option.filter_eq_some_iff] at hpolicy
  refine ⟨⟨htypes.1, htypes.2, htrigger.1, htrigger.2, hscheme.1, hcontext.1, ?_,
    Json.pyEq_str.mp hcause, ?_, hpolicy.1⟩, rfl, rfl⟩
  · rw [recordedImpact, himpact]
    rfl
  · rw [recordedAction, haction]
    exact hfound

theorem firstRecords_pair (digest : Json → String) (now : Time)
    (request : OutcomeImpactCommitRequest) (outcome : BaseRecord)
    (judgment : OutcomeImpactJudgment) (d : RevalidationDisposition) (pd dd : Json) :
    RecordPair request.eventRef (request.applicability outcome) judgment.impact d.action d.policyRef
      (firstRecords digest now request outcome judgment d pd dd).1
      (firstRecords digest now request outcome judgment d pd dd).2 where
  judgment := rfl
  disposition := rfl
  judgmentTrigger := rfl
  dispositionTrigger := rfl
  scheme := rfl
  context := rfl
  impact := rfl
  cause := rfl
  action := find_actionText d.action
  policyRef := rfl

/-- The judgment of a request is recorded as this. -/
structure RecordedAs (digest : Json → String) (st : MemoryStore)
    (request : OutcomeImpactCommitRequest) (outcome : BaseRecord) (impact : String)
    (action : ImpactType) (policyRef : String) : Prop where
  judgment : ∃ e, st.getEvent (judgmentEventId (request.key digest outcome)) = some e ∧
    recordedImpact e = some impact
  disposition : ∃ e, st.getEvent (dispositionEventId (request.key digest outcome)) = some e ∧
    recordedAction e = some action ∧ recordedPolicyRef e = some policyRef

theorem RecordedAs.grows {st st' : MemoryStore} {request : OutcomeImpactCommitRequest}
    {outcome : BaseRecord} {impact policyRef : String} {action : ImpactType}
    (hgrows : Grows st.recoveryReader st'.recoveryReader)
    (h : RecordedAs digest st request outcome impact action policyRef) :
    RecordedAs digest st' request outcome impact action policyRef := by
  obtain ⟨⟨je, hje, himpact⟩, de, hde, h⟩ := h
  exact ⟨⟨je, hgrows.events _ _ hje, himpact⟩, de, hgrows.events _ _ hde, h⟩

/-- An event of the record of a request, under its own identity. -/
def OfRequest (digest : Json → String) (request : OutcomeImpactCommitRequest) (outcome : BaseRecord)
    (event : Event) : Prop :=
  (event.type = outcomeImpactJudgmentEvent ∧
      event.id = judgmentEventId (request.key digest outcome) ∧
      event.payload.get "scheme_id" = .str request.dependency.schemeId ∧
      event.payload.get "context" = .str request.dependency.context) ∨
    (event.type = outcomeDispositionEvent ∧
      event.id = dispositionEventId (request.key digest outcome) ∧
      event.payload.get "judgment_event_ref" = .str (judgmentEventId (request.key digest outcome)))

/-- What a commit leaves. -/
structure CommitsImpact (digest : Json → String) (st st' : MemoryStore)
    (request : OutcomeImpactCommitRequest) (trigger : OutcomeConfirmedTrigger)
    (r : CommittedOutcomeImpact) : Prop where
  grows : Grows st.recoveryReader st'.recoveryReader
  triggered : Triggered digest st request.eventRef trigger
  recorded : RecordedAs digest st' request trigger.outcome r.judgment.impact r.disposition.action
    r.disposition.policyRef
  named : (∀ id event, st.getEvent id = some event → RecordsImpactOf request.eventRef event →
    event.id = id) → r.judgmentEventRef = judgmentEventId (request.key digest trigger.outcome) ∧
      r.dispositionEventRef = dispositionEventId (request.key digest trigger.outcome)
  events : ∀ id event, st'.getEvent id = some event → st.getEvent id = some event ∨
    (event.id = id ∧ RecordsImpactOf request.eventRef event ∧
      OfRequest digest request trigger.outcome event)

theorem commitsImpact {st st' : MemoryStore} {request : OutcomeImpactCommitRequest}
    {impactPolicy : OutcomeImpactPolicy} {dispositionPolicy : OutcomeDispositionPolicy}
    {r : CommittedOutcomeImpact}
    (h : st.commitOutcomeImpactJudgment digest now request impactPolicy dispositionPolicy =
      .ok (r, st')) : ∃ trigger, CommitsImpact digest st st' request trigger r := by
  obtain ⟨trigger, htrigger, happlicable, hcommit⟩ := commitOutcomeImpactJudgment_eq_ok h
  refine ⟨trigger, ?_⟩
  rcases hcommit with ⟨p, ⟨je, de, hje, hde, hread⟩, rfl, rfl⟩ | ⟨judgment, d, hfirst, rfl, rfl⟩
  · obtain ⟨hpair, hj, hd⟩ := readImpact_pair hread
    refine ⟨⟨rfl, fun _ _ h => h⟩, htrigger, ⟨⟨je, hje, hpair.impact⟩, de, hde, hpair.action,
      hpair.policyRef⟩, fun hnamed => ⟨?_, ?_⟩, fun _ _ h => .inl h⟩
    · show p.judgmentEvent.id = _
      rw [hj]
      exact hnamed _ _ hje ⟨.inl hpair.judgment, hpair.judgmentTrigger⟩
    · show p.dispositionEvent.id = _
      rw [hd]
      exact hnamed _ _ hde ⟨.inr hpair.disposition, hpair.dispositionTrigger⟩
  · obtain ⟨hgrows, hje, hde⟩ := firstRecords_grow
      (firstRecords digest now request trigger.outcome judgment d impactPolicy.policyDigest
        dispositionPolicy.policyDigest).1
      (firstRecords digest now request trigger.outcome judgment d impactPolicy.policyDigest
        dispositionPolicy.policyDigest).2 hfirst.unjudged hfirst.undecided
      (judgmentEventId_ne _ _).symm
    have hpair := firstRecords_pair digest now request trigger.outcome judgment d
      impactPolicy.policyDigest dispositionPolicy.policyDigest
    refine ⟨hgrows, htrigger, ⟨⟨_, hje, hpair.impact⟩, _, hde, hpair.action, hpair.policyRef⟩,
      fun _ => ⟨rfl, rfl⟩, fun id event hget => ?_⟩
    rw [MemoryStore.getEvent_save] at hget
    split at hget
    · rename_i hid
      obtain rfl := Option.some.inj hget
      exact .inr ⟨hid.symm, ⟨.inr hpair.disposition, hpair.dispositionTrigger⟩,
        .inr ⟨hpair.disposition, rfl, hpair.cause⟩⟩
    rw [MemoryStore.getEvent_save] at hget
    split at hget
    · rename_i hid
      obtain rfl := Option.some.inj hget
      refine .inr ⟨hid.symm, ⟨.inl hpair.judgment, hpair.judgmentTrigger⟩,
        .inl ⟨hpair.judgment, rfl, ?_, ?_⟩⟩
      · rw [← (applicability_fields request trigger.outcome).2.1]
        exact hpair.scheme
      · rw [context_of_applicable happlicable, ← (applicability_fields request trigger.outcome).2.2]
        exact hpair.context
    · exact .inl hget

end Records

/-! ## The reviews that the records require -/

section Reviews

variable (digest : Json → String) (textDigest : String → String)

/-- The review that the record of a dependency requires, if it does. -/
def requiredReview (st : MemoryStore) (decisions : Dict String GovernanceDecision) (args : Observed)
    (trigger : OutcomeConfirmedTrigger) (dependency : OutcomeGovernanceDependency) :
    Option ReviewObligation := do
  let key := (args.request dependency).key digest trigger.outcome
  let judgment ← st.getEvent (judgmentEventId key)
  let disposition ← st.getEvent (dispositionEventId key)
  let impact ← recordedImpact judgment
  let action ← recordedAction disposition
  let policyRef ← recordedPolicyRef disposition
  if nonGovernanceImpacts.contains impact || !ImpactType.reviewActions.contains action then none
  else
    let basis := reviewBasis trigger dependency (judgmentEventId key) (dispositionEventId key)
      policyRef
    some (reviewObligation textDigest args.eventRef dependency.schemeId dependency.context action
      (basis.filter (· ≠ "")).eraseDups decisions)

variable {digest} {textDigest}

variable (textDigest) in
theorem requiredReview_of_recorded {st : MemoryStore} (decisions : Dict String GovernanceDecision)
    {args : Observed} {trigger : OutcomeConfirmedTrigger} {dependency : OutcomeGovernanceDependency}
    {impact policyRef : String} {action : ImpactType}
    (h : RecordedAs digest st (args.request dependency) trigger.outcome impact action policyRef) :
    requiredReview digest textDigest st decisions args trigger dependency =
      if nonGovernanceImpacts.contains impact || !ImpactType.reviewActions.contains action then none
      else some (reviewObligation textDigest args.eventRef dependency.schemeId dependency.context
        action ((reviewBasis trigger dependency
          (judgmentEventId ((args.request dependency).key digest trigger.outcome))
          (dispositionEventId ((args.request dependency).key digest trigger.outcome))
          policyRef).filter (· ≠ "")).eraseDups decisions) := by
  obtain ⟨⟨je, hje, himpact⟩, de, hde, haction, hpolicy⟩ := h
  simp only [requiredReview, hje, hde, himpact, haction, hpolicy, Option.bind_eq_bind,
    Option.bind_some]

/-- The call has returned that the event is processed. -/
def Progress.Done : Progress → Prop
  | .returned (.ok r) => r.status = .processed ∨ r.status = .alreadyProcessed
  | _ => False

instance : DecidablePred Progress.Done
  | .returned (.ok r) =>
    inferInstanceAs (Decidable (r.status = .processed ∨ r.status = .alreadyProcessed))
  | .returned (.error _) => .isFalse id
  | .called => .isFalse id
  | .unprocessed => .isFalse id
  | .judging _ => .isFalse id

variable (textDigest) in
/-- The loop goes on with the review that the record requires, or the call gives up. -/
theorem projectImpact_cases {st : MemoryStore} (persistence : GovernanceStore) {args : Observed}
    (locals : Judging) {dependency : OutcomeGovernanceDependency} {r : CommittedOutcomeImpact}
    (hrecorded : RecordedAs digest st (args.request dependency) locals.trigger.outcome
      r.judgment.impact r.disposition.action r.disposition.policyRef)
    (hjudgment : r.judgmentEventRef =
      judgmentEventId ((args.request dependency).key digest locals.trigger.outcome))
    (hdisposition : r.dispositionEventRef =
      dispositionEventId ((args.request dependency).key digest locals.trigger.outcome)) :
    (∃ result, projectImpact textDigest persistence args locals dependency r = .returned result ∧
      ¬ (Progress.returned result).Done) ∨
    ∃ locals', projectImpact textDigest persistence args locals dependency r = .judging locals' ∧
      locals'.trigger = locals.trigger ∧ locals'.remaining = locals.remaining ∧
      (locals'.unavailable = [] → locals.unavailable = [] ∧ locals'.ready = locals.ready ++
        (requiredReview digest textDigest st persistence.decisions args locals.trigger
          dependency).toList) := by
  rw [requiredReview_of_recorded textDigest persistence.decisions hrecorded]
  unfold projectImpact
  cases hnon : nonGovernanceImpacts.contains r.judgment.impact with
  | true =>
    simp only [if_true, Bool.true_or]
    split
    · exact .inl ⟨_, rfl, by simp [Progress.Done]⟩
    · exact .inr ⟨_, rfl, rfl, rfl, fun h => ⟨h, (List.append_nil _).symm⟩⟩
  | false =>
    simp only [Bool.false_eq_true, if_false, Bool.false_or, hjudgment, hdisposition]
    unfold projectReviewObligationFromDisposition
    dsimp only
    split
    · rename_i e hproject
      exact .inl ⟨_, rfl, by simp [Progress.Done]⟩
    · rename_i projection hproject
      split at hproject
      · cases hproject
      split at hproject
      · rename_i hreview
        obtain rfl := Except.ok.inj hproject
        simp only [hreview, if_true]
        exact .inr ⟨_, rfl, rfl, rfl, fun h => ⟨h, (List.append_nil _).symm⟩⟩
      · rename_i hreview
        split at hproject
        · obtain rfl := Except.ok.inj hproject
          refine .inr ⟨_, rfl, rfl, rfl, fun h => ?_⟩
          exact absurd h (by simp)
        · obtain rfl := Except.ok.inj hproject
          simp only [hreview]
          exact .inr ⟨_, rfl, rfl, rfl, fun h => ⟨h, rfl⟩⟩

end Reviews

/-! ## What a commit of openings leaves -/

namespace GovernanceStore

section Openings

variable {s : GovernanceStore} {obligations : List ReviewObligation}

theorem opened_tables (s : GovernanceStore) (obligations : List ReviewObligation) :
    (s.opened obligations).states = s.states ∧ (s.opened obligations).decisions = s.decisions := by
  induction obligations generalizing s with
  | nil => exact ⟨rfl, rfl⟩
  | cons o rest ih => exact ih _

theorem mem_events_opened (hids : (obligations.map (·.id)).Nodup)
    (htakes : ∀ o ∈ obligations, s.takes (.reviewOpened o) = true) (event : GovernanceEvent) :
    event ∈ (s.opened obligations).events ↔
      event ∈ s.events ∨ ∃ o ∈ obligations, event = .reviewOpened o := by
  induction obligations generalizing s with
  | nil => simp [opened]
  | cons o rest ih =>
    obtain ⟨hid, hrest⟩ := List.nodup_cons.mp hids
    have hrecord := mem_events_record (s := { s with obligations := s.obligations.set o.id o })
      (htakes o List.mem_cons_self) event
    have htakesRest : ∀ o' ∈ rest,
        ({ s with obligations := s.obligations.set o.id o }.record (.reviewOpened o)).takes
          (.reviewOpened o') = true := by
      intro o' ho'
      have hne : o'.id ≠ o.id := fun heq => hid (List.mem_map.mpr ⟨o', ho', heq⟩)
      rw [takes_record_of_ne (fun heq => hne (reviewOpened_id_eq.mp heq))]
      exact htakes o' (List.mem_cons_of_mem o ho')
    refine (ih hrest htakesRest).trans ?_
    rw [hrecord, List.mem_append, List.mem_singleton, or_assoc]
    simp only [List.mem_cons, exists_eq_or_imp]
    exact Iff.rfl

theorem history_opened {eventRef : String} :
    (s.opened obligations).history.get? ("processed", eventRef) =
      s.history.get? ("processed", eventRef) := by
  induction obligations generalizing s with
  | nil => rfl
  | cons o rest ih =>
    refine ih.trans (Dict.get?_set_of_ne _ ?_ _)
    simp [GovernanceEvent.id]

theorem processedIds_congr {s' : GovernanceStore} {eventRef : String}
    (h : s'.history.get? ("processed", eventRef) = s.history.get? ("processed", eventRef)) :
    s'.processedEventObligationIds eventRef = s.processedEventObligationIds eventRef := by
  unfold processedEventObligationIds
  rw [show (GovernanceEvent.eventProcessed eventRef []).id = ("processed", eventRef) from rfl, h]

theorem processedIds_marked (eventRef : String) (ids : List String) :
    (s.record (.eventProcessed eventRef ids)).processedEventObligationIds eventRef =
      .ok (some ids) := by
  have hget : (s.record (.eventProcessed eventRef ids)).history.get?
      (GovernanceEvent.eventProcessed eventRef []).id = some (.eventProcessed eventRef ids) :=
    Dict.get?_set_self _ _ _
  unfold processedEventObligationIds
  simp [hget, guardValue, pure, Except.pure, bind, Except.bind]

theorem processedIds_marked_of_ne {eventRef other : String} (h : eventRef ≠ other)
    (ids : List String) :
    ((s.opened obligations).record (.eventProcessed other ids)).processedEventObligationIds
        eventRef = s.processedEventObligationIds eventRef := by
  refine processedIds_congr ((Dict.get?_set_of_ne _ ?_ _).trans history_opened)
  simp [GovernanceEvent.id, h]

end Openings

end GovernanceStore

/-! ## The calls for one event -/

section Converging

variable {digest : Json → String} {textDigest : String → String} {args : Observed}
  {w w' : Observing}

/-- The obligations opened for the event, in the order in which they were opened. -/
def Observing.openedFor (w : Observing) (eventRef : String) : List ReviewObligation :=
  w.opened.filter (fun o => o.triggerRef = eventRef)

def Observing.mark (w : Observing) (eventRef : String) : Result (Option (List String)) :=
  w.governance.processedEventObligationIds eventRef

/-- The judgment of the dependency is recorded, somehow. -/
def Held (digest : Json → String) (st : MemoryStore) (args : Observed)
    (trigger : OutcomeConfirmedTrigger) (dependency : OutcomeGovernanceDependency) : Prop :=
  ∃ impact action policyRef,
    RecordedAs digest st (args.request dependency) trigger.outcome impact action policyRef

/-- The reviews that the records of all dependencies require. -/
def requiredReviews (digest : Json → String) (textDigest : String → String) (st : MemoryStore)
    (decisions : Dict String GovernanceDecision) (args : Observed)
    (trigger : OutcomeConfirmedTrigger) : List ReviewObligation :=
  args.dependencies.filterMap (requiredReview digest textDigest st decisions args trigger)

/-- Every dependency is recorded, and the reviews that the records require were opened, each
once. -/
structure OpenedAll (digest : Json → String) (textDigest : String → String) (args : Observed)
    (w : Observing) (trigger : OutcomeConfirmedTrigger) : Prop where
  triggered : Triggered digest w.store args.eventRef trigger
  held : ∀ dependency ∈ args.dependencies, Held digest w.store args trigger dependency
  opened : w.openedFor args.eventRef =
    requiredReviews digest textDigest w.store w.governance.decisions args trigger
  nodup : ((w.openedFor args.eventRef).map (·.id)).Nodup

/-- What the store, the journal and the openings say of the event. -/
structure Core (digest : Json → String) (textDigest : String → String) (args : Observed)
    (decisions : Dict String GovernanceDecision) (w : Observing) : Prop where
  decisions : w.governance.decisions = decisions
  recorded : ∀ id event, w.store.getEvent id = some event → RecordsImpactOf args.eventRef event →
    event.id = id ∧ ∃ trigger, Triggered digest w.store args.eventRef trigger ∧
      ∃ dependency ∈ args.dependencies,
        OfRequest digest (args.request dependency) trigger.outcome event
  openings : (w.mark args.eventRef = .ok none ∧ w.openedFor args.eventRef = []) ∨
    ∃ trigger, OpenedAll digest textDigest args w trigger ∧
      w.mark args.eventRef = .ok (some ((w.openedFor args.eventRef).map (·.id)))
  journal : ∀ o, o.triggerRef = args.eventRef →
    (.reviewOpened o ∈ w.governance.events ↔ o ∈ w.opened)

/-- What a call for the event has done so far. -/
def Advanced (digest : Json → String) (textDigest : String → String) (args : Observed)
    (w : Observing) : Progress → Prop
  | .judging locals => Triggered digest w.store args.eventRef locals.trigger ∧
      ∃ done, args.dependencies = done ++ locals.remaining ∧
        (∀ dependency ∈ done, Held digest w.store args locals.trigger dependency) ∧
        (locals.unavailable = [] → locals.ready = done.filterMap
          (requiredReview digest textDigest w.store w.governance.decisions args locals.trigger))
  | .returned result => (Progress.returned result).Done →
      ∃ ids, w.mark args.eventRef = .ok (some ids)
  | _ => True

/-- What every step keeps. -/
structure Later (args : Observed) (w w' : Observing) : Prop where
  grows : Grows w.store.recoveryReader w'.store.recoveryReader
  decisions : w'.governance.decisions = w.governance.decisions
  mark : ∀ ids, w.mark args.eventRef = .ok (some ids) → w'.mark args.eventRef = .ok (some ids)

theorem Later.refl (args : Observed) (w : Observing) : Later args w w :=
  ⟨⟨rfl, fun _ _ h => h⟩, rfl, fun _ h => h⟩

theorem Held.grows {st st' : MemoryStore} {trigger : OutcomeConfirmedTrigger}
    {dependency : OutcomeGovernanceDependency}
    (hgrows : Grows st.recoveryReader st'.recoveryReader)
    (h : Held digest st args trigger dependency) : Held digest st' args trigger dependency := by
  obtain ⟨impact, action, policyRef, h⟩ := h
  exact ⟨impact, action, policyRef, h.grows hgrows⟩

/-- A record requires the same review later. -/
theorem requiredReview_grows {st st' : MemoryStore} {decisions : Dict String GovernanceDecision}
    {trigger : OutcomeConfirmedTrigger} {dependency : OutcomeGovernanceDependency}
    (hgrows : Grows st.recoveryReader st'.recoveryReader)
    (h : Held digest st args trigger dependency) :
    requiredReview digest textDigest st' decisions args trigger dependency =
      requiredReview digest textDigest st decisions args trigger dependency := by
  obtain ⟨impact, action, policyRef, h⟩ := h
  rw [requiredReview_of_recorded textDigest decisions (h.grows hgrows),
    requiredReview_of_recorded textDigest decisions h]

theorem filterMap_requiredReview_grows {st st' : MemoryStore}
    {decisions : Dict String GovernanceDecision} {trigger : OutcomeConfirmedTrigger}
    {dependencies : List OutcomeGovernanceDependency}
    (hgrows : Grows st.recoveryReader st'.recoveryReader)
    (h : ∀ dependency ∈ dependencies, Held digest st args trigger dependency) :
    dependencies.filterMap (requiredReview digest textDigest st' decisions args trigger) =
      dependencies.filterMap (requiredReview digest textDigest st decisions args trigger) :=
  List.filterMap_congr (fun dependency hmem => requiredReview_grows hgrows (h dependency hmem))

theorem Advanced.later {progress : Progress} (hlater : Later args w w')
    (h : Advanced digest textDigest args w progress) :
    Advanced digest textDigest args w' progress := by
  cases progress with
  | called => trivial
  | unprocessed => trivial
  | judging locals =>
    obtain ⟨htrigger, done, hdone, hheld, hready⟩ := h
    refine ⟨htrigger.grows hlater.grows, done, hdone,
      fun dependency hmem => (hheld dependency hmem).grows hlater.grows, fun hnone => ?_⟩
    rw [hlater.decisions, filterMap_requiredReview_grows hlater.grows hheld]
    exact hready hnone
  | returned result =>
    intro hdone
    obtain ⟨ids, hmark⟩ := h hdone
    exact ⟨ids, hlater.mark ids hmark⟩

theorem OpenedAll.later {trigger : OutcomeConfirmedTrigger} (hlater : Later args w w')
    (hopened : w'.openedFor args.eventRef = w.openedFor args.eventRef)
    (h : OpenedAll digest textDigest args w trigger) :
    OpenedAll digest textDigest args w' trigger := by
  refine ⟨h.triggered.grows hlater.grows,
    fun dependency hmem => (h.held dependency hmem).grows hlater.grows, ?_, hopened ▸ h.nodup⟩
  rw [hopened, h.opened, hlater.decisions]
  exact (filterMap_requiredReview_grows hlater.grows h.held).symm

/-! ### A judgment -/

variable {now : Time} {decisions : Dict String GovernanceDecision} {called : Observed}
  {policies : PolicyResolvers}

/-- A commit adds the record of its own request. -/
theorem Core.commit {st' : MemoryStore} {request : OutcomeImpactCommitRequest}
    {trigger : OutcomeConfirmedTrigger} {r : CommittedOutcomeImpact}
    (hcore : Core digest textDigest args decisions w)
    (hcommit : CommitsImpact digest w.store st' request trigger r)
    (hrequest : request.eventRef = args.eventRef →
      ∃ dependency ∈ args.dependencies, request = args.request dependency) :
    Later args w { w with store := st' } ∧
      Core digest textDigest args decisions { w with store := st' } := by
  have hlater : Later args w { w with store := st' } := ⟨hcommit.grows, rfl, fun _ h => h⟩
  refine ⟨hlater, hcore.decisions, fun id event hget hrecords => ?_, ?_, hcore.journal⟩
  · rcases hcommit.events id event hget with hold | ⟨hid, hnew, hof⟩
    · obtain ⟨hid, trigger', htrigger', hof⟩ := hcore.recorded id event hold hrecords
      exact ⟨hid, trigger', htrigger'.grows hcommit.grows, hof⟩
    · have hsame : request.eventRef = args.eventRef :=
        Json.str.inj (hnew.2.symm.trans hrecords.2)
      obtain ⟨dependency, hmem, rfl⟩ := hrequest hsame
      exact ⟨hid, trigger, hcommit.triggered.grows hcommit.grows, dependency, hmem, hof⟩
  · rcases hcore.openings with hnone | ⟨trigger', hopened, hmark⟩
    · exact .inl hnone
    · exact .inr ⟨trigger', hopened.later hlater rfl, hmark⟩

variable (digest textDigest now policies called) in
/-- What `judgeDependency` does with the store. -/
theorem judgeDependency_cases (persistence : GovernanceStore) (locals : Judging)
    (dependency : OutcomeGovernanceDependency) (rest : List OutcomeGovernanceDependency)
    (st : MemoryStore) :
    (∃ result, judgeDependency digest textDigest now policies st persistence called locals dependency
        rest = (.returned result, st) ∧ ¬ (Progress.returned result).Done) ∨
    ∃ impactPolicy dispositionPolicy r st', st.commitOutcomeImpactJudgment digest now
        (called.request dependency) impactPolicy dispositionPolicy = .ok (r, st') ∧
      judgeDependency digest textDigest now policies st persistence called locals dependency rest =
        (projectImpact textDigest persistence called
          { locals with
            remaining := rest
            seenTargets := locals.seenTargets ++ [(dependency.schemeId, dependency.context)] }
          dependency r, st') := by
  unfold judgeDependency
  dsimp only
  split
  · exact .inl ⟨_, rfl, by simp [Progress.Done]⟩
  split
  · rename_i r st' hcommit
    obtain ⟨impactPolicy, -, hcommit⟩ := Result.bind_eq_ok.mp hcommit
    obtain ⟨dispositionPolicy, -, hcommit⟩ := Result.bind_eq_ok.mp hcommit
    exact .inr ⟨impactPolicy, dispositionPolicy, r, st', hcommit, rfl⟩
  · split
    · exact .inl ⟨_, rfl, by simp [Progress.Done]⟩
    · exact .inl ⟨_, rfl, by simp [Progress.Done]⟩

/-- One turn of the loop. -/
theorem Core.judge {locals : Judging} {dependency : OutcomeGovernanceDependency}
    {rest : List OutcomeGovernanceDependency} (hcore : Core digest textDigest args decisions w)
    (hremaining : locals.remaining = dependency :: rest)
    (h : called.eventRef = args.eventRef →
      called = args ∧ Advanced digest textDigest args w (.judging locals)) :
    let judged := judgeDependency digest textDigest now policies w.store w.governance called locals
      dependency rest
    Later args w { w with store := judged.2 } ∧
      Core digest textDigest args decisions { w with store := judged.2 } ∧
      (called.eventRef = args.eventRef →
        Advanced digest textDigest args { w with store := judged.2 } judged.1) := by
  dsimp only
  rcases judgeDependency_cases digest textDigest now called policies w.governance locals dependency
      rest w.store with
    ⟨result, hjudged, hdone⟩ | ⟨impactPolicy, dispositionPolicy, r, st', hcommit, hjudged⟩
  · rw [hjudged]
    exact ⟨.refl args w, hcore, fun _ h => absurd h hdone⟩
  · rw [hjudged]
    obtain ⟨trigger, hcommits⟩ := commitsImpact hcommit
    have hmember (hsame : called.eventRef = args.eventRef) : dependency ∈ args.dependencies := by
      obtain ⟨-, -, done, hdone, -⟩ := h hsame
      rw [hdone, hremaining]
      exact List.mem_append_right _ List.mem_cons_self
    obtain ⟨hlater, hcore'⟩ := hcore.commit hcommits (fun hsame => by
      obtain ⟨rfl, -⟩ := h hsame
      exact ⟨dependency, hmember rfl, rfl⟩)
    refine ⟨hlater, hcore', fun hsame => ?_⟩
    obtain ⟨rfl, hadvanced⟩ := h hsame
    obtain ⟨htrigger, done, hdone, hheld, hready⟩ := hadvanced
    obtain rfl : trigger = locals.trigger := htrigger.unique hcommits.triggered
    obtain ⟨hjudgment, hdisposition⟩ := hcommits.named
      (fun id event hget hrecords => (hcore.recorded id event hget hrecords).1)
    rcases projectImpact_cases textDigest w.governance
        { locals with
          remaining := rest
          seenTargets := locals.seenTargets ++ [(dependency.schemeId, dependency.context)] }
        hcommits.recorded hjudgment hdisposition with
      ⟨result, hproject, hnot⟩ | ⟨locals', hproject, htriggerSame, hrest, hnext⟩
    · rw [hproject]
      exact fun hd => absurd hd hnot
    · rw [hproject]
      refine ⟨?_, done ++ [dependency], ?_, ?_, ?_⟩
      · rw [htriggerSame]
        exact htrigger.grows hcommits.grows
      · rw [hrest, hdone, hremaining, List.append_assoc]
        rfl
      · rw [htriggerSame]
        intro d hd
        rcases List.mem_append.mp hd with hd | hd
        · exact (hheld d hd).grows hcommits.grows
        · obtain rfl := List.mem_singleton.mp hd
          exact ⟨_, _, _, hcommits.recorded⟩
      · intro hnone
        obtain ⟨hbefore, hready'⟩ := hnext hnone
        rw [hready', htriggerSame, List.filterMap_append,
          filterMap_requiredReview_grows hcommits.grows hheld]
        rw [show locals.ready = _ from hready hbefore]
        congr 1

/-! ### The mark -/

/-- The obligations of another event are no openings of this one. -/
theorem openedFor_append_of_ne {ready : List ReviewObligation} {eventRef other : String}
    (htriggers : ∀ o ∈ ready, o.triggerRef = other) (hne : other ≠ eventRef) :
    (w.opened ++ ready).filter (fun o => o.triggerRef = eventRef) = w.openedFor eventRef := by
  have hnone : ready.filter (fun o => o.triggerRef = eventRef) = [] := by
    rw [List.filter_eq_nil_iff]
    intro o ho
    rw [htriggers o ho, decide_eq_true_eq]
    exact hne
  rw [List.filter_append, hnone, List.append_nil]
  rfl

theorem openedFor_append_self {ready : List ReviewObligation} {eventRef : String}
    (htriggers : ∀ o ∈ ready, o.triggerRef = eventRef) :
    (w.opened ++ ready).filter (fun o => o.triggerRef = eventRef) = w.openedFor eventRef ++ ready := by
  have hall : ready.filter (fun o => o.triggerRef = eventRef) = ready :=
    List.filter_eq_self.mpr (fun o ho => decide_eq_true (htriggers o ho))
  rw [List.filter_append, hall]
  rfl

/-- What a commit of openings does to the journal and the mark. -/
structure Opens (w w' : Observing) (called : Observed) (ready : List ReviewObligation) : Prop where
  store : w'.store = w.store
  decisions : w'.governance.decisions = w.governance.decisions
  unmarked : w.mark called.eventRef = .ok none
  marked : w'.mark called.eventRef = .ok (some (ready.map (·.id)))
  others : ∀ eventRef, eventRef ≠ called.eventRef → w'.mark eventRef = w.mark eventRef
  triggers : ∀ o ∈ ready, o.triggerRef = called.eventRef
  nodup : (ready.map (·.id)).Nodup
  opened : w'.opened = w.opened ++ ready
  events : ∀ o, .reviewOpened o ∈ w'.governance.events ↔
    .reviewOpened o ∈ w.governance.events ∨ o ∈ ready

variable (w called) in
/-- The last step gives up, finds the mark, or opens the reviews and sets it. -/
theorem finish_cases (locals : Judging) :
    (∃ result, w.finish called locals = (.returned result, w) ∧
      ¬ (Progress.returned result).Done) ∨
    (∃ result ids, w.finish called locals = (.returned result, w) ∧
      w.mark called.eventRef = .ok (some ids)) ∨
    ∃ result w', w.finish called locals = (.returned result, w') ∧ locals.unavailable = [] ∧
      Opens w w' called locals.ready := by
  unfold Observing.finish
  split
  · exact .inl ⟨_, rfl, by simp [Progress.Done]⟩
  rename_i hnone
  split
  · exact .inl ⟨_, rfl, by simp [Progress.Done]⟩
  rename_i ids governance hcommit
  rcases GovernanceStore.commitEventObligations_eq_ok.mp ⟨ids, hcommit⟩ with
    ⟨-, -, ⟨marked, hmarked⟩, rfl⟩ | ⟨h, htakes, rfl⟩
  · have hopened : (if w.governance.processedEventObligationIds called.eventRef = .ok none then
        locals.ready else []) = [] := by
      rw [hmarked]
      exact if_neg (by simp)
    dsimp only
    rw [hopened, List.append_nil]
    exact .inr (.inl ⟨_, marked, rfl, hmarked⟩)
  · refine .inr (.inr ⟨_, _, rfl, not_not.mp hnone, ⟨rfl, ?_, h.unprocessed, ?_, ?_, h.triggers,
      h.apart, ?_, fun o => ?_⟩⟩)
    · exact (GovernanceStore.opened_tables _ _).2
    · exact GovernanceStore.processedIds_marked _ _
    · exact fun eventRef hne => GovernanceStore.processedIds_marked_of_ne hne _
    · show w.opened ++ _ = _
      rw [if_pos h.unprocessed]
    · rw [GovernanceStore.mem_events_record htakes, List.mem_append, List.mem_singleton,
        GovernanceStore.mem_events_opened h.apart h.taken]
      simp only [GovernanceEvent.reviewOpened.injEq, reduceCtorEq, or_false, exists_eq_right']

theorem Core.finish {locals : Judging} (hcore : Core digest textDigest args decisions w)
    (hremaining : locals.remaining = [])
    (h : called.eventRef = args.eventRef →
      called = args ∧ Advanced digest textDigest args w (.judging locals)) :
    Later args w (w.finish called locals).2 ∧
      Core digest textDigest args decisions (w.finish called locals).2 ∧
      (called.eventRef = args.eventRef →
        Advanced digest textDigest args (w.finish called locals).2 (w.finish called locals).1) := by
  rcases finish_cases w called locals with
    ⟨result, hfinish, hnot⟩ | ⟨result, ids, hfinish, hmark⟩ |
      ⟨result, w', hfinish, hunavailable, hopens⟩
  · rw [hfinish]
    exact ⟨.refl args w, hcore, fun _ hdone => absurd hdone hnot⟩
  · rw [hfinish]
    exact ⟨.refl args w, hcore, fun hsame _ => ⟨ids, hsame ▸ hmark⟩⟩
  · rw [hfinish]
    dsimp only
    have hlater : Later args w w' := by
      refine ⟨?_, hopens.decisions, fun ids hmark => ?_⟩
      · rw [hopens.store]
        exact ⟨rfl, fun _ _ h => h⟩
      · by_cases hsame : called.eventRef = args.eventRef
        · rw [← hsame, hopens.unmarked] at hmark
          simp at hmark
        · rw [hopens.others _ (Ne.symm hsame)]
          exact hmark
    refine ⟨hlater, ⟨hopens.decisions.trans hcore.decisions, ?_, ?_, fun o ho => ?_⟩,
      fun hsame _ => ⟨_, hsame ▸ hopens.marked⟩⟩
    · rw [hopens.store]
      exact hcore.recorded
    · by_cases hsame : called.eventRef = args.eventRef
      · obtain ⟨rfl, htrigger, done, hdone, hheld, hready⟩ := h hsame
        rw [hremaining, List.append_nil] at hdone
        subst hdone
        have hbefore : w.openedFor called.eventRef = [] := by
          rcases hcore.openings with ⟨-, hnone⟩ | ⟨-, -, hmark⟩
          · exact hnone
          · rw [hopens.unmarked] at hmark
            simp at hmark
        have hopened : w'.openedFor called.eventRef = locals.ready := by
          rw [Observing.openedFor, hopens.opened, openedFor_append_self hopens.triggers, hbefore,
            List.nil_append]
        refine .inr ⟨locals.trigger, ⟨?_, ?_, ?_, ?_⟩, ?_⟩
        · exact htrigger.grows hlater.grows
        · exact fun dependency hmem => (hheld dependency hmem).grows hlater.grows
        · rw [hopened, hopens.decisions, hopens.store]
          exact hready hunavailable
        · rw [hopened]
          exact hopens.nodup
        · rw [hopened]
          exact hopens.marked
      · have hopened : w'.openedFor args.eventRef = w.openedFor args.eventRef := by
          rw [Observing.openedFor, hopens.opened]
          exact openedFor_append_of_ne hopens.triggers hsame
        rw [hopened, hopens.others _ (Ne.symm hsame)]
        rcases hcore.openings with hnone | ⟨trigger, hall, hmark⟩
        · exact .inl hnone
        · exact .inr ⟨trigger, hall.later hlater hopened, hmark⟩
    · rw [hopens.events, hcore.journal o ho, hopens.opened, List.mem_append]

/-! ### Runs -/

variable (now called policies) in
/-- One call, up to its next durable step. -/
theorem Core.advance (progress : Progress) (hcore : Core digest textDigest args decisions w)
    (h : called.eventRef = args.eventRef →
      called = args ∧ Advanced digest textDigest args w progress) :
    Later args w (w.advance digest textDigest now policies called progress).2 ∧
      Core digest textDigest args decisions
        (w.advance digest textDigest now policies called progress).2 ∧
      (called.eventRef = args.eventRef → Advanced digest textDigest args
        (w.advance digest textDigest now policies called progress).2
        (w.advance digest textDigest now policies called progress).1) := by
  cases progress with
  | called =>
    simp only [Observing.advance]
    split
    · exact ⟨.refl args w, hcore, fun _ hdone => absurd hdone (by simp [Progress.Done])⟩
    · rename_i ids hmark
      exact ⟨.refl args w, hcore, fun hsame _ => ⟨ids, hsame ▸ hmark⟩⟩
    · exact ⟨.refl args w, hcore, fun _ => trivial⟩
  | unprocessed =>
    simp only [Observing.advance]
    split
    · exact ⟨.refl args w, hcore, fun _ hdone => absurd hdone (by simp [Progress.Done])⟩
    · rename_i trigger htrigger
      split
      · exact ⟨.refl args w, hcore, fun _ hdone => absurd hdone (by simp [Progress.Done])⟩
      · refine ⟨.refl args w, hcore, fun hsame => ?_⟩
        obtain ⟨rfl, -⟩ := h hsame
        exact ⟨triggered_of_resolve htrigger, [], rfl, by simp, fun _ => rfl⟩
  | judging locals =>
    simp only [Observing.advance]
    cases hremaining : locals.remaining with
    | nil => exact hcore.finish hremaining h
    | cons dependency rest => exact hcore.judge hremaining h
  | returned result => exact ⟨.refl args w, hcore, fun hsame => (h hsame).2⟩

/-- The calls for the event agree with what is durable. -/
structure Converging (digest : Json → String) (textDigest : String → String) (args : Observed)
    (decisions : Dict String GovernanceDecision) (w : Observing) : Prop where
  core : Core digest textDigest args decisions w
  attempts : ∀ attempt ∈ w.attempts, attempt.args.eventRef = args.eventRef →
    attempt.args = args ∧ Advanced digest textDigest args w attempt.progress

/-- The calls for the event are made with the same arguments. -/
def FixedArguments (args : Observed) : ObservationMove → Prop
  | .observe called => called.eventRef = args.eventRef → called = args
  | .advance _ _ _ => True

theorem later_attempts (args : Observed) (w : Observing) (attempts : List Attempt) :
    Later args w { w with attempts } :=
  ⟨⟨rfl, fun _ _ h => h⟩, rfl, fun _ h => h⟩

theorem Core.withAttempts (hcore : Core digest textDigest args decisions w)
    (attempts : List Attempt) : Core digest textDigest args decisions { w with attempts } := by
  refine ⟨hcore.decisions, hcore.recorded, ?_, hcore.journal⟩
  rcases hcore.openings with hnone | ⟨trigger, hall, hmark⟩
  · exact .inl hnone
  · exact .inr ⟨trigger, hall.later (later_attempts args w attempts) rfl, hmark⟩

theorem Later.trans {w'' : Observing} (h : Later args w w') (h' : Later args w' w'') :
    Later args w w'' :=
  ⟨⟨h'.grows.reads.trans h.grows.reads,
      fun _ _ hget => h'.grows.events _ _ (h.grows.events _ _ hget)⟩,
    h'.decisions.trans h.decisions, fun ids hmark => h'.mark ids (h.mark ids hmark)⟩

theorem Converging.step {m : ObservationMove} (hw : Converging digest textDigest args decisions w)
    (hfixed : FixedArguments args m) :
    Converging digest textDigest args decisions (w.step digest textDigest m) ∧
      Later args w (w.step digest textDigest m) := by
  cases m with
  | observe called =>
    refine ⟨⟨hw.core.withAttempts _, fun attempt hmem hsame => ?_⟩, later_attempts args w _⟩
    rcases List.mem_append.mp hmem with hold | hnew
    · obtain ⟨hargs, hadvanced⟩ := hw.attempts attempt hold hsame
      exact ⟨hargs, hadvanced.later (later_attempts args w _)⟩
    · obtain rfl := List.mem_singleton.mp hnew
      exact ⟨hfixed hsame, trivial⟩
  | advance now i policies =>
    cases hget : w.attempts[i]? with
    | none =>
      simp only [Observing.step, hget]
      exact ⟨hw, .refl args w⟩
    | some attempt =>
      obtain ⟨hlater, hcore, hadvanced⟩ := hw.core.advance now attempt.args policies attempt.progress
        (hw.attempts attempt (List.mem_of_getElem? hget))
      simp only [Observing.step, hget]
      have hattempts := later_attempts args
        (w.advance digest textDigest now policies attempt.args attempt.progress).2
        (w.attempts.set i { attempt with
          progress :=
            (w.advance digest textDigest now policies attempt.args attempt.progress).1 })
      refine ⟨⟨hcore.withAttempts _, fun other hmem hsame => ?_⟩, hlater.trans hattempts⟩
      rcases List.mem_or_eq_of_mem_set hmem with hold | rfl
      · obtain ⟨hargs, hother⟩ := hw.attempts other hold hsame
        exact ⟨hargs, (hother.later hlater).later hattempts⟩
      · obtain ⟨hargs, -⟩ := hw.attempts attempt (List.mem_of_getElem? hget) hsame
        exact ⟨hargs, (hadvanced hsame).later hattempts⟩

variable (digest textDigest) in
theorem Converging.run {moves : List ObservationMove}
    (hw : Converging digest textDigest args decisions w)
    (hfixed : ∀ m ∈ moves, FixedArguments args m) :
    Converging digest textDigest args decisions
        (run (Observing.step digest textDigest) w moves) ∧
      Later args w (run (Observing.step digest textDigest) w moves) := by
  induction moves generalizing w with
  | nil => exact ⟨hw, .refl args w⟩
  | cons m rest ih =>
    obtain ⟨hstep, hlater⟩ := hw.step (hfixed m List.mem_cons_self)
    obtain ⟨hrest, hlater'⟩ := ih hstep (fun m' hm' => hfixed m' (List.mem_cons_of_mem m hm'))
    exact ⟨hrest, hlater.trans hlater'⟩

/-- Nothing durable says anything of the event, and nobody has called for it. -/
structure Unobserved (eventRef : String) (w : Observing) : Prop where
  attempts : ∀ attempt ∈ w.attempts, attempt.args.eventRef ≠ eventRef
  opened : ∀ o ∈ w.opened, o.triggerRef ≠ eventRef
  unrecorded : ∀ id event, w.store.getEvent id = some event → ¬ RecordsImpactOf eventRef event
  unmarked : w.mark eventRef = .ok none
  unjournaled : ∀ o, .reviewOpened o ∈ w.governance.events → o.triggerRef ≠ eventRef

theorem Unobserved.converging (h : Unobserved args.eventRef w) :
    Converging digest textDigest args w.governance.decisions w := by
  have hnone : w.openedFor args.eventRef = [] := by
    rw [Observing.openedFor, List.filter_eq_nil_iff]
    exact fun o ho => by simpa using h.opened o ho
  refine ⟨⟨rfl, fun id event hget hrecords => absurd hrecords (h.unrecorded id event hget),
    .inl ⟨h.unmarked, hnone⟩, fun o ho => ?_⟩,
    fun attempt hmem hsame => absurd hsame (h.attempts attempt hmem)⟩
  exact iff_of_false (fun hmem => h.unjournaled o hmem ho) (fun hmem => h.opened o hmem ho)

/-- A call for the event has returned that it is processed. -/
def Observing.Finished (w : Observing) (eventRef : String) : Prop :=
  ∃ attempt ∈ w.attempts, attempt.args.eventRef = eventRef ∧ attempt.progress.Done

theorem Converging.openedAll (h : Converging digest textDigest args decisions w)
    (hfinished : w.Finished args.eventRef) :
    ∃ trigger, OpenedAll digest textDigest args w trigger := by
  obtain ⟨attempt, hmem, hsame, hdone⟩ := hfinished
  obtain ⟨-, hadvanced⟩ := h.attempts attempt hmem hsame
  have hmark : ∃ ids, w.mark args.eventRef = .ok (some ids) := by
    cases hprogress : attempt.progress with
    | returned result =>
      rw [hprogress] at hadvanced hdone
      exact hadvanced hdone
    | called =>
      rw [hprogress] at hdone
      exact hdone.elim
    | unprocessed =>
      rw [hprogress] at hdone
      exact hdone.elim
    | judging locals =>
      rw [hprogress] at hdone
      exact hdone.elim
  obtain ⟨ids, hmark⟩ := hmark
  rcases h.core.openings with ⟨hnone, -⟩ | ⟨trigger, hall, -⟩
  · rw [hnone] at hmark
    simp at hmark
  · exact ⟨trigger, hall⟩

/-- The judgment and its disposition ask for a review. -/
structure AsksForReview (eventRef : String) (judgment disposition : Event) : Prop where
  judges : RecordsImpactOf eventRef judgment ∧ judgment.type = outcomeImpactJudgmentEvent
  disposes : RecordsImpactOf eventRef disposition ∧ disposition.type = outcomeDispositionEvent
  cause : disposition.payload.get "judgment_event_ref" = .str judgment.id
  impact : ∀ impact ∈ nonGovernanceImpacts, recordedImpact judgment ≠ some impact
  action : ∃ action ∈ ImpactType.reviewActions, recordedAction disposition = some action

theorem dispositionEventId_of_judgmentEventId {key key' : String}
    (h : judgmentEventId key = judgmentEventId key') :
    dispositionEventId key = dispositionEventId key' := by
  unfold judgmentEventId at h
  unfold dispositionEventId
  rw [String.append_right_inj] at h
  rw [h]

/-- Every record that asks for a review has one. -/
theorem OpenedAll.review {trigger : OutcomeConfirmedTrigger} {judgment disposition : Event}
    (h : OpenedAll digest textDigest args w trigger)
    (hcore : Core digest textDigest args decisions w)
    (hj : w.store.getEvent judgment.id = some judgment)
    (hd : w.store.getEvent disposition.id = some disposition)
    (hasks : AsksForReview args.eventRef judgment disposition) :
    ∃ o ∈ w.openedFor args.eventRef, judgment.payload.get "scheme_id" = .str o.target ∧
      judgment.payload.get "context" = .str o.context := by
  obtain ⟨-, trigger', htrigger', dependency, hmem, hof⟩ :=
    hcore.recorded _ _ hj hasks.judges.1
  obtain rfl := h.triggered.unique htrigger'
  obtain ⟨-, trigger', htrigger', dependency', hmem', hof'⟩ :=
    hcore.recorded _ _ hd hasks.disposes.1
  obtain rfl := h.triggered.unique htrigger'
  have htypes : outcomeImpactJudgmentEvent ≠ outcomeDispositionEvent := by decide
  rcases hof with ⟨-, hjid, hscheme, hcontext⟩ | ⟨htype, -⟩
  · rcases hof' with ⟨htype, -⟩ | ⟨-, hdid, hcause⟩
    · exact absurd (htype.symm.trans hasks.disposes.2) htypes
    · -- the disposition is the one beside the judgment
      have hsame : judgmentEventId ((args.request dependency').key digest trigger'.outcome) =
          judgmentEventId ((args.request dependency).key digest trigger'.outcome) := by
        rw [← hjid]
        exact Json.str.inj (hcause.symm.trans hasks.cause)
      rw [hjid] at hj
      rw [hdid, dispositionEventId_of_judgmentEventId hsame] at hd
      obtain ⟨impact, action, policyRef, hrecorded⟩ := h.held dependency hmem
      have hreview := requiredReview_of_recorded textDigest w.governance.decisions hrecorded
      obtain ⟨⟨je, hje, himpact⟩, de, hde, haction, -⟩ := hrecorded
      obtain rfl := Option.some.inj (hj.symm.trans hje)
      obtain rfl := Option.some.inj (hd.symm.trans hde)
      obtain ⟨action', hmember, haction'⟩ := hasks.action
      obtain rfl := Option.some.inj (haction.symm.trans haction')
      have hrequires : ¬ (nonGovernanceImpacts.contains impact ||
          !ImpactType.reviewActions.contains action) = true := by
        rw [Bool.or_eq_true, not_or, Bool.not_eq_true', List.contains_iff_mem,
          Bool.not_eq_false, List.contains_iff_mem]
        exact ⟨fun hnon => hasks.impact impact hnon himpact, hmember⟩
      rw [if_neg hrequires] at hreview
      obtain ⟨o, htarget, hocontext, hreview⟩ : ∃ o, o.target = dependency.schemeId ∧
          o.context = dependency.context ∧ requiredReview digest textDigest w.store
            w.governance.decisions args trigger' dependency = some o := ⟨_, rfl, rfl, hreview⟩
      refine ⟨o, ?_, htarget ▸ hscheme, hocontext ▸ hcontext⟩
      rw [h.opened]
      exact List.mem_filterMap.mpr ⟨dependency, hmem, hreview⟩
  · exact absurd (hasks.judges.2.symm.trans htype) htypes

/-- Calls with the same arguments for an event, stopped anywhere, beside calls for other events and
under whatever policies: once one has returned that the event is processed, its reviews are those
that the records require, each opened once; a call from the records alone opens the same; and every
record that asks for a review has one. -/
theorem outcome_impact_converges (digest : Json → String) (textDigest : String → String)
    (args : Observed) (w : Observing) (hw : Unobserved args.eventRef w)
    (moves : List ObservationMove) (hfixed : ∀ m ∈ moves, FixedArguments args m)
    (hfinished :
      (run (Observing.step digest textDigest) w moves).Finished args.eventRef) :
    let last := run (Observing.step digest textDigest) w moves
    (((last.openedFor args.eventRef).map (·.id)).Nodup ∧
      ∀ o, o.triggerRef = args.eventRef →
        (.reviewOpened o ∈ last.governance.events ↔ o ∈ last.openedFor args.eventRef)) ∧
    (∃ trigger, Triggered digest last.store args.eventRef trigger ∧
      last.openedFor args.eventRef =
        requiredReviews digest textDigest last.store last.governance.decisions args trigger) ∧
    (∀ ticks : List (Time × PolicyResolvers),
      let alone := run (Observing.step digest textDigest)
        { store := last.store, governance := w.governance }
        (.observe args :: ticks.map (fun tick => .advance tick.1 0 tick.2))
      alone.Finished args.eventRef → alone.openedFor args.eventRef = last.openedFor args.eventRef) ∧
    ∀ judgment disposition, last.store.getEvent judgment.id = some judgment →
      last.store.getEvent disposition.id = some disposition →
      AsksForReview args.eventRef judgment disposition →
        ∃ o ∈ last.openedFor args.eventRef, judgment.payload.get "scheme_id" = .str o.target ∧
          judgment.payload.get "context" = .str o.context := by
  obtain ⟨hlast, hlater⟩ := hw.converging.run digest textDigest hfixed
  obtain ⟨trigger, hall⟩ := hlast.openedAll hfinished
  refine ⟨⟨hall.nodup, fun o ho => ?_⟩, ⟨trigger, hall.triggered, hall.opened⟩,
    fun ticks halone => ?_, fun judgment disposition hj hd hasks => hall.review hlast.core hj hd hasks⟩
  · rw [hlast.core.journal o ho, Observing.openedFor, List.mem_filter, decide_eq_true_eq,
      and_iff_left ho]
  · -- the call alone starts from the records, before anything was opened
    have hstart : Converging digest textDigest args w.governance.decisions
        { store := (run (Observing.step digest textDigest) w moves).store,
          governance := w.governance } := by
      refine ⟨⟨rfl, fun id event hget hrecords => ?_, .inl ⟨hw.unmarked, rfl⟩, fun o ho => ?_⟩,
        fun attempt hmem => absurd hmem List.not_mem_nil⟩
      · exact hlast.core.recorded id event hget hrecords
      · exact iff_of_false (fun hmem => hw.unjournaled o hmem ho) List.not_mem_nil
    have hsolo : ∀ m ∈ (.observe args :: ticks.map (fun tick => .advance tick.1 0 tick.2) :
        List ObservationMove), FixedArguments args m := by
      intro m hm
      rcases List.mem_cons.mp hm with rfl | hm
      · exact fun _ => rfl
      · obtain ⟨tick, -, rfl⟩ := List.mem_map.mp hm
        trivial
    obtain ⟨hend, hlater'⟩ := hstart.run digest textDigest hsolo
    obtain ⟨trigger', hall'⟩ := hend.openedAll halone
    obtain rfl : trigger' = trigger := (hall.triggered.grows hlater'.grows).unique hall'.triggered
    have hdecisions : w.governance.decisions =
        (run (Observing.step digest textDigest) w moves).governance.decisions :=
      hlast.core.decisions.symm
    rw [hall'.opened, hall.opened, hlater'.decisions]
    show requiredReviews _ _ _ w.governance.decisions _ _ = _
    rw [hdecisions]
    exact filterMap_requiredReview_grows hlater'.grows hall.held

end Converging

/-! ### A call that stops, and one that goes on -/

section Resumed

open MemoryStore

theorem ascending_app : ["app"].Pairwise (· < ·) := by decide

def appObserved : Observed :=
  { eventRef := "event_outcome_confirmed_00", dependencies := [appDependency], context := "deploy",
    requestedScope := { items := ["app"], ascending := ascending_app },
    subjectVersionRefs := ["app@1"] }

def resolvers (rationale : List String) : PolicyResolvers :=
  { impactPolicyFor := fun _ => .ok challenging,
    dispositionPolicyFor := fun _ => .ok (reviewing rationale) }

def governed : Observing :=
  { store := confirmedStore
    governance := { states := .ofPairs [("scheme_1",
      { qualification := "qualified", activation := "active",
        scope := { items := ["app"], ascending := ascending_app },
        partition := [{ items := ["app"], ascending := ascending_app }] })] } }

/-- One call records its judgment and stops; another one, under a policy that would answer
otherwise, opens the review. -/
def resumed : List ObservationMove :=
  [.observe appObserved, .advance 1 0 (resolvers ["because"]), .advance 1 0 (resolvers ["because"]),
   .advance 1 0 (resolvers ["because"]), .observe appObserved, .advance 2 1 (resolvers ["later"]),
   .advance 2 1 (resolvers ["later"]), .advance 2 1 (resolvers ["later"]),
   .advance 2 1 (resolvers ["later"])]

theorem governed_unobserved : Unobserved appObserved.eventRef governed := by
  refine ⟨by simp [governed], by simp [governed], fun id event hget hrecords => ?_, rfl, ?_⟩
  · have htypes : event.type = "ObjectiveVerificationAccepted" ∨ event.type = "OutcomeConfirmed" := by
      replace hget : confirmedStore.getEvent id = some event := hget
      unfold confirmedStore at hget
      rw [getEvent_save, getEvent_save] at hget
      split at hget
      · obtain rfl := Option.some.inj hget
        exact .inr rfl
      split at hget
      · obtain rfl := Option.some.inj hget
        exact .inl rfl
      · cases hget
    rcases hrecords.1 with h | h <;> rcases htypes with h' | h' <;>
      exact absurd (h.symm.trans h') (by decide)
  · exact fun o hmem => absurd hmem List.not_mem_nil

theorem resumed_finished : (run (Observing.step (fun _ => "00") (fun _ => "00")) governed
    resumed).Finished appObserved.eventRef := by
  unfold Observing.Finished
  decide

theorem outcome_impact_converges_resumed :
    let last := run (Observing.step (fun _ => "00") (fun _ => "00")) governed resumed
    (∃ trigger, Triggered (fun _ => "00") last.store appObserved.eventRef trigger ∧
      last.openedFor appObserved.eventRef = requiredReviews (fun _ => "00") (fun _ => "00")
        last.store last.governance.decisions appObserved trigger) ∧
      (last.openedFor appObserved.eventRef).map (·.target) = ["scheme_1"] := by
  have hfixed : ∀ m ∈ resumed, FixedArguments appObserved m := by
    simp [resumed, FixedArguments]
  exact ⟨(outcome_impact_converges _ _ appObserved governed governed_unobserved resumed hfixed
    resumed_finished).2.1, by decide⟩

end Resumed

end Governance
end PortableRuntime
