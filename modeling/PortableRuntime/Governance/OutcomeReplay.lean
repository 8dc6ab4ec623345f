import PortableRuntime.Governance.OutcomeImpact
import PortableRuntime.Stores.VerifiedRuns

/-!
# Replay of recorded judgments

A judgment is recorded under the identity of what it judges.  A later commit with the same request
finds the record and reads it back, under checks of its own: what they do not take, or do not give
back as it was written, was recorded all the same.
-/

namespace PortableRuntime

theorem List.nodup_eraseDups {α : Type} [BEq α] [LawfulBEq α] (l : List α) : l.eraseDups.Nodup := by
  induction hlength : l.length using Nat.strong_induction_on generalizing l with
  | _ n ih =>
    cases l with
    | nil => exact List.nodup_nil
    | cons a as =>
      rw [List.eraseDups_cons, List.nodup_cons, List.mem_eraseDups]
      refine ⟨fun hmem => ?_, ih _ ?_ _ rfl⟩
      · simpa using (List.mem_filter.mp hmem).2
      · rw [← hlength]
        exact Nat.lt_succ_of_le (List.length_filter_le _ _)

namespace Governance

open Recovery

section Trigger

variable {digest : Json → String} {now : Time} {store store' : DispositionStoreReader}
  {eventRef : String} {trigger : OutcomeConfirmedTrigger}

/-- The authority graph that a trigger rests on. -/
structure Authoritative (digest : Json → String) (now : Time) (store : DispositionStoreReader)
    (eventRef : String) (trigger : OutcomeConfirmedTrigger)
    (prepared : PreparedVerifiedOutcomeCommit) : Prop where
  event : store.getEvent eventRef = some trigger.event
  type : trigger.event.type = "OutcomeConfirmed"
  outcome : (store.getRecord trigger.event.subjectRef).bind asConfirmedOutcome =
    some trigger.outcome
  replay : ∃ request, commitRequestFromOutcome trigger.outcome = some request ∧
    prepareVerifiedOutcomeCommit digest now store.toVerifiedOutcomeStoreReader request =
      .ok prepared
  accepted : store.getEvent prepared.accepted.id = some trigger.acceptedEvent
  sameIds : prepared.outcome.id = trigger.outcome.id ∧ prepared.confirmed.id = trigger.event.id
  sameOutcome : sameVerifiedOutcomeSemantics trigger.outcome.dump prepared.outcome.dump = true
  sameAccepted :
    sameVerifiedOutcomeSemantics trigger.acceptedEvent.dump prepared.accepted.dump = true
  sameConfirmed : sameVerifiedOutcomeSemantics trigger.event.dump prepared.confirmed.dump = true

theorem resolveOutcomeConfirmedTrigger_eq_ok :
    resolveOutcomeConfirmedTrigger digest now store eventRef = .ok trigger ↔
      ∃ prepared, Authoritative digest now store eventRef trigger prepared := by
  unfold resolveOutcomeConfirmedTrigger
  constructor
  · intro h
    cases hevent : store.getEvent eventRef with
    | none => simp [hevent] at h
    | some event =>
      by_cases htype : event.type = "OutcomeConfirmed"
      · cases houtcome : (store.getRecord event.subjectRef).bind asConfirmedOutcome with
        | none => simp [hevent, htype, houtcome] at h
        | some outcome =>
          cases hrequest : commitRequestFromOutcome outcome with
          | none => simp [hevent, htype, houtcome, hrequest] at h
          | some request =>
            cases hprepare : prepareVerifiedOutcomeCommit digest now
                store.toVerifiedOutcomeStoreReader request with
            | error e => simp [hevent, htype, houtcome, hrequest, hprepare] at h
            | ok prepared =>
              cases haccepted : store.getEvent prepared.accepted.id with
              | none => simp [hevent, htype, houtcome, hrequest, hprepare, haccepted] at h
              | some accepted =>
                simp only [hevent, htype, houtcome, hrequest, hprepare, haccepted, ne_eq,
                  not_true_eq_false, if_false] at h
                split at h
                · rename_i hsame
                  simp only [Bool.and_eq_true, decide_eq_true_eq] at hsame
                  obtain ⟨⟨⟨hids, ho⟩, ha⟩, hc⟩ := hsame
                  obtain rfl := Except.ok.inj h
                  exact ⟨prepared, hevent, htype, houtcome, ⟨request, hrequest, hprepare⟩,
                    haccepted, hids, ho, ha, hc⟩
                · cases h
      · simp [hevent, htype] at h
  · rintro ⟨prepared, h⟩
    obtain ⟨request, hrequest, hprepare⟩ := h.replay
    simp only [h.event, h.type, h.outcome, hrequest, hprepare, h.accepted, h.sameIds,
      h.sameOutcome, h.sameAccepted, h.sameConfirmed, ne_eq, not_true_eq_false, if_false,
      decide_true, Bool.and_self, if_true]

theorem sameEventSemantics_later (left right : Event) (later : Time) :
    sameVerifiedOutcomeSemantics left.dump { right with createdAt := later }.dump =
      sameVerifiedOutcomeSemantics left.dump right.dump := by
  have hpop : Fields.pop { right with createdAt := later }.dump "created_at" =
      Fields.pop right.dump "created_at" := Event.pop_createdAt right later
  rw [sameVerifiedOutcomeSemantics, sameVerifiedOutcomeSemantics, hpop]

/-- A trigger is resolved again at any later time. -/
theorem resolveOutcomeConfirmedTrigger_grows (hgrows : Grows store store') (later : Time)
    (h : resolveOutcomeConfirmedTrigger digest now store eventRef = .ok trigger) :
    resolveOutcomeConfirmedTrigger digest later store' eventRef = .ok trigger := by
  obtain ⟨prepared, h⟩ := resolveOutcomeConfirmedTrigger_eq_ok.mp h
  obtain ⟨request, hrequest, hprepare⟩ := h.replay
  refine resolveOutcomeConfirmedTrigger_eq_ok.mpr ⟨prepared.createdAt later,
    hgrows.events _ _ h.event, h.type, ?_, ⟨request, hrequest, ?_⟩, hgrows.events _ _ h.accepted,
    h.sameIds, ?_, ?_, ?_⟩
  · rw [hgrows.reads]
    exact h.outcome
  · rw [hgrows.reads]
    exact prepare_later later hprepare
  · rw [sameSemantics_later]
    exact h.sameOutcome
  · exact (sameEventSemantics_later _ _ _).trans h.sameAccepted
  · exact (sameEventSemantics_later _ _ _).trans h.sameConfirmed

/-- The event is the trigger that it is now, at any time. -/
def Triggered (digest : Json → String) (st : MemoryStore) (eventRef : String)
    (trigger : OutcomeConfirmedTrigger) : Prop :=
  ∀ now, resolveOutcomeConfirmedTrigger digest now st.recoveryReader eventRef = .ok trigger

theorem triggered_of_resolve {st : MemoryStore}
    (h : resolveOutcomeConfirmedTrigger digest now st.recoveryReader eventRef = .ok trigger) :
    Triggered digest st eventRef trigger :=
  fun later => resolveOutcomeConfirmedTrigger_grows ⟨rfl, fun _ _ h => h⟩ later h

theorem Triggered.grows {st st' : MemoryStore} (hgrows : Grows st.recoveryReader st'.recoveryReader)
    (h : Triggered digest st eventRef trigger) : Triggered digest st' eventRef trigger :=
  fun later => resolveOutcomeConfirmedTrigger_grows hgrows later (h later)

theorem Triggered.unique {st : MemoryStore} {trigger' : OutcomeConfirmedTrigger}
    (h : Triggered digest st eventRef trigger) (h' : Triggered digest st eventRef trigger') :
    trigger' = trigger :=
  Except.ok.inj ((h' 0).symm.trans (h 0))

end Trigger

/-! ## Reading a record back -/

section Records

variable {digest : Json → String} {now : Time}

theorem memberOf_validImpacts {s v message : String} :
    memberOf validImpacts id (.str s) message = .ok v ↔ s ∈ validImpacts ∧ v = s := by
  rw [memberOf_eq_ok]
  constructor
  · rintro ⟨s', hs, hfind⟩
    obtain rfl := Json.str.inj hs
    obtain rfl : v = s := eq_of_beq (List.find?_some (p := fun v => id v == s) hfind)
    exact ⟨List.mem_of_find?_eq_some hfind, rfl⟩
  · rintro ⟨hmem, rfl⟩
    refine ⟨v, rfl, ?_⟩
    cases hfound : validImpacts.find? (fun a => id a == v) with
    | none => exact absurd (beq_self_eq_true v) (List.find?_eq_none.mp hfound v hmem)
    | some a =>
      exact congrArg some (eq_of_beq (List.find?_some (p := fun a => id a == v) hfound))

theorem memberOf_actionText {action action' : ImpactType} {message : String} :
    memberOf ImpactType.all ImpactType.text (.str action.text) message = .ok action' ↔
      action' = action := by
  rw [memberOf_eq_ok]
  constructor
  · rintro ⟨s, hs, hfind⟩
    obtain rfl := Json.str.inj hs
    revert hfind
    cases action <;> cases action' <;> decide
  · rintro rfl
    exact ⟨_, rfl, by cases action' <;> decide⟩

theorem visibleText_str {s t : String} :
    visibleText (.str s) = some t ↔ Text.nonBlank s = true ∧ t = s := by
  show (some s).filter Text.nonBlank = some t ↔ _
  rw [Option.filter_eq_some_iff, Option.some.injEq]
  constructor
  · rintro ⟨rfl, hblank⟩
    exact ⟨hblank, rfl⟩
  · rintro ⟨hblank, rfl⟩
    exact ⟨rfl, hblank⟩

/-- References that read back as texts with a visible character each. -/
def Referable (refs : List String) : Prop :=
  refs ≠ [] ∧ (∀ ref ∈ refs, Text.nonBlank ref = true) ∧ (refs.map Text.strip).Nodup

theorem distinctTexts_ofStrings {refs read : List String} :
    distinctTexts (.ofStrings refs) = some read ↔ Referable refs ∧ read = refs.map Text.strip := by
  unfold distinctTexts Referable
  rw [stringItems?_ofStrings, Option.bind_some]
  dsimp only
  split
  · rename_i h
    rw [List.all_eq_true] at h
    rw [Option.some.injEq, and_iff_right h, eq_comm]
  · rename_i h
    rw [List.all_eq_true] at h
    exact iff_of_false (by simp) (fun h' => h h'.1)

theorem names_impactCommon (eventRef key : String) (applicability : OutcomeGovernanceApplicability) :
    (impactCommon (impactBindingPayload eventRef applicability) key).names =
      ["schema_version", "trigger_event_ref", "outcome_ref", "action_ref", "scheme_id", "context",
        "governed_scope", "subject_version_refs", "applicability_basis_refs", "semantic_level",
        "binding_digest"] := rfl

/-- A record reads back where its texts are those that the reader takes. -/
theorem readImpact_records {key eventRef outcomeRef : String}
    {applicability : OutcomeGovernanceApplicability} {judgment : OutcomeImpactJudgment}
    {d : RevalidationDisposition} {pd dd : Json} {p : PreparedOutcomeImpactCommit} :
    readImpact key eventRef applicability
        (impactJudgmentRecord now (impactCommon (impactBindingPayload eventRef applicability) key)
          key judgment pd)
        (impactDispositionRecord now (impactCommon (impactBindingPayload eventRef applicability) key)
          key outcomeRef d dd) = .ok p ↔
      judgment.impact ∈ validImpacts ∧ judgment.impact ≠ "unknown" ∧
        Text.nonBlank judgment.policyRef = true ∧ Referable judgment.rationaleRefs ∧
        Text.nonBlank d.policyRef = true ∧ Referable d.rationaleRefs ∧
        p = { keyDigest := key
              judgment :=
                { outcomeRef := applicability.outcomeRef
                  triggerEventRef := eventRef
                  actionRef := applicability.actionRef
                  schemeId := applicability.schemeId
                  context := applicability.context
                  impact := judgment.impact
                  policyRef := judgment.policyRef
                  rationaleRefs := judgment.rationaleRefs.map Text.strip
                  applicabilityBasisRefs := Text.sorted applicability.basisRefs }
              disposition := { d with rationaleRefs := d.rationaleRefs.map Text.strip }
              judgmentEvent := impactJudgmentRecord now
                (impactCommon (impactBindingPayload eventRef applicability) key) key judgment pd
              dispositionEvent := impactDispositionRecord now
                (impactCommon (impactBindingPayload eventRef applicability) key) key outcomeRef d dd
              replayed := true } := by
  set common := impactCommon (impactBindingPayload eventRef applicability) key with hcommon
  have hnames : common.names = _ := names_impactCommon eventRef key applicability
  have hbinding : common.all (fun f =>
      ((impactJudgmentRecord now common key judgment pd).payload.get f.1).pyEq f.2 &&
        ((impactDispositionRecord now common key outcomeRef d dd).payload.get f.1).pyEq f.2) =
      true := by
    have hnodup : common.names.Nodup := by
      rw [hnames]
      decide
    rw [List.all_eq_true]
    rintro ⟨name, v⟩ hf
    have hj : (common ++ (impactJudgmentRecord now [] key judgment pd).payload).get name = v :=
      Fields.get_append_of_mem hnodup hf
    have hd : (common ++ (impactDispositionRecord now [] key outcomeRef d dd).payload).get name = v :=
      Fields.get_append_of_mem hnodup hf
    rw [Bool.and_eq_true]
    exact ⟨(congrArg (fun j => Json.pyEq j v) hj).trans (Json.pyEq_refl v),
      (congrArg (fun j => Json.pyEq j v) hd).trans (Json.pyEq_refl v)⟩
  have hj (name : String) (h : name ∉ common.names) :
      (impactJudgmentRecord now common key judgment pd).payload.get name =
        (impactJudgmentRecord now [] key judgment pd).payload.get name :=
    Fields.get_append_of_not_mem h
  have hd (name : String) (h : name ∉ common.names) :
      (impactDispositionRecord now common key outcomeRef d dd).payload.get name =
        (impactDispositionRecord now [] key outcomeRef d dd).payload.get name :=
    Fields.get_append_of_not_mem h
  rw [hnames] at hj hd
  unfold readImpact
  simp only [← hcommon, hbinding]
  rw [hj "impact" (by decide), hj "impact_policy_ref" (by decide), hj "rationale_refs" (by decide),
    hd "judgment_event_ref" (by decide), hd "action" (by decide),
    hd "disposition_policy_ref" (by decide), hd "rationale_refs" (by decide)]
  constructor
  · intro h
    obtain ⟨-, h⟩ := Result.check_eq_ok.mp h
    obtain ⟨-, h⟩ := Result.check_eq_ok.mp h
    obtain ⟨impact, himpact, h⟩ := Result.bind_eq_ok.mp h
    obtain ⟨hunknown, h⟩ := Result.check_eq_ok.mp h
    obtain ⟨policyRef, hpolicy, h⟩ := Result.bind_eq_ok.mp h
    obtain ⟨refs, hrefs, h⟩ := Result.bind_eq_ok.mp h
    obtain ⟨-, h⟩ := Result.check_eq_ok.mp h
    obtain ⟨action, haction, h⟩ := Result.bind_eq_ok.mp h
    obtain ⟨policyRef', hpolicy', h⟩ := Result.bind_eq_ok.mp h
    obtain ⟨refs', hrefs', h⟩ := Result.bind_eq_ok.mp h
    obtain rfl := Result.pure_eq_ok.mp h
    obtain ⟨hvalid, rfl⟩ := memberOf_validImpacts.mp himpact
    obtain rfl := memberOf_actionText.mp haction
    rw [guardValue_eq_ok, decide_eq_true_eq] at hunknown
    obtain ⟨hblank, rfl⟩ := visibleText_str.mp (orRaise_eq_ok.mp hpolicy)
    obtain ⟨hreferable, rfl⟩ := distinctTexts_ofStrings.mp (orRaise_eq_ok.mp hrefs)
    obtain ⟨hblank', rfl⟩ := visibleText_str.mp (orRaise_eq_ok.mp hpolicy')
    obtain ⟨hreferable', rfl⟩ := distinctTexts_ofStrings.mp (orRaise_eq_ok.mp hrefs')
    exact ⟨hvalid, hunknown, hblank, hreferable, hblank', hreferable', rfl⟩
  · rintro ⟨hvalid, hunknown, hblank, hreferable, hblank', hreferable', rfl⟩
    refine Result.check_eq_ok.mpr ⟨rfl, Result.check_eq_ok.mpr ⟨rfl, ?_⟩⟩
    refine Result.bind_eq_ok.mpr ⟨_, memberOf_validImpacts.mpr ⟨hvalid, rfl⟩,
      Result.check_eq_ok.mpr ⟨guardValue_eq_ok.mpr (decide_eq_true hunknown), ?_⟩⟩
    refine Result.bind_eq_ok.mpr ⟨_, orRaise_eq_ok.mpr (visibleText_str.mpr ⟨hblank, rfl⟩),
      Result.bind_eq_ok.mpr ⟨_, orRaise_eq_ok.mpr (distinctTexts_ofStrings.mpr ⟨hreferable, rfl⟩),
        Result.check_eq_ok.mpr ⟨guardValue_eq_ok.mpr (Json.pyEq_str.mpr rfl), ?_⟩⟩⟩
    refine Result.bind_eq_ok.mpr ⟨_, memberOf_actionText.mpr rfl, ?_⟩
    exact Result.bind_eq_ok.mpr ⟨_, orRaise_eq_ok.mpr (visibleText_str.mpr ⟨hblank', rfl⟩),
      Result.bind_eq_ok.mpr ⟨_, orRaise_eq_ok.mpr (distinctTexts_ofStrings.mpr
        ⟨hreferable', rfl⟩), rfl⟩⟩

/-- The judgment that an applicable outcome gets from what the policy answers. -/
structure Judged (trigger : OutcomeConfirmedTrigger) (applicability : OutcomeGovernanceApplicability)
    (policy : OutcomeImpactPolicy) (judgment : OutcomeImpactJudgment) (impact : String)
    (refs : List String) : Prop where
  answer : policy.judge trigger.outcome applicability = .ok (some (impact, refs))
  visible : Text.nonBlank policy.policyRef = true
  known : impact ≠ "unknown"
  outcome : applicability.outcomeRef = trigger.outcome.id
  action : applicability.actionRef = BaseRecord.actionRef trigger.outcome
  rationale : ((refs.filter Text.nonBlank).map Text.strip).eraseDups ≠ []
  judgment : judgment =
    { outcomeRef := trigger.outcome.id
      triggerEventRef := trigger.event.id
      actionRef := BaseRecord.actionRef trigger.outcome
      schemeId := applicability.schemeId
      context := applicability.context
      impact
      policyRef := policy.policyRef
      rationaleRefs := ((refs.filter Text.nonBlank).map Text.strip).eraseDups
      applicabilityBasisRefs := applicability.basisRefs }

theorem evaluateOutcomeImpact_eq_ok {trigger : OutcomeConfirmedTrigger}
    {applicability : OutcomeGovernanceApplicability} {policy : OutcomeImpactPolicy}
    {judgment : OutcomeImpactJudgment}
    (h : evaluateOutcomeImpact trigger applicability policy = .ok (.ok judgment)) :
    ∃ impact refs, Judged trigger applicability policy judgment impact refs := by
  unfold evaluateOutcomeImpact at h
  dsimp only at h
  split at h
  · exact absurd (Result.pure_eq_ok.mp h) (by simp)
  split at h
  · exact absurd (Result.pure_eq_ok.mp h) (by simp)
  rename_i hmatch
  split at h
  · exact absurd (Result.pure_eq_ok.mp h) (by simp)
  rename_i hvisible
  obtain ⟨answer, hanswer, h⟩ := Result.bind_eq_ok.mp h
  replace h := Result.pure_eq_ok.mp h
  simp only [Bool.or_eq_true, decide_eq_true_eq, not_or, not_not] at hmatch
  rw [Bool.not_eq_true, Bool.not_eq_false'] at hvisible
  cases answer with
  | none => cases h
  | some answered =>
    obtain ⟨impact, refs⟩ := answered
    unfold judgmentOfAnswer at h
    dsimp only at h
    split at h
    · cases h
    rename_i hknown
    split at h
    · cases h
    rename_i hrefs
    obtain rfl := Except.ok.inj h
    exact ⟨impact, refs, hanswer, hvisible, hknown, hmatch.1, hmatch.2, hrefs, rfl⟩

/-- The references of a judgment read back as they are. -/
theorem Judged.referable {trigger : OutcomeConfirmedTrigger}
    {applicability : OutcomeGovernanceApplicability} {policy : OutcomeImpactPolicy}
    {judgment : OutcomeImpactJudgment} {impact : String} {refs : List String}
    (h : Judged trigger applicability policy judgment impact refs) :
    Referable judgment.rationaleRefs ∧
      judgment.rationaleRefs.map Text.strip = judgment.rationaleRefs := by
  obtain rfl := h.judgment
  have hmem (ref : String) (href : ref ∈ ((refs.filter Text.nonBlank).map Text.strip).eraseDups) :
      Text.nonBlank ref = true ∧ Text.strip ref = ref := by
    obtain ⟨raw, hraw, rfl⟩ := List.mem_map.mp (List.mem_eraseDups.mp href)
    exact ⟨(Text.nonBlank_strip raw).trans (List.mem_filter.mp hraw).2, Text.strip_strip raw⟩
  have hstrip : (((refs.filter Text.nonBlank).map Text.strip).eraseDups).map Text.strip =
      ((refs.filter Text.nonBlank).map Text.strip).eraseDups :=
    (List.map_congr_left (fun ref h => (hmem ref h).2)).trans (List.map_id' _)
  refine ⟨⟨h.rationale, fun ref href => (hmem ref href).1, ?_⟩, hstrip⟩
  rw [hstrip]
  exact List.nodup_eraseDups _

end Records

/-! ## Commits -/

section Commits

variable {digest : Json → String} {now : Time}

def OutcomeImpactCommitRequest.applicability (request : OutcomeImpactCommitRequest)
    (outcome : BaseRecord) : OutcomeGovernanceApplicability :=
  resolveOutcomeApplicability outcome request.dependency request.context request.requestedScope
    request.subjectVersionRefs

/-- What identifies the judgment of a request. -/
def OutcomeImpactCommitRequest.key (digest : Json → String) (request : OutcomeImpactCommitRequest)
    (outcome : BaseRecord) : String :=
  digest (.obj (impactBindingPayload request.eventRef (request.applicability outcome)))

/-- The record of the judgment of a request, as it reads back. -/
def HoldsImpact (digest : Json → String) (st : MemoryStore) (request : OutcomeImpactCommitRequest)
    (outcome : BaseRecord) (p : PreparedOutcomeImpactCommit) : Prop :=
  ∃ judgmentEvent dispositionEvent,
    st.getEvent (judgmentEventId (request.key digest outcome)) = some judgmentEvent ∧
    st.getEvent (dispositionEventId (request.key digest outcome)) = some dispositionEvent ∧
    readImpact (request.key digest outcome) request.eventRef (request.applicability outcome)
      judgmentEvent dispositionEvent = .ok p

/-- What a first commit is checked for. -/
structure FirstImpact (digest : Json → String) (st : MemoryStore)
    (request : OutcomeImpactCommitRequest) (trigger : OutcomeConfirmedTrigger)
    (impactPolicy : OutcomeImpactPolicy) (dispositionPolicy : OutcomeDispositionPolicy)
    (judgment : OutcomeImpactJudgment) (d : RevalidationDisposition) : Prop where
  unjudged : st.getEvent (judgmentEventId (request.key digest trigger.outcome)) = none
  undecided : st.getEvent (dispositionEventId (request.key digest trigger.outcome)) = none
  judged : evaluateOutcomeImpact trigger (request.applicability trigger.outcome) impactPolicy =
    .ok (.ok judgment)
  decided : dispositionPolicy.decide judgment = .ok (some d)
  visible : Text.nonBlank d.policyRef = true

/-- The two events of a first commit. -/
def firstRecords (digest : Json → String) (now : Time) (request : OutcomeImpactCommitRequest)
    (outcome : BaseRecord) (judgment : OutcomeImpactJudgment) (d : RevalidationDisposition)
    (pd dd : Json) : Event × Event :=
  let key := request.key digest outcome
  let common := impactCommon (impactBindingPayload request.eventRef (request.applicability outcome))
    key
  (impactJudgmentRecord now common key judgment pd,
    impactDispositionRecord now common key judgment.outcomeRef d dd)

theorem judgmentEventId_ne (key key' : String) : judgmentEventId key ≠ dispositionEventId key' := by
  intro h
  have happend (a b : String) : (a ++ b).toList = a.toList ++ b.toList := String.toList_append
  -- the two prefixes differ at their fifteenth character
  have hchars := congrArg (fun s => s.toList[14]?) h
  unfold judgmentEventId dispositionEventId at hchars
  simp only [happend] at hchars
  rw [List.getElem?_append_left (by decide), List.getElem?_append_left (by decide)] at hchars
  exact absurd hchars (by decide)

theorem replayed_of_readImpact {key eventRef : String}
    {applicability : OutcomeGovernanceApplicability} {je de : Event}
    {p : PreparedOutcomeImpactCommit}
    (h : readImpact key eventRef applicability je de = .ok p) : p.replayed = true := by
  rw [readImpact] at h
  obtain ⟨-, h⟩ := Result.check_eq_ok.mp h
  obtain ⟨-, h⟩ := Result.check_eq_ok.mp h
  obtain ⟨impact, -, h⟩ := Result.bind_eq_ok.mp h
  obtain ⟨-, h⟩ := Result.check_eq_ok.mp h
  obtain ⟨policyRef, -, h⟩ := Result.bind_eq_ok.mp h
  obtain ⟨refs, -, h⟩ := Result.bind_eq_ok.mp h
  obtain ⟨-, h⟩ := Result.check_eq_ok.mp h
  obtain ⟨action, -, h⟩ := Result.bind_eq_ok.mp h
  obtain ⟨policyRef', -, h⟩ := Result.bind_eq_ok.mp h
  obtain ⟨refs', -, h⟩ := Result.bind_eq_ok.mp h
  obtain rfl := Result.pure_eq_ok.mp h
  rfl

theorem replayExistingImpact_eq_ok {st : MemoryStore} {request : OutcomeImpactCommitRequest}
    {outcome : BaseRecord} {found : Option PreparedOutcomeImpactCommit} :
    replayExistingImpact st.recoveryReader (request.key digest outcome) request.eventRef
        (request.applicability outcome) = .ok found ↔
      (found = none ∧ st.getEvent (judgmentEventId (request.key digest outcome)) = none ∧
        st.getEvent (dispositionEventId (request.key digest outcome)) = none) ∨
      ∃ p, found = some p ∧ HoldsImpact digest st request outcome p := by
  unfold replayExistingImpact HoldsImpact
  rw [show st.recoveryReader.getEvent = st.getEvent from rfl]
  cases st.getEvent (judgmentEventId (request.key digest outcome)) with
  | none =>
    cases st.getEvent (dispositionEventId (request.key digest outcome)) with
    | none =>
      rw [Result.pure_eq_ok, eq_comm]
      simp
    | some de => simp [raiseValue]
  | some je =>
    cases st.getEvent (dispositionEventId (request.key digest outcome)) with
    | none => simp [raiseValue]
    | some de =>
      refine Iff.trans Result.map_eq_ok ?_
      constructor
      · rintro ⟨p, h, rfl⟩
        exact .inr ⟨p, rfl, je, de, rfl, rfl, h⟩
      · rintro (⟨-, hje, -⟩ | ⟨p, rfl, je', de', hje, hde, h⟩)
        · cases hje
        · obtain rfl := Option.some.inj hje
          obtain rfl := Option.some.inj hde
          exact ⟨p, h, rfl⟩

/-- A recorded judgment is replayed, whatever the policies are. -/
theorem commitOutcomeImpactJudgment_held {st : MemoryStore} {request : OutcomeImpactCommitRequest}
    {trigger : OutcomeConfirmedTrigger} {p : PreparedOutcomeImpactCommit}
    (htrigger : Triggered digest st request.eventRef trigger)
    (happlicable : (request.applicability trigger.outcome).status = .applicable)
    (hholds : HoldsImpact digest st request trigger.outcome p) (impactPolicy : OutcomeImpactPolicy)
    (dispositionPolicy : OutcomeDispositionPolicy) :
    st.commitOutcomeImpactJudgment digest now request impactPolicy dispositionPolicy =
      .ok (p.committed, st) := by
  have hreplay := replayExistingImpact_eq_ok.mpr (.inr ⟨p, rfl, hholds⟩)
  have hprepare : prepareOutcomeImpactCommit digest now st.recoveryReader request impactPolicy
      dispositionPolicy = .ok p := by
    unfold prepareOutcomeImpactCommit
    rw [htrigger now]
    refine Result.check_eq_ok.mpr
      ⟨guardValue_eq_ok.mpr (decide_eq_true happlicable), Result.bind_eq_ok.mpr ?_⟩
    exact ⟨some p, hreplay, rfl⟩
  obtain ⟨je, de, hje, hde, hread⟩ := hholds
  refine Result.bind_eq_ok.mpr ⟨p, hprepare, ?_⟩
  rw [if_pos (replayed_of_readImpact hread)]
  rfl

/-- A commit reads a record back, or writes one. -/
theorem commitOutcomeImpactJudgment_eq_ok {st st' : MemoryStore}
    {request : OutcomeImpactCommitRequest} {impactPolicy : OutcomeImpactPolicy}
    {dispositionPolicy : OutcomeDispositionPolicy} {r : CommittedOutcomeImpact}
    (h : st.commitOutcomeImpactJudgment digest now request impactPolicy dispositionPolicy =
      .ok (r, st')) :
    ∃ trigger, Triggered digest st request.eventRef trigger ∧
      (request.applicability trigger.outcome).status = .applicable ∧
      ((∃ p, HoldsImpact digest st request trigger.outcome p ∧ r = p.committed ∧ st' = st) ∨
        ∃ judgment d, FirstImpact digest st request trigger impactPolicy dispositionPolicy
            judgment d ∧
          r = { keyDigest := request.key digest trigger.outcome
                judgment
                disposition := d
                judgmentEventRef := judgmentEventId (request.key digest trigger.outcome)
                dispositionEventRef := dispositionEventId (request.key digest trigger.outcome)
                replayed := false } ∧
          let records := firstRecords digest now request trigger.outcome judgment d
            impactPolicy.policyDigest dispositionPolicy.policyDigest
          st' = (st.save .event records.1).save .event records.2) := by
  obtain ⟨p, hprepare, h⟩ := Result.bind_eq_ok.mp h
  obtain ⟨trigger, htrigger, hprepare⟩ := Result.bind_eq_ok.mp hprepare
  obtain ⟨happlicable, hprepare⟩ := Result.check_eq_ok.mp hprepare
  obtain ⟨replay, hreplay, hprepare⟩ := Result.bind_eq_ok.mp hprepare
  rw [orRaise_eq_ok] at htrigger
  rw [guardValue_eq_ok, decide_eq_true_eq] at happlicable
  replace htrigger : Triggered digest st request.eventRef trigger := by
    cases hresolve : resolveOutcomeConfirmedTrigger digest now st.recoveryReader request.eventRef with
    | error reason =>
      rw [hresolve] at htrigger
      cases htrigger
    | ok resolved =>
      rw [hresolve] at htrigger
      obtain rfl := Option.some.inj htrigger
      exact triggered_of_resolve hresolve
  refine ⟨trigger, htrigger, happlicable, ?_⟩
  replace hreplay : replayExistingImpact st.recoveryReader (request.key digest trigger.outcome)
    request.eventRef (request.applicability trigger.outcome) = .ok replay := hreplay
  rcases replayExistingImpact_eq_ok.mp hreplay with ⟨rfl, hjudgment, hdisposition⟩ |
    ⟨replayed, rfl, hholds⟩
  · right
    obtain ⟨evaluated, hevaluated, hprepare⟩ := Result.bind_eq_ok.mp hprepare
    cases evaluated with
    | error reason => exact absurd hprepare (by simp [raiseValue])
    | ok judgment =>
      obtain ⟨-, hprepare⟩ := Result.check_eq_ok.mp hprepare
      obtain ⟨answer, hanswer, hprepare⟩ := Result.bind_eq_ok.mp hprepare
      obtain ⟨d, hd, hprepare⟩ := Result.bind_eq_ok.mp hprepare
      obtain ⟨hpolicy, hprepare⟩ := Result.check_eq_ok.mp hprepare
      obtain ⟨-, hprepare⟩ := Result.check_eq_ok.mp hprepare
      obtain rfl := Result.pure_eq_ok.mp hprepare
      obtain rfl := orRaise_eq_ok.mp hd
      rw [guardValue_eq_ok, Bool.and_eq_true] at hpolicy
      obtain ⟨appended, happend, h⟩ := Result.bind_eq_ok.mp h
      obtain ⟨rfl, rfl⟩ := Prod.mk.inj (Result.pure_eq_ok.mp h)
      refine ⟨judgment, d, ⟨hjudgment, hdisposition, hevaluated, hanswer, hpolicy.2⟩, rfl, ?_⟩
      obtain ⟨st₁, hfirst, happend⟩ := Result.bind_eq_ok.mp happend
      obtain ⟨st₂, hsecond, happend⟩ := Result.bind_eq_ok.mp happend
      obtain rfl := Except.ok.inj happend
      have hne : (firstRecords digest now request trigger.outcome judgment d
          impactPolicy.policyDigest dispositionPolicy.policyDigest).2.id ≠
          (firstRecords digest now request trigger.outcome judgment d
            impactPolicy.policyDigest dispositionPolicy.policyDigest).1.id :=
        (judgmentEventId_ne _ _).symm
      rcases MemoryStore.appendEventAs_eq_ok hfirst with ⟨existing, hexisting, -⟩ | ⟨-, rfl⟩
      · exact absurd (hjudgment.symm.trans hexisting) (by simp)
      rcases MemoryStore.appendEventAs_eq_ok hsecond with ⟨existing, hexisting, -⟩ | ⟨-, rfl⟩
      · replace hexisting := (if_neg hne).symm.trans
          ((MemoryStore.getEvent_save st _ _).symm.trans hexisting)
        exact absurd (hdisposition.symm.trans hexisting) (by simp)
      rfl
  · left
    obtain rfl := Result.pure_eq_ok.mp hprepare
    obtain ⟨je, de, hje, hde, hread⟩ := hholds
    rw [if_pos (replayed_of_readImpact hread)] at h
    obtain ⟨rfl, rfl⟩ := Prod.mk.inj (Result.pure_eq_ok.mp h)
    exact ⟨_, ⟨je, de, hje, hde, hread⟩, rfl, rfl⟩

theorem firstRecords_grow {st : MemoryStore} (je de : Event) (hj : st.getEvent je.id = none)
    (hd : st.getEvent de.id = none) (hne : de.id ≠ je.id) :
    Grows st.recoveryReader ((st.save .event je).save .event de).recoveryReader ∧
      ((st.save .event je).save .event de).getEvent je.id = some je ∧
      ((st.save .event je).save .event de).getEvent de.id = some de := by
  have hfirst := MemoryStore.grows_save hj
  have hnone : (st.save .event je).getEvent de.id = none := by
    rw [MemoryStore.getEvent_save, if_neg hne]
    exact hd
  have hsecond := MemoryStore.grows_save hnone
  refine ⟨⟨hsecond.reads.trans hfirst.reads, fun id event h =>
    hsecond.events _ _ (hfirst.events _ _ h)⟩, ?_, ?_⟩
  · rw [MemoryStore.getEvent_save, if_neg hne.symm, MemoryStore.getEvent_save, if_pos rfl]
  · rw [MemoryStore.getEvent_save, if_pos rfl]

/-- The outcome and its authority events are what they were, and no event is gone. -/
structure Unchanged (digest : Json → String) (eventRef : String) (st st' : MemoryStore) : Prop where
  trigger : ∀ now, resolveOutcomeConfirmedTrigger digest now st'.recoveryReader eventRef =
    resolveOutcomeConfirmedTrigger digest now st.recoveryReader eventRef
  events : ∀ id event, st.getEvent id = some event → st'.getEvent id = some event

/-- Every later commit with the request gives what was recorded, whatever its policies would
answer, and writes nothing. -/
def ReplaysAlways (digest : Json → String) (st : MemoryStore) (request : OutcomeImpactCommitRequest)
    (r : CommittedOutcomeImpact) : Prop :=
  ∀ now st' impactPolicy dispositionPolicy, Unchanged digest request.eventRef st st' →
    st'.commitOutcomeImpactJudgment digest now request impactPolicy dispositionPolicy =
      .ok ({ r with replayed := true }, st')

/-- What the two policies answer about a trigger reads back as it is written. -/
structure Replayable (request : OutcomeImpactCommitRequest) (trigger : OutcomeConfirmedTrigger)
    (impactPolicy : OutcomeImpactPolicy) (dispositionPolicy : OutcomeDispositionPolicy) : Prop where
  named : trigger.event.id = request.eventRef
  basis : Text.sorted request.dependency.basisRefs = request.dependency.basisRefs
  impact : ∀ impact refs,
    impactPolicy.judge trigger.outcome (request.applicability trigger.outcome) =
      .ok (some (impact, refs)) → impact ∈ validImpacts
  rationale : ∀ judgment d,
    evaluateOutcomeImpact trigger (request.applicability trigger.outcome) impactPolicy =
      .ok (.ok judgment) →
    dispositionPolicy.decide judgment = .ok (some d) →
      Referable d.rationaleRefs ∧ d.rationaleRefs.map Text.strip = d.rationaleRefs

/-- The judgment of the request is recorded, or its policies answer what reads back. -/
def RecordedOrReplayable (digest : Json → String) (now : Time) (st : MemoryStore)
    (request : OutcomeImpactCommitRequest) (impactPolicy : OutcomeImpactPolicy)
    (dispositionPolicy : OutcomeDispositionPolicy) : Prop :=
  ∀ trigger, resolveOutcomeConfirmedTrigger digest now st.recoveryReader request.eventRef =
      .ok trigger →
    st.getEvent (judgmentEventId (request.key digest trigger.outcome)) = none →
      Replayable request trigger impactPolicy dispositionPolicy

theorem applicability_fields (request : OutcomeImpactCommitRequest) (outcome : BaseRecord) :
    (request.applicability outcome).basisRefs = request.dependency.basisRefs ∧
      (request.applicability outcome).schemeId = request.dependency.schemeId ∧
      (request.applicability outcome).context = request.context := by
  unfold OutcomeImpactCommitRequest.applicability resolveOutcomeApplicability
  dsimp only
  split
  · exact ⟨rfl, rfl, rfl⟩
  split
  · split
    · exact ⟨rfl, rfl, rfl⟩
    split <;> exact ⟨rfl, rfl, rfl⟩
  · exact ⟨rfl, rfl, rfl⟩

/-- A dependency applies in its own context. -/
theorem context_of_applicable {request : OutcomeImpactCommitRequest} {outcome : BaseRecord}
    (h : (request.applicability outcome).status = .applicable) :
    request.dependency.context = request.context := by
  unfold OutcomeImpactCommitRequest.applicability resolveOutcomeApplicability at h
  dsimp only at h
  split at h
  · cases h
  split at h
  · split at h
    · cases h
    split at h
    · cases h
    rename_i hmatch
    simp only [Bool.or_eq_true, decide_eq_true_eq, not_or, not_not] at hmatch
    exact hmatch.1.1.1.1.2
  · cases h

variable (now) in
/-- After a first commit its record reads back, and as what was committed, exactly where its policies
answered so. -/
theorem readImpact_first {st : MemoryStore} {request : OutcomeImpactCommitRequest}
    {trigger : OutcomeConfirmedTrigger} {impactPolicy : OutcomeImpactPolicy}
    {dispositionPolicy : OutcomeDispositionPolicy} {judgment : OutcomeImpactJudgment}
    {d : RevalidationDisposition}
    (h : FirstImpact digest st request trigger impactPolicy dispositionPolicy judgment d) :
    (∃ p, readImpact (request.key digest trigger.outcome) request.eventRef
          (request.applicability trigger.outcome)
          (firstRecords digest now request trigger.outcome judgment d impactPolicy.policyDigest
            dispositionPolicy.policyDigest).1
          (firstRecords digest now request trigger.outcome judgment d impactPolicy.policyDigest
            dispositionPolicy.policyDigest).2 = .ok p ∧
        p.judgment = judgment ∧ p.disposition = d) ↔
      Replayable request trigger impactPolicy dispositionPolicy := by
  obtain ⟨impact, refs, hjudged⟩ := evaluateOutcomeImpact_eq_ok h.judged
  obtain ⟨hreferable, hstrip⟩ := hjudged.referable
  have hjudgment := hjudged.judgment
  constructor
  · rintro ⟨p, hread, hsame, hdisposition⟩
    obtain ⟨hvalid, -, -, -, -, hrationale, rfl⟩ := readImpact_records.mp hread
    have hevent : request.eventRef = trigger.event.id := by
      have hfield := congrArg OutcomeImpactJudgment.triggerEventRef hsame
      rw [hjudgment] at hfield
      exact hfield
    have hbasis : Text.sorted (request.applicability trigger.outcome).basisRefs =
        (request.applicability trigger.outcome).basisRefs := by
      have hfield := congrArg OutcomeImpactJudgment.applicabilityBasisRefs hsame
      rw [hjudgment] at hfield
      exact hfield
    rw [(applicability_fields _ _).1] at hbasis
    refine ⟨hevent.symm, hbasis, fun impact' refs' hanswer => ?_, fun judgment' d' hevaluated hd' => ?_⟩
    · obtain ⟨rfl, rfl⟩ := Prod.mk.inj (Option.some.inj
        (Except.ok.inj (hjudged.answer.symm.trans hanswer)))
      rw [hjudgment] at hvalid
      exact hvalid
    · obtain rfl := Except.ok.inj (Except.ok.inj (h.judged.symm.trans hevaluated))
      obtain rfl := Option.some.inj (Except.ok.inj (h.decided.symm.trans hd'))
      exact ⟨hrationale, congrArg RevalidationDisposition.rationaleRefs hdisposition⟩
  · intro hr
    obtain ⟨hrationale, hsame⟩ := hr.rationale judgment d h.judged h.decided
    have hvalid := hr.impact impact refs hjudged.answer
    have himpact : judgment.impact = impact := by rw [hjudgment]
    have hvisible : Text.nonBlank judgment.policyRef = true := by
      rw [hjudgment]
      exact hjudged.visible
    refine ⟨_, readImpact_records.mpr ⟨himpact ▸ hvalid, himpact ▸ hjudged.known, hvisible,
      hreferable, h.visible, hrationale, rfl⟩, ?_, ?_⟩
    · dsimp only
      rw [hstrip, (applicability_fields _ _).1, hr.basis, hjudgment]
      simp only [hjudged.outcome, hjudged.action, hr.named, (applicability_fields _ _).1]
    · dsimp only
      rw [hsame]

/-- A commit is replayed by every later one with its request exactly where its judgment was recorded
before, or the policies answered what reads back as it is written. -/
theorem outcome_impact_replays_iff {st st' : MemoryStore} {request : OutcomeImpactCommitRequest}
    {impactPolicy : OutcomeImpactPolicy} {dispositionPolicy : OutcomeDispositionPolicy}
    {r : CommittedOutcomeImpact}
    (h : st.commitOutcomeImpactJudgment digest now request impactPolicy dispositionPolicy =
      .ok (r, st')) :
    ReplaysAlways digest st' request r ↔
      RecordedOrReplayable digest now st request impactPolicy dispositionPolicy := by
  obtain ⟨trigger, htrigger, happlicable, hcommit⟩ := commitOutcomeImpactJudgment_eq_ok h
  have hsame {trigger' : OutcomeConfirmedTrigger}
      (h : resolveOutcomeConfirmedTrigger digest now st.recoveryReader request.eventRef =
        .ok trigger') : trigger' = trigger := htrigger.unique (triggered_of_resolve h)
  -- a record that reads back as what was committed is replayed wherever it is still there
  have hkept {p : PreparedOutcomeImpactCommit}
      (htrigger : Triggered digest st' request.eventRef trigger)
      (hholds : HoldsImpact digest st' request trigger.outcome p)
      (hp : p.committed = { r with replayed := true }) : ReplaysAlways digest st' request r := by
    intro later st'' impactPolicy' dispositionPolicy' hunchanged
    obtain ⟨je, de, hje, hde, hread⟩ := hholds
    rw [← hp]
    exact commitOutcomeImpactJudgment_held
      (fun now => (hunchanged.trigger now).trans (htrigger now)) happlicable
      ⟨je, de, hunchanged.events _ _ hje, hunchanged.events _ _ hde, hread⟩ _ _
  rcases hcommit with ⟨p, hholds, rfl, rfl⟩ | ⟨judgment, d, hfirst, rfl, rfl⟩
  · have hreplayed : p.committed = { p.committed with replayed := true } := by
      obtain ⟨je, de, -, -, hread⟩ := hholds
      unfold PreparedOutcomeImpactCommit.committed
      rw [replayed_of_readImpact hread]
    refine iff_of_true (hkept htrigger hholds hreplayed) (fun trigger' h' hnone => ?_)
    obtain rfl := hsame h'
    obtain ⟨je, de, hje, -⟩ := hholds
    exact absurd (hnone.symm.trans hje) (by simp)
  · obtain ⟨hgrows, hje, hde⟩ := firstRecords_grow
      (firstRecords digest now request trigger.outcome judgment d impactPolicy.policyDigest
        dispositionPolicy.policyDigest).1
      (firstRecords digest now request trigger.outcome judgment d impactPolicy.policyDigest
        dispositionPolicy.policyDigest).2 hfirst.unjudged hfirst.undecided
      (judgmentEventId_ne _ _).symm
    have htrigger' := htrigger.grows hgrows
    constructor
    · intro hreplays trigger' h' _
      obtain rfl := hsame h'
      refine (readImpact_first now hfirst).mp ?_
      have hagain := hreplays now _ impactPolicy dispositionPolicy ⟨fun _ => rfl, fun _ _ h => h⟩
      obtain ⟨trigger'', htrigger'', -, ⟨p, ⟨je, de, hje', hde', hread⟩, hp, -⟩ |
        ⟨judgment', d', hfirst', hr, -⟩⟩ := commitOutcomeImpactJudgment_eq_ok hagain
      · obtain rfl := htrigger'.unique htrigger''
        obtain rfl := Option.some.inj (hje.symm.trans hje')
        obtain rfl := Option.some.inj (hde.symm.trans hde')
        exact ⟨p, hread, (congrArg CommittedOutcomeImpact.judgment hp).symm,
          (congrArg CommittedOutcomeImpact.disposition hp).symm⟩
      · exact absurd (congrArg CommittedOutcomeImpact.replayed hr) (by simp)
    · intro hr
      obtain ⟨p, hread, hjudgment, hdisposition⟩ := (readImpact_first now hfirst).mpr
        (hr trigger (htrigger now) hfirst.unjudged)
      refine hkept htrigger' ⟨_, _, hje, hde, hread⟩ ?_
      have hreplayed := replayed_of_readImpact hread
      obtain ⟨-, -, -, -, -, -, rfl⟩ := readImpact_records.mp hread
      dsimp only at hjudgment hdisposition
      unfold PreparedOutcomeImpactCommit.committed
      dsimp only
      rw [hjudgment, hdisposition]
      rfl

end Commits

/-! ### A rationale that does not read back -/

section Challenged

open MemoryStore

def scopedProof : BaseRecord :=
  { cls := .evidenceArtifact, id := "record_1", recordType := .evidenceArtifact, createdAt := 0,
    lifecycleStatus := .current, sourceRefs := ["action_1"],
    metadata := [("verification_result", .obj [("result", .str "pass")]),
      ("work_id", .str "work_1"), ("run_id", .str "run_1"),
      ("verification_scope", .obj [("resource", .str "app")]),
      ("subject_version_refs", .ofStrings ["app@1"]), ("action_ref", .str "action_1"),
      ("request_id", .str "request_1"), ("attempt_ref", .str "attempt_1"),
      ("verifier_provenance", .obj [("verifier_id", .str "verifier_1"), ("method", .str "probe")])],
    fields := [("kind", .str "closed-verification"), ("uri", .null), ("media_type", .null),
      ("checksum", .null)] }

def verified : MemoryStore :=
  (((((empty.save .work deployWork).save .run deployRun).save .step deployStep).save .attempt
    deployAttempt).save .action deployAction).save .record scopedProof

def verifiedOutcome : BaseRecord :=
  { cls := .outcomeRecord, id := "outcome_verified_00", recordType := .outcome, createdAt := 0,
    lifecycleStatus := .confirmed,
    metadata := [("objective_result", .str "pass"), ("work_id", .str "work_1"),
      ("run_id", .str "run_1"), ("request_id", .str "request_1"), ("attempt_ref", .str "attempt_1"),
      ("verification_scope", .obj [("resource", .str "app")]),
      ("subject_version_refs", .ofStrings ["app@1"]), ("obligation_refs", .arr []),
      ("verifier_provenance",
        .arr [.obj [("verifier_id", .str "verifier_1"), ("method", .str "probe")]]),
      ("verification_binding_digest", .str "00")],
    fields := [("action_ref", .str "action_1"), ("artifact_refs", .arr []),
      ("evidence_refs", .ofStrings ["record_1"])] }

def verificationPayload : Fields :=
  [("semantic_level", .str "objective-verification"), ("authoritative_outcome", .bool true),
    ("objective_result", .str "pass"), ("outcome_ref", .str "outcome_verified_00"),
    ("action_ref", .str "action_1"), ("verification_refs", .ofStrings ["record_1"]),
    ("verification_binding_digest", .str "00")]

def verificationAccepted : Event :=
  { id := "event_objective_verification_00", createdAt := 0,
    type := "ObjectiveVerificationAccepted", subjectRef := "outcome_verified_00",
    payload := verificationPayload }

def outcomeConfirmed : Event :=
  { id := "event_outcome_confirmed_00", createdAt := 0, type := "OutcomeConfirmed",
    subjectRef := "outcome_verified_00", payload := verificationPayload }

/-- A store with a verified outcome of the resource `app`. -/
def confirmedStore : MemoryStore :=
  ((verified.save .record verifiedOutcome).save .event verificationAccepted).save .event
    outcomeConfirmed

def appDependency : OutcomeGovernanceDependency :=
  { outcomeRef := "outcome_verified_00", actionRef := "action_1", schemeId := "scheme_1",
    context := "deploy", scope := { items := ["app"] }, subjectVersionRefs := ["app@1"],
    basisRefs := ["basis_1"] }

def appRequest : OutcomeImpactCommitRequest :=
  { eventRef := "event_outcome_confirmed_00", dependency := appDependency, context := "deploy",
    requestedScope := { items := ["app"] }, subjectVersionRefs := ["app@1"] }

def challenging : OutcomeImpactPolicy :=
  { policyRef := "impact_1",
    judge := fun _ _ => .ok (some ("qualification-challenged", ["because"])) }

def reviewing (rationale : List String) : OutcomeDispositionPolicy :=
  { policyRef := "disposition_1",
    decide := fun _ => .ok (some
      { action := .requireHumanReview, policyRef := "disposition_1", rationaleRefs := rationale }) }

theorem outcome_impact_replays_iff_challenged :
    ∃ r st', confirmedStore.commitOutcomeImpactJudgment (fun _ => "00") 0 appRequest challenging
        (reviewing ["because"]) = .ok (r, st') ∧
      ReplaysAlways (fun _ => "00") st' appRequest r := by
  have hok : (confirmedStore.commitOutcomeImpactJudgment (fun _ => "00") 0 appRequest challenging
      (reviewing ["because"])).isOk = true := by
    decide
  obtain ⟨⟨r, st'⟩, hcommit⟩ := Result.exists_of_isOk hok
  refine ⟨r, st', hcommit, (outcome_impact_replays_iff hcommit).mpr ?_⟩
  intro trigger htrigger _
  obtain ⟨prepared, hauthority⟩ := resolveOutcomeConfirmedTrigger_eq_ok.mp htrigger
  have hevent : outcomeConfirmed = trigger.event :=
    Option.some.inj ((show confirmedStore.getEvent "event_outcome_confirmed_00" =
      some outcomeConfirmed from rfl).symm.trans hauthority.event)
  have hid : trigger.event.id = appRequest.eventRef := by
    rw [← hevent]
    rfl
  refine ⟨hid, by decide, fun impact refs hanswer => ?_, fun judgment d _ hd => ?_⟩
  · obtain ⟨rfl, rfl⟩ := Prod.mk.inj (Option.some.inj (Except.ok.inj hanswer))
    decide
  · obtain rfl := Option.some.inj (Except.ok.inj hd)
    exact ⟨⟨by decide, by decide, by decide⟩, by decide⟩

/-- A reference that stands twice in a rationale is recorded, and its record does not read back. -/
theorem outcome_impact_rationale_repeated :
    ¬ ∀ (digest : Json → String) (now : Time) (st st' : MemoryStore)
        (request : OutcomeImpactCommitRequest) (impactPolicy : OutcomeImpactPolicy)
        (dispositionPolicy : OutcomeDispositionPolicy) (r : CommittedOutcomeImpact),
      st.commitOutcomeImpactJudgment digest now request impactPolicy dispositionPolicy =
        .ok (r, st') → ReplaysAlways digest st' request r := by
  intro h
  have hok : (confirmedStore.commitOutcomeImpactJudgment (fun _ => "00") 0 appRequest challenging
      (reviewing ["because", "because"])).isOk = true := by
    decide
  obtain ⟨⟨r, st'⟩, hcommit⟩ := Result.exists_of_isOk hok
  have hagain := h _ _ _ _ _ _ _ _ hcommit 0 st' challenging (reviewing ["because", "because"])
    ⟨fun _ => rfl, fun _ _ h => h⟩
  have hrefused : (confirmedStore.commitOutcomeImpactJudgment (fun _ => "00") 0 appRequest
      challenging (reviewing ["because", "because"])).toOption.all (fun p =>
        (p.2.commitOutcomeImpactJudgment (fun _ => "00") 0 appRequest challenging
          (reviewing ["because", "because"])).isOk) = false := by
    decide
  rw [hcommit] at hrefused
  exact absurd (hrefused.symm.trans (congrArg Except.isOk hagain)) (by simp [Except.isOk, Except.toBool])

end Challenged

end Governance
end PortableRuntime
