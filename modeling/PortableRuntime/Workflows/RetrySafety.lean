import PortableRuntime.Library.Run
import PortableRuntime.Stores.Calls
import PortableRuntime.Workflows.RecoverySources

/-!
# Retry safety of recovery

The store checks that a policy's answer is an allowed action, not that the action fits the basis.
The recorded dispositions are safe exactly as long as the policies answer safely, and then a
request to retry names a step that may be repeated.
-/

namespace PortableRuntime

theorem DispatchRecoveryMode.text_injective {a b : DispatchRecoveryMode} (h : a.text = b.text) :
    a = b := by
  cases a <;> cases b <;> first | rfl | exact absurd h (by decide)

theorem RecoveryDispositionAction.text_injective {a b : RecoveryDispositionAction}
    (h : a.text = b.text) : a = b := by
  cases a <;> cases b <;> first | rfl | exact absurd h (by decide)

namespace Recovery

/-! ## Normalised texts -/

theorem canonicalRefs_again {refs canonical : List String} {label label' : String}
    {required : Bool} (h : canonicalRefs refs label required = .ok canonical) :
    canonicalRefs canonical label' required = .ok canonical := by
  rw [canonicalRefs, Result.check_eq_ok, Result.check_eq_ok, Result.pure_eq_ok, guardValue_eq_ok,
    guardValue_eq_ok] at h ⊢
  obtain ⟨hblank, hrequired, rfl⟩ := h
  have hmember (ref : String) (href : ref ∈ Text.sortedUnique (refs.map Text.strip)) :
      Text.nonBlank ref = true ∧ Text.strip ref = ref := by
    obtain ⟨raw, hraw, rfl⟩ := List.mem_map.mp (Text.mem_sortedUnique.mp href)
    exact ⟨(Text.nonBlank_strip raw).trans (List.all_eq_true.mp hblank raw hraw),
      Text.strip_strip raw⟩
  have hsame : (Text.sortedUnique (refs.map Text.strip)).map Text.strip =
      Text.sortedUnique (refs.map Text.strip) :=
    (List.map_congr_left (fun ref href => (hmember ref href).2)).trans (List.map_id _)
  rw [hsame, Text.sortedUnique_idem]
  exact ⟨List.all_eq_true.mpr (fun ref href => (hmember ref href).1), hrequired, rfl⟩

/-! ## What a rebuilt basis says -/

variable {digest : Json → String} {now : Time} {store store' : DispositionStoreReader}

/-- A reference resolves to a confirmed Outcome of what a dispatch executed. -/
def Confirms (store : DispositionStoreReader) (graph : DispatchGraph) (ref : String) : Prop :=
  ∃ outcome, store.getRecord ref = some outcome ∧ outcome.cls = .outcomeRecord ∧
    outcome.id = ref ∧ outcome.lifecycleStatus = .confirmed ∧
    outcome.getattr "action_ref" = .str graph.action.id ∧
    outcome.metadata.get "attempt_ref" = .str graph.attempt.id ∧
    outcome.metadata.get "run_id" = .str graph.run.id ∧
    outcome.metadata.get "work_id" = .str graph.work.id

theorem confirms_of_validate {graph : DispatchGraph} {ref : String}
    (h : validateConfirmedOutcome digest now store graph ref = .ok ()) :
    Confirms store graph ref := by
  rw [validateConfirmedOutcome, Result.bind_eq_ok] at h
  obtain ⟨outcome, houtcome, h⟩ := h
  rw [Result.check_eq_ok, Result.check_eq_ok, Result.check_eq_ok, guardValue_eq_ok,
    guardValue_eq_ok, checkEach_eq_ok] at h
  obtain ⟨hconfirmed, haction, hmetadata, -⟩ := h
  rw [orRaise_eq_ok, Option.filter_eq_some_iff] at houtcome
  obtain ⟨hget, hexact⟩ := houtcome
  have hbound (key value : String) (hmem : (key, value) ∈ [("work_id", graph.work.id),
      ("run_id", graph.run.id), ("request_id", graph.action.requestRef),
      ("attempt_ref", graph.attempt.id)]) : outcome.metadata.get key = .str value := by
    have hcheck := hmetadata (key, value) hmem
    rw [guardValue_eq_ok] at hcheck
    exact Json.pyEq_str.mp hcheck
  simp only [Bool.and_eq_true, decide_eq_true_eq, beq_iff_eq] at hexact
  refine ⟨outcome, hget, hexact.1, hexact.2, of_decide_eq_true hconfirmed,
    Json.pyEq_str.mp haction, hbound _ _ ?_, hbound _ _ ?_, hbound _ _ ?_⟩
  all_goals simp

/-- Facts that a second normalisation leaves as they are, of a committed dispatch. -/
structure Canonical (facts : BasisFacts) : Prop where
  dispatch : requiredString "recovery disposition" (.str facts.dispatchCommitRef)
    "dispatch_commit_ref" = .ok facts.dispatchCommitRef
  policy : requiredString "recovery disposition" (.str facts.policyRef) "policy_ref" =
    .ok facts.policyRef
  observations : canonicalRefs facts.observationRefs "observation" true = .ok facts.observationRefs
  outcomes : canonicalRefs facts.outcomeRefs "outcome" false = .ok facts.outcomeRefs
  committed : facts.recoveryMode ∈ durableModes
  effect : requiredString "recovery disposition" (.str facts.effectSemantics)
    "effect semantics" = .ok facts.effectSemantics
  reversible : requiredString "recovery disposition" (.str facts.reversibility)
    "reversibility" = .ok facts.reversibility

/-- A basis that was rebuilt from a store. -/
structure Rebuilt (digest : Json → String) (store : DispositionStoreReader)
    (basis : DispositionBasis) : Prop where
  canonical : Canonical basis.toBasisFacts
  key : basis.basisKey = basisIdentity digest basis.toBasisFacts
  graph : ∃ graph, reconstructDispatchGraph digest store basis.dispatchCommitRef = .ok graph ∧
    basis.stepRef = graph.step.id ∧
    basis.recoveryMode = dispatchRecoveryMode graph.step graph.attempt ∧
    ∀ ref ∈ basis.outcomeRefs, Confirms store graph ref

theorem mem_durableModes {mode : DispatchRecoveryMode} :
    mode ∈ durableModes ↔ mode ≠ .uncommitted := by
  cases mode <;> decide

theorem rebuilt_of_reconstruct {request : DispositionCommitRequest} {basis : DispositionBasis}
    (h : reconstructDispositionBasis digest now store request = .ok basis) :
    Rebuilt digest store basis := by
  rw [reconstructDispositionBasis, Result.bind_eq_ok] at h
  obtain ⟨dispatchRef, hdispatch, h⟩ := h
  obtain ⟨policyRef, hpolicy, h⟩ := Result.bind_eq_ok.mp h
  obtain ⟨observationRefs, hobservations, h⟩ := Result.bind_eq_ok.mp h
  obtain ⟨outcomeRefs, houtcomes, h⟩ := Result.bind_eq_ok.mp h
  obtain ⟨graph, hgraph, h⟩ := Result.bind_eq_ok.mp h
  rw [Result.check_eq_ok, Result.check_eq_ok, Result.check_eq_ok, checkEach_eq_ok,
    checkEach_eq_ok, guardValue_eq_ok] at h
  obtain ⟨-, hconfirmed, hmode, h⟩ := h
  obtain ⟨effectSemantics, heffect, h⟩ := Result.bind_eq_ok.mp h
  obtain ⟨reversibility, hreversibility, h⟩ := Result.bind_eq_ok.mp h
  rw [Result.pure_eq_ok] at h
  subst h
  have hplain {label s : String} {value : Json}
      (h : requiredString "recovery disposition" value label = .ok s) :
      requiredString "recovery disposition" (.str s) label = .ok s :=
    requiredString_plain.mpr (plain_of_requiredString h)
  refine ⟨⟨hplain hdispatch, hplain hpolicy, canonicalRefs_again hobservations,
    canonicalRefs_again houtcomes, mem_durableModes.mpr (of_decide_eq_true hmode), hplain heffect,
    hplain hreversibility⟩, rfl, graph, hgraph, rfl, rfl, ?_⟩
  intro ref href
  exact confirms_of_validate (hconfirmed ref href)

/-! ## The recorded decision -/

theorem memberOf_text {α : Type} {values : List α} {text : α → String} {message : String} {v : α}
    (hinj : ∀ {a b}, text a = text b → a = b) (hv : v ∈ values) :
    memberOf values text (.str (text v)) message = .ok v := by
  have hin : (Json.str (text v)).inSet (values.map text) = .ok true := by
    show Except.ok ((values.map text).any (fun s => (Json.str (text v)).eqStr s)) = _
    rw [Except.ok.injEq, List.any_map, List.any_eq_true]
    exact ⟨v, hv, Json.pyEq_str.mpr rfl⟩
  have hfind : values.find? (fun a => text a == text v) = some v := by
    cases hfound : values.find? (fun a => text a == text v) with
    | none =>
      have hne := List.find?_eq_none.mp hfound v hv
      exact absurd (beq_self_eq_true (text v)) hne
    | some a =>
      have ha := List.find?_some (p := fun a => text a == text v) hfound
      rw [hinj (eq_of_beq ha)]
  exact Result.bind_eq_ok.mpr ⟨true, hin, Result.check_eq_ok.mpr ⟨rfl, orRaise_eq_ok.mpr hfind⟩⟩

/-- The prepared event decodes as the prepared disposition. -/
theorem dispositionFromEvent_prepared {basis : DispositionBasis} {policy : Recovery.Policy}
    {prepared : PreparedDisposition} (hbasis : Rebuilt digest store basis)
    (h : prepareDisposition now basis policy = .ok prepared) :
    dispositionFromEvent digest prepared.event = .ok prepared.disposition := by
  obtain ⟨action, -, h⟩ := Result.bind_eq_ok.mp h
  rw [Result.pure_eq_ok] at h
  subst h
  rw [dispositionFromEvent]
  refine Result.check_eq_ok.mpr ⟨rfl, Result.check_eq_ok.mpr ⟨rfl, Result.check_eq_ok.mpr ⟨rfl, ?_⟩⟩⟩
  refine Result.bind_eq_ok.mpr ⟨_, hbasis.canonical.dispatch, Result.bind_eq_ok.mpr
    ⟨_, hbasis.canonical.policy, ?_⟩⟩
  refine Result.bind_eq_ok.mpr ⟨_, orRaise_eq_ok.mpr (stringItems?_ofStrings _),
    Result.bind_eq_ok.mpr ⟨_, orRaise_eq_ok.mpr (stringItems?_ofStrings _), ?_⟩⟩
  refine Result.bind_eq_ok.mpr ⟨_, hbasis.canonical.observations, Result.bind_eq_ok.mpr
    ⟨_, hbasis.canonical.outcomes, Result.check_eq_ok.mpr ⟨?_, ?_⟩⟩⟩
  · rw [guardValue_eq_ok, Bool.and_eq_true]
    exact ⟨beq_self_eq_true _, beq_self_eq_true _⟩
  refine Result.bind_eq_ok.mpr ⟨_, memberOf_text DispatchRecoveryMode.text_injective hbasis.canonical.committed,
    Result.bind_eq_ok.mpr ⟨_, hbasis.canonical.effect, Result.bind_eq_ok.mpr
      ⟨_, hbasis.canonical.reversible, Result.bind_eq_ok.mpr ⟨_, memberOf_text RecoveryDispositionAction.text_injective ?_, ?_⟩⟩⟩⟩
  · cases action <;> decide
  refine Result.check_eq_ok.mpr ⟨?_, Result.check_eq_ok.mpr ⟨?_, ?_⟩⟩
  · rw [guardValue_eq_ok, ← hbasis.key]
    exact Json.pyEq_str.mpr rfl
  · rw [guardValue_eq_ok, ← hbasis.key, Bool.and_eq_true]
    exact ⟨beq_self_eq_true _, beq_self_eq_true _⟩
  · rw [Result.pure_eq_ok, ← hbasis.key]

theorem dispositionFromEvent_facts {event : Event} {d : Disposition}
    (h : dispositionFromEvent digest event = .ok d) :
    event.type = recoveryDispositionEvent ∧ d.basisKey = basisIdentity digest d.toBasisFacts ∧
      d.id = dispositionId d.basisKey := by
  rw [dispositionFromEvent, Result.check_eq_ok, Result.check_eq_ok, Result.check_eq_ok,
    guardValue_eq_ok, beq_iff_eq] at h
  obtain ⟨htype, -, -, h⟩ := h
  obtain ⟨dispatchRef, -, h⟩ := Result.bind_eq_ok.mp h
  obtain ⟨policyRef, -, h⟩ := Result.bind_eq_ok.mp h
  obtain ⟨rawObservations, -, h⟩ := Result.bind_eq_ok.mp h
  obtain ⟨rawOutcomes, -, h⟩ := Result.bind_eq_ok.mp h
  obtain ⟨observationRefs, -, h⟩ := Result.bind_eq_ok.mp h
  obtain ⟨outcomeRefs, -, h⟩ := Result.bind_eq_ok.mp h
  obtain ⟨-, h⟩ := Result.check_eq_ok.mp h
  obtain ⟨recoveryMode, -, h⟩ := Result.bind_eq_ok.mp h
  obtain ⟨effectSemantics, -, h⟩ := Result.bind_eq_ok.mp h
  obtain ⟨reversibility, -, h⟩ := Result.bind_eq_ok.mp h
  obtain ⟨action, -, h⟩ := Result.bind_eq_ok.mp h
  rw [Result.check_eq_ok, Result.check_eq_ok, Result.pure_eq_ok, guardValue_eq_ok,
    guardValue_eq_ok, Bool.and_eq_true, beq_iff_eq] at h
  obtain ⟨-, ⟨hid, -⟩, rfl⟩ := h
  exact ⟨htype, rfl, hid⟩

/-! ## Stores that only gain events -/

theorem Confirms.grows {graph : DispatchGraph} {ref : String} (hgrows : Grows store store')
    (h : Confirms store graph ref) : Confirms store' graph ref := by
  obtain ⟨outcome, hget, h⟩ := h
  refine ⟨outcome, ?_, h⟩
  rw [hgrows.reads]
  exact hget

theorem Rebuilt.grows {basis : DispositionBasis} (hgrows : Grows store store')
    (h : Rebuilt digest store basis) : Rebuilt digest store' basis := by
  obtain ⟨graph, hgraph, hstep, hmode, hconfirms⟩ := h.graph
  exact ⟨h.canonical, h.key, graph, (hgrows.dispatch _).graph hgraph, hstep, hmode,
    fun ref href => (hconfirms ref href).grows hgrows⟩

/-! ## Safe dispositions -/

/-- A retry only of what may be repeated, an acceptance only of confirmed outcomes. -/
structure SafeDisposition (digest : Json → String) (store : DispositionStoreReader)
    (d : Disposition) : Prop where
  retry : d.action = .retryIdempotent → d.recoveryMode = .idempotentRetry
  accept : d.action = .acceptObjectiveResolution → d.outcomeRefs ≠ [] ∧
    ∃ graph, reconstructDispatchGraph digest store d.dispatchCommitRef = .ok graph ∧
      ∀ ref ∈ d.outcomeRefs, Confirms store graph ref

/-- Every durable disposition is safe. -/
def RetrySafe (digest : Json → String) (store : DispositionStoreReader) : Prop :=
  ∀ id event d, store.getEvent id = some event → dispositionFromEvent digest event = .ok d →
    SafeDisposition digest store d

/-- An answer that fits its basis. -/
def SafeAnswer (basis : DispositionBasis) (action : RecoveryDispositionAction) : Prop :=
  (action = .retryIdempotent → basis.recoveryMode = .idempotentRetry) ∧
    (action = .acceptObjectiveResolution → basis.outcomeRefs ≠ [])

theorem SafeDisposition.grows {d : Disposition} (hgrows : Grows store store')
    (h : SafeDisposition digest store d) : SafeDisposition digest store' d := by
  refine ⟨h.retry, fun haction => ?_⟩
  obtain ⟨hne, graph, hgraph, hconfirms⟩ := h.accept haction
  exact ⟨hne, graph, (hgrows.dispatch _).graph hgraph,
    fun ref href => (hconfirms ref href).grows hgrows⟩

/-- A decision on a rebuilt basis is safe exactly when its answer is. -/
theorem safeDisposition_prepared {basis : DispositionBasis} {policy : Recovery.Policy}
    {prepared : PreparedDisposition} (hbasis : Rebuilt digest store basis)
    (h : prepareDisposition now basis policy = .ok prepared) :
    ∃ action, policyAction policy basis = .ok action ∧
      (SafeDisposition digest store prepared.disposition ↔ SafeAnswer basis action) := by
  obtain ⟨action, haction, h⟩ := Result.bind_eq_ok.mp h
  rw [Result.pure_eq_ok] at h
  subst h
  obtain ⟨graph, hgraph, -, -, hconfirms⟩ := hbasis.graph
  refine ⟨action, haction, fun hsafe => ⟨hsafe.retry, fun h => (hsafe.accept h).1⟩, fun hsafe => ?_⟩
  exact ⟨hsafe.1, fun h => ⟨hsafe.2 h, graph, hgraph, hconfirms⟩⟩

/-- What an application takes from its disposition and from the rebuilt basis. -/
theorem prepareApplication_facts {dispositionRef : String} {application : Application}
    (h : prepareApplication digest now store dispositionRef = .ok application) :
    ∃ event d basis, store.getEvent dispositionRef = some event ∧
      dispositionFromEvent digest event = .ok d ∧ Rebuilt digest store basis ∧
      basis.basisKey = d.basisKey ∧ application.applicationKind = d.action.applicationKind ∧
      application.sourceDispatchRef = basis.dispatchCommitRef ∧
      application.sourceStepRef = basis.stepRef := by
  obtain ⟨⟨d, basis, attempt⟩, hsource, h⟩ := Result.bind_eq_ok.mp h
  rw [reconstructSource, Result.bind_eq_ok] at hsource
  obtain ⟨event, hevent, hsource⟩ := hsource
  obtain ⟨d', hd, hsource⟩ := Result.bind_eq_ok.mp hsource
  obtain ⟨basis', hbasis, hsource⟩ := Result.bind_eq_ok.mp hsource
  obtain ⟨hkey, hsource⟩ := Result.check_eq_ok.mp hsource
  obtain ⟨attempt', -, hsource⟩ := Result.bind_eq_ok.mp hsource
  rw [Result.pure_eq_ok, Prod.mk.injEq, Prod.mk.injEq] at hsource
  obtain ⟨rfl, rfl, rfl⟩ := hsource
  rw [orRaise_eq_ok, Option.filter_eq_some_iff] at hevent
  rw [guardValue_eq_ok, beq_iff_eq] at hkey
  obtain ⟨-, h⟩ := Result.check_eq_ok.mp h
  rw [Result.pure_eq_ok] at h
  subst h
  exact ⟨event, d', basis', hevent.1, hd, rebuilt_of_reconstruct hbasis, hkey, rfl, rfl, rfl⟩

theorem repeatable_of_mode {step : Step} {attempt : StepAttempt}
    (h : dispatchRecoveryMode step attempt = .idempotentRetry) :
    step.effectSemantics = .pure ∨ step.effectSemantics = .idempotent ∨
      step.effectSemantics = .deduplicatable := by
  rw [dispatchRecoveryMode] at h
  split_ifs at h
  cases hsemantics : step.effectSemantics with
  | pure => exact .inl rfl
  | idempotent => exact .inr (.inl rfl)
  | deduplicatable => exact .inr (.inr rfl)
  | reconcilable => simp [hsemantics] at h
  | irreversibleOpaque => simp [hsemantics] at h

/-- The step an application names has an effect that is pure, idempotent or deduplicatable. -/
def NamesRepeatableStep (digest : Json → String) (store : DispositionStoreReader)
    (application : Application) : Prop :=
  ∃ graph, reconstructDispatchGraph digest store application.sourceDispatchRef = .ok graph ∧
    application.sourceStepRef = graph.step.id ∧
    (graph.step.effectSemantics = .pure ∨ graph.step.effectSemantics = .idempotent ∨
      graph.step.effectSemantics = .deduplicatable)

/-- In a safe store a request to retry names a step whose effect may be repeated. -/
theorem retry_names_repeatable {dispositionRef : String} {application : Application}
    (hmode : ∀ a b, basisIdentity digest a = basisIdentity digest b →
      a.recoveryMode = b.recoveryMode)
    (hsafe : RetrySafe digest store)
    (h : prepareApplication digest now store dispositionRef = .ok application)
    (hretry : application.applicationKind = .retryRequest) :
    NamesRepeatableStep digest store application := by
  obtain ⟨event, d, basis, hevent, hd, hbasis, hkey, hkind, hdispatch, hstep⟩ :=
    prepareApplication_facts h
  obtain ⟨graph, hgraph, hgraphStep, hgraphMode, -⟩ := hbasis.graph
  have haction : d.action = .retryIdempotent := by
    rw [hretry] at hkind
    cases haction : d.action <;> rw [haction] at hkind <;> first | rfl | cases hkind
  have hsame : basis.recoveryMode = d.recoveryMode :=
    hmode _ _ (hbasis.key.symm.trans (hkey.trans (dispositionFromEvent_facts hd).2.1))
  have hrepeat := (hsafe _ _ _ hevent hd).retry haction
  have hmode := hgraphMode.symm.trans (hsame.trans hrepeat)
  exact ⟨graph, hdispatch ▸ hgraph, hstep.trans hgraphStep, repeatable_of_mode hmode⟩

end Recovery

/-! ## Runs of the two commits -/

inductive RecoveryCall where
  | disposition (request : Recovery.DispositionCommitRequest) (policy : Recovery.Policy)
  | application (dispositionRef : String)

namespace MemoryStore

open Recovery

variable {digest : Json → String} {now : Time} {st st' : MemoryStore}

/-- A call that raises leaves the store as it was. -/
def recoveryStep (digest : Json → String) (st : MemoryStore) (o : Time × RecoveryCall) :
    MemoryStore :=
  match o.2 with
  | .disposition request policy =>
    match st.commitRecoveryDisposition digest o.1 request policy with
    | .ok r => r.2
    | .error _ => st
  | .application dispositionRef =>
    match st.commitRecoveryApplication digest o.1 dispositionRef with
    | .ok r => r.2
    | .error _ => st

/-- Where a policy is asked, for a basis without a recorded decision, its answer fits. -/
def AnswersSafely (digest : Json → String) (st : MemoryStore) (o : Time × RecoveryCall) : Prop :=
  match o.2 with
  | .disposition request policy => ∀ basis action,
    reconstructDispositionBasis digest o.1 st.recoveryReader request = .ok basis →
      st.getEvent (dispositionId basis.basisKey) = none →
        policyAction policy basis = .ok action → SafeAnswer basis action
  | .application _ => True

theorem getEvent_save (st : MemoryStore) (event : Event) (id : String) :
    (st.save .event event).getEvent id = if id = event.id then some event else st.getEvent id := by
  rw [getEvent, save, get_put_self]
  rfl

theorem grows_save {event : Event} (hnew : st.getEvent event.id = none) :
    Grows st.recoveryReader (st.save .event event).recoveryReader := by
  refine ⟨?_, fun id e he => ?_⟩
  · have hget {k : Kind} (hk : k ≠ .event) : (st.save .event event).get k = st.get k :=
      funext (fun id => get_put_of_ne st hk _ _ _)
    show (st.save .event event).reader = st.reader
    simp only [reader, hget, ne_eq, reduceCtorEq, not_false_eq_true]
  · show (st.save .event event).getEvent id = some e
    rw [getEvent_save, if_neg ?_]
    · exact he
    · rintro rfl
      exact absurd (hnew.symm.trans he) (by simp)

/-- A first event keeps a store safe exactly when what it decodes as is safe. -/
theorem retrySafe_save {event : Event} (hnew : st.getEvent event.id = none)
    (hsafe : RetrySafe digest st.recoveryReader) :
    RetrySafe digest (st.save .event event).recoveryReader ↔
      ∀ d, dispositionFromEvent digest event = .ok d →
        SafeDisposition digest (st.save .event event).recoveryReader d := by
  constructor
  · exact fun h d hd => h event.id event d ((getEvent_save st event _).trans (if_pos rfl)) hd
  · intro h id e d hget hd
    replace hget : (st.save .event event).getEvent id = some e := hget
    rw [getEvent_save] at hget
    split_ifs at hget
    · exact h d (Option.some.inj hget ▸ hd)
    · exact (hsafe id e d hget hd).grows (grows_save hnew)

theorem retrySafe_save_other {event : Event} (hnew : st.getEvent event.id = none)
    (htype : event.type ≠ recoveryDispositionEvent) (hsafe : RetrySafe digest st.recoveryReader) :
    RetrySafe digest (st.save .event event).recoveryReader :=
  (retrySafe_save hnew hsafe).mpr
    (fun _ hd => absurd (dispositionFromEvent_facts hd).1 htype)

/-- The first decision on a basis is recorded. -/
theorem recoveryReader_getEvent (st : MemoryStore) : st.recoveryReader.getEvent = st.getEvent := rfl

theorem commitRecoveryDisposition_new {request : DispositionCommitRequest}
    {policy : Recovery.Policy}
    {basis : DispositionBasis} {prepared : PreparedDisposition}
    (hbasis : reconstructDispositionBasis digest now st.recoveryReader request = .ok basis)
    (hnew : st.getEvent (dispositionId basis.basisKey) = none)
    (hprepared : prepareDisposition now basis policy = .ok prepared) :
    prepared.event.id = dispositionId basis.basisKey ∧
      st.commitRecoveryDisposition digest now request policy =
        .ok (prepared.disposition, st.save .event prepared.event) := by
  have hid : prepared.event.id = dispositionId basis.basisKey ∧
      prepared.event.type = recoveryDispositionEvent := by
    obtain ⟨action, -, h⟩ := Result.bind_eq_ok.mp hprepared
    rw [Result.pure_eq_ok] at h
    subst h
    exact ⟨rfl, rfl⟩
  have hplan : prepareDispositionCommit digest now st.recoveryReader request policy =
      .ok ⟨prepared.disposition, some prepared.event, false⟩ := by
    rw [prepareDispositionCommit, Result.bind_eq_ok]
    refine ⟨basis, hbasis, ?_⟩
    rw [recoveryReader_getEvent, hnew]
    exact Result.bind_eq_ok.mpr ⟨prepared, hprepared, rfl⟩
  have happend : st.appendEventAs (some .recoveryDisposition) prepared.event =
      .ok (st.save .event prepared.event) := by
    rw [appendEventAs, requiredAuthority, hid.2, hid.1, hnew]
    rfl
  refine ⟨hid.1, ?_⟩
  rw [commitRecoveryDisposition, Result.bind_eq_ok]
  refine ⟨_, hplan, ?_⟩
  exact Result.bind_eq_ok.mpr ⟨_, rfl, Result.bind_eq_ok.mpr ⟨_, happend, rfl⟩⟩

/-- A commit that is accepted replays, or records the first decision on its basis. -/
theorem commitRecoveryDisposition_cases {request : DispositionCommitRequest}
    {policy : Recovery.Policy}
    {d : Recovery.Disposition}
    (h : st.commitRecoveryDisposition digest now request policy = .ok (d, st')) :
    st' = st ∨ ∃ basis prepared,
      reconstructDispositionBasis digest now st.recoveryReader request = .ok basis ∧
        st.getEvent (dispositionId basis.basisKey) = none ∧
          prepareDisposition now basis policy = .ok prepared := by
  obtain ⟨plan, hplan, h⟩ := Result.bind_eq_ok.mp h
  rw [prepareDispositionCommit, Result.bind_eq_ok] at hplan
  obtain ⟨basis, hbasis, hplan⟩ := hplan
  rw [recoveryReader_getEvent] at hplan
  cases hget : st.getEvent (dispositionId basis.basisKey) with
  | none =>
    rw [hget] at hplan
    obtain ⟨prepared, hprepared, -⟩ := Result.bind_eq_ok.mp hplan
    exact .inr ⟨basis, prepared, hbasis, hget, hprepared⟩
  | some existing =>
    rw [hget] at hplan
    obtain ⟨durable, -, hplan⟩ := Result.bind_eq_ok.mp hplan
    obtain ⟨-, hplan⟩ := Result.check_eq_ok.mp hplan
    obtain ⟨declared, -, hplan⟩ := Result.bind_eq_ok.mp hplan
    rw [Result.check_eq_ok, Result.pure_eq_ok] at hplan
    obtain ⟨-, rfl⟩ := hplan
    exact .inl (Prod.mk.inj (Result.pure_eq_ok.mp h)).2.symm

theorem retrySafe_step_disposition {request : DispositionCommitRequest}
    {policy : Recovery.Policy}
    (hsafe : RetrySafe digest st.recoveryReader) :
    RetrySafe digest (recoveryStep digest st (now, .disposition request policy)).recoveryReader ↔
      AnswersSafely digest st (now, .disposition request policy) := by
  by_cases hnew : ∃ basis prepared,
      reconstructDispositionBasis digest now st.recoveryReader request = .ok basis ∧
        st.getEvent (dispositionId basis.basisKey) = none ∧
          prepareDisposition now basis policy = .ok prepared
  · obtain ⟨basis, prepared, hbasis, hnone, hprepared⟩ := hnew
    obtain ⟨hid, hcommit⟩ := commitRecoveryDisposition_new hbasis hnone hprepared
    have hrebuilt := rebuilt_of_reconstruct hbasis
    have hdecode := dispositionFromEvent_prepared hrebuilt hprepared
    have hfirst : st.getEvent prepared.event.id = none := hid ▸ hnone
    obtain ⟨action, haction, hanswer⟩ :=
      safeDisposition_prepared (hrebuilt.grows (grows_save hfirst)) hprepared
    simp only [recoveryStep, hcommit]
    rw [retrySafe_save hfirst hsafe]
    constructor
    · intro h basis' action' hbasis' hnone' haction'
      obtain rfl := Except.ok.inj (hbasis.symm.trans hbasis')
      obtain rfl := Except.ok.inj (haction.symm.trans haction')
      exact hanswer.mp (h _ hdecode)
    · intro h d hd
      obtain rfl := Except.ok.inj (hdecode.symm.trans hd)
      exact hanswer.mpr (h basis action hbasis hnone haction)
  · have hsame : recoveryStep digest st (now, .disposition request policy) = st := by
      simp only [recoveryStep]
      cases hcommit : st.commitRecoveryDisposition digest now request policy with
      | error e => rfl
      | ok r => exact (commitRecoveryDisposition_cases hcommit).resolve_right hnew
    rw [hsame]
    refine iff_of_true hsafe (fun basis action hbasis hnone haction => ?_)
    exact absurd ⟨basis, _, hbasis, hnone, Result.bind_eq_ok.mpr ⟨action, haction, rfl⟩⟩ hnew

/-- An accepted application was prepared, and is replayed or recorded as a first event. -/
theorem commitRecoveryApplication_cases {dispositionRef : String} {application : Application}
    (h : st.commitRecoveryApplication digest now dispositionRef = .ok (application, st')) :
    (∃ ref, prepareApplication digest now st.recoveryReader ref = .ok application) ∧
      (st' = st ∨ ∃ event, event.type = recoveryApplicationEvent ∧
        st.getEvent event.id = none ∧ st' = st.save .event event) := by
  obtain ⟨plan, hplan, h⟩ := Result.bind_eq_ok.mp h
  rw [prepareApplicationCommit, Result.bind_eq_ok] at hplan
  obtain ⟨ref, -, hplan⟩ := hplan
  obtain ⟨expected, hexpected, hplan⟩ := Result.bind_eq_ok.mp hplan
  rw [recoveryReader_getEvent] at hplan
  cases hget : st.getEvent expected.id with
  | some existing =>
    rw [hget] at hplan
    obtain ⟨durable, -, hplan⟩ := Result.bind_eq_ok.mp hplan
    rw [Result.check_eq_ok, guardValue_eq_ok, beq_iff_eq, Result.pure_eq_ok] at hplan
    obtain ⟨rfl, rfl⟩ := hplan
    obtain ⟨rfl, rfl⟩ := Prod.mk.inj (Result.pure_eq_ok.mp h)
    exact ⟨⟨ref, hexpected⟩, .inl rfl⟩
  | none =>
    rw [hget] at hplan
    obtain rfl := Result.pure_eq_ok.mp hplan
    obtain ⟨event, hevent, h⟩ := Result.bind_eq_ok.mp h
    obtain ⟨st'', happend, h⟩ := Result.bind_eq_ok.mp h
    obtain ⟨rfl, rfl⟩ := Prod.mk.inj (Result.pure_eq_ok.mp h)
    obtain rfl : expected.event now = event := Option.some.inj (orRaise_eq_ok.mp hevent)
    refine ⟨⟨ref, hexpected⟩, ?_⟩
    rcases appendEventAs_eq_ok happend with ⟨_, _, _, hsame⟩ | ⟨hnone, hsaved⟩
    · exact .inl hsame
    · exact .inr ⟨expected.event now, rfl, hnone, hsaved⟩

theorem retrySafe_step (o : Time × RecoveryCall) (hsafe : RetrySafe digest st.recoveryReader) :
    RetrySafe digest (recoveryStep digest st o).recoveryReader ↔ AnswersSafely digest st o := by
  obtain ⟨now, call⟩ := o
  cases call with
  | disposition request policy => exact retrySafe_step_disposition hsafe
  | application dispositionRef =>
    refine iff_of_true ?_ trivial
    simp only [recoveryStep]
    cases hcommit : st.commitRecoveryApplication digest now dispositionRef with
    | error e => exact hsafe
    | ok r =>
      rcases (commitRecoveryApplication_cases hcommit).2 with hsame | ⟨event, htype, hnone, hsaved⟩
      · simpa only [hsame] using hsafe
      · simp only [hsaved]
        exact retrySafe_save_other hnone (by rw [htype]; decide) hsafe

/-- The durable dispositions stay safe along a run exactly when they are so at its start and
every policy that is asked answers safely; while they are, a request to retry names a step whose
effect may be repeated. -/
theorem retry_safety (digest : Json → String)
    (hmode : ∀ a b, basisIdentity digest a = basisIdentity digest b →
      a.recoveryMode = b.recoveryMode)
    (st : MemoryStore) (calls : List (Time × RecoveryCall)) :
    ((∀ pre, pre <+: calls →
        RetrySafe digest (run (recoveryStep digest) st pre).recoveryReader) ↔
      RetrySafe digest st.recoveryReader ∧
        Along (recoveryStep digest) (AnswersSafely digest) st calls) ∧
    ∀ pre, pre <+: calls → RetrySafe digest (run (recoveryStep digest) st pre).recoveryReader →
      ∀ now ref application st',
        (run (recoveryStep digest) st pre).commitRecoveryApplication digest now ref =
          .ok (application, st') →
        application.applicationKind = .retryRequest →
        NamesRepeatableStep digest (run (recoveryStep digest) st pre).recoveryReader
          application := by
  refine ⟨?_, ?_⟩
  · exact always_iff_along (I := fun (st : MemoryStore) => RetrySafe digest st.recoveryReader)
      (fun st o hsafe => retrySafe_step o hsafe)
  intro pre hpre hsafe now ref application st' hcommit hretry
  obtain ⟨⟨ref', hprepared⟩, -⟩ := commitRecoveryApplication_cases hcommit
  exact retry_names_repeatable hmode hsafe hprepared hretry

/-! ### A decision that does not fit -/

def modeDigest : Json → String
  | .obj fields => (Fields.get fields "recovery_mode").pyStr
  | _ => ""

/-- An executed action, without its events. -/
def executed (effect : SideEffectClass) : MemoryStore :=
  let work : Work := { id := "work_1", createdAt := 0, title := "work", updatedAt := 0 }
  let run : Run := { id := "run_1", createdAt := 0, workId := "work_1" }
  let step : Step :=
    { id := "step_1", createdAt := 0, runId := "run_1", stepKey := "send", effectSemantics := effect,
      updatedAt := 0 }
  let attempt : StepAttempt :=
    { id := "attempt_1", createdAt := 0, stepId := "step_1", providerId := some "provider_1",
      requestRef := some "request_1", idempotencyKey := some "key_1",
      metadata := [("dispatch_commit_ref", .str "dispatch_None"), ("action_ref", .str "action_1")] }
  let action : Action :=
    { id := "action_1", createdAt := 0, workId := "work_1", runId := "run_1",
      capability := "send", requestRef := "request_1", providerId := "provider_1" }
  ((((empty.save .work work).save .run run).save .step step).save .attempt attempt).save .action
    action

def dispatched : Event :=
  { id := "dispatch_None", createdAt := 0, type := Governance.dispatchCommitEvent,
    subjectRef := "request_1",
    payload := [("schema", .str Governance.dispatchCommitSchema), ("request_id", .str "request_1"),
      ("provider_id", .str "provider_1"), ("attempt_ref", .str "attempt_1"),
      ("lease_generation", .int 0), ("linearization_domain", .str "authoritative-state-store")] }

def polled : Event :=
  { id := "observation_1", createdAt := 0, type := recoveryObservationEvent,
    subjectRef := "dispatch_None",
    payload := [("schema", .str recoveryObservationSchema),
      ("semantic_level", .str "recovery-observation"), ("authoritative_outcome", .bool false),
      ("reported_status", .str "reported-unknown"), ("observation_instance_ref", .str "poll_1"),
      ("dispatch_commit_ref", .str "dispatch_None"), ("action_ref", .str "action_1"),
      ("attempt_ref", .str "attempt_1"), ("step_ref", .str "step_1"),
      ("request_ref", .str "request_1"), ("provider_id", .str "provider_1"),
      ("observation_source", .str "poll")] }

def observedStore (effect : SideEffectClass) : MemoryStore :=
  ((executed effect).save .event dispatched).save .event polled

def onObservation : DispositionCommitRequest :=
  { dispatchCommitRef := "dispatch_None", observationRefs := ["observation_1"], outcomeRefs := [],
    policyRef := "policy_1" }

def alwaysRetry : Recovery.Policy := { decide := some (fun _ => .ok (.str "retry-idempotent")) }

theorem retrySafe_observedStore (effect : SideEffectClass) :
    RetrySafe digest (observedStore effect).recoveryReader := by
  have hexecuted : RetrySafe digest (executed effect).recoveryReader := by
    intro id event d hget
    have hnone : (executed effect).recoveryReader.getEvent id = none := rfl
    exact absurd (hnone.symm.trans hget) (by simp)
  have hdispatched : RetrySafe digest ((executed effect).save .event dispatched).recoveryReader :=
    retrySafe_save_other rfl (by decide) hexecuted
  exact retrySafe_save_other rfl (by decide) hdispatched

/-- The observed dispatch gives a basis in the mode of its step, without a decision yet. -/
theorem observed_basis {effect : SideEffectClass} {mode : DispatchRecoveryMode}
    (h : (reconstructDispositionBasis modeDigest 0 (observedStore effect).recoveryReader
      onObservation).toOption.map (fun b => (b.recoveryMode, b.basisKey)) =
        some (mode, mode.text)) :
    ∃ basis, reconstructDispositionBasis modeDigest 0 (observedStore effect).recoveryReader
        onObservation = .ok basis ∧ basis.recoveryMode = mode ∧
      (observedStore effect).getEvent (dispositionId basis.basisKey) = none := by
  cases hbasis : reconstructDispositionBasis modeDigest 0 (observedStore effect).recoveryReader
    onObservation with
  | error e => simp [hbasis, Except.toOption] at h
  | ok basis =>
    simp only [hbasis, Except.toOption, Option.map_some, Option.some.injEq, Prod.mk.injEq] at h
    refine ⟨basis, rfl, h.1, ?_⟩
    rw [h.2]
    cases mode <;> rfl

theorem policyAction_alwaysRetry (basis : DispositionBasis) :
    policyAction alwaysRetry basis = .ok .retryIdempotent := rfl

/-- A policy that always retries is recorded for an effect that may only be reconciled. -/
theorem retry_of_reconcilable :
    ¬ ∀ (digest : Json → String) (st : MemoryStore) (calls : List (Time × RecoveryCall)),
      RetrySafe digest st.recoveryReader →
        RetrySafe digest (run (recoveryStep digest) st calls).recoveryReader := by
  intro h
  have hstart : RetrySafe modeDigest (observedStore .reconcilable).recoveryReader :=
    retrySafe_observedStore .reconcilable
  have hanswers := (retrySafe_step_disposition hstart).mp
    (h modeDigest _ [(0, .disposition onObservation alwaysRetry)] hstart)
  obtain ⟨basis, hbasis, hmode, hnew⟩ :=
    @observed_basis .reconcilable .reconcile (by decide)
  have hretry := (hanswers basis .retryIdempotent hbasis hnew (policyAction_alwaysRetry basis)).1 rfl
  rw [hmode] at hretry
  cases hretry

theorem modeDigest_injective : ∀ a b, basisIdentity modeDigest a = basisIdentity modeDigest b →
    a.recoveryMode = b.recoveryMode := by
  intro a b h
  replace h : a.recoveryMode.text = b.recoveryMode.text := h
  exact DispatchRecoveryMode.text_injective h

/-- A retry of an idempotent effect is recorded and then requested. -/
theorem retry_safety_idempotent :
    (∀ pre, pre <+: [((0 : Time), RecoveryCall.disposition onObservation alwaysRetry)] →
      RetrySafe modeDigest
        (run (recoveryStep modeDigest) (observedStore .idempotent) pre).recoveryReader) ∧
    ∃ application st',
      (run (recoveryStep modeDigest) (observedStore .idempotent)
          [(0, .disposition onObservation alwaysRetry)]).commitRecoveryApplication modeDigest 0
        (dispositionId "idempotent-retry") = .ok (application, st') ∧
      NamesRepeatableStep modeDigest (run (recoveryStep modeDigest) (observedStore .idempotent)
        [(0, .disposition onObservation alwaysRetry)]).recoveryReader application := by
  obtain ⟨hsafe, hretry⟩ := retry_safety modeDigest modeDigest_injective (observedStore .idempotent)
    [(0, .disposition onObservation alwaysRetry)]
  have halong : Along (recoveryStep modeDigest) (AnswersSafely modeDigest)
      (observedStore .idempotent) [(0, .disposition onObservation alwaysRetry)] := by
    refine ⟨fun basis action hbasis _ haction => ?_, trivial⟩
    obtain rfl := Except.ok.inj ((policyAction_alwaysRetry basis).symm.trans haction)
    obtain ⟨basis', hbasis', hmode, -⟩ :=
      @observed_basis .idempotent .idempotentRetry (by decide)
    obtain rfl := Except.ok.inj (hbasis.symm.trans hbasis')
    exact ⟨fun _ => hmode, fun h => by cases h⟩
  have hruns := hsafe.mpr ⟨retrySafe_observedStore .idempotent, halong⟩
  refine ⟨hruns, ?_⟩
  have hkind : ((run (recoveryStep modeDigest) (observedStore .idempotent)
      [(0, .disposition onObservation alwaysRetry)]).commitRecoveryApplication modeDigest 0
        (dispositionId "idempotent-retry")).toOption.map (fun r => r.1.applicationKind) =
      some .retryRequest := by decide
  cases hcommit : (run (recoveryStep modeDigest) (observedStore .idempotent)
      [(0, .disposition onObservation alwaysRetry)]).commitRecoveryApplication modeDigest 0
        (dispositionId "idempotent-retry") with
  | error e =>
    rw [hcommit] at hkind
    cases hkind
  | ok r =>
    rw [hcommit] at hkind
    replace hkind : r.1.applicationKind = .retryRequest := Option.some.inj hkind
    exact ⟨r.1, r.2, rfl, hretry _ (List.prefix_refl _) (hruns _ (List.prefix_refl _)) 0 _ r.1 r.2
      hcommit hkind⟩

end MemoryStore
end PortableRuntime
