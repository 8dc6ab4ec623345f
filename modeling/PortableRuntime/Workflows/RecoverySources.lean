import PortableRuntime.Records.VerifiedReplay
import PortableRuntime.Workflows.RecoveryApplication

/-!
# The sources of recovery facts

A recovery fact is derived from a committed dispatch, what it is bound to, and the observations
and outcomes it names.  Where a second store still has these, it derives the same.
-/

namespace PortableRuntime
namespace Recovery

/-! ## What a derivation reads -/

/-- What the first lookup finds under the identity, the second one finds too. -/
def Found {α : Type} (get get' : String → Option α) (id : String) : Prop :=
  ∀ v, get id = some v → get' id = some v

theorem Found.filter {α : Type} {get get' : String → Option α} {id : String}
    (h : Found get get' id) {p : α → Bool} {v : α} (hv : (get id).filter p = some v) :
    (get' id).filter p = some v := by
  rw [Option.filter_eq_some_iff] at hv ⊢
  exact ⟨h v hv.1, hv.2⟩

/-- The attempt was made under the dispatch. -/
def MadeUnder (a : StepAttempt) (dispatchRef : String) : Prop :=
  a.metadata.get "dispatch_commit_ref" = .str dispatchRef

/-- The second store still has the dispatch, its attempts, and their steps, actions, runs and
works. -/
structure DispatchKept (store store' : DispositionStoreReader) (dispatchRef : String) : Prop where
  dispatch : Found store.getEvent store'.getEvent dispatchRef
  attempt : ∀ id a, store.getAttempt id = some a → MadeUnder a dispatchRef →
    store'.getAttempt id = some a ∧ Found store.getAttempt store'.getAttempt a.id
  step : ∀ id a, store.getAttempt id = some a → MadeUnder a dispatchRef →
    Found store.getStep store'.getStep a.stepId
  action : ∀ id a, store.getAttempt id = some a → MadeUnder a dispatchRef →
    ∀ ref, a.metadata.get "action_ref" = .str ref →
      Found store.getAction store'.getAction ref ∧
        Found store.getAction store'.getAction (Text.strip ref)
  run : ∀ id a, store.getAttempt id = some a → MadeUnder a dispatchRef →
    ∀ s, store.getStep a.stepId = some s → Found store.getRun store'.getRun s.runId
  work : ∀ id a, store.getAttempt id = some a → MadeUnder a dispatchRef →
    ∀ s, store.getStep a.stepId = some s → ∀ r, store.getRun s.runId = some r →
      Found store.getWork store'.getWork r.workId

/-- What the derivation of an outcome was asked for, as the outcome says. -/
structure AskedBy (outcome : BaseRecord) (request : VerifiedOutcomeCommitRequest) : Prop where
  action : outcome.getattr "action_ref" = .str request.actionRef
  work : outcome.metadata.get "work_id" = .str request.expectedWorkId
  run : outcome.metadata.get "run_id" = .str request.expectedRunId
  attempt : outcome.metadata.get "attempt_ref" = .str request.expectedAttemptRef
  evidence : request.evidenceRefs = (stringItems? (outcome.getattr "evidence_refs")).getD []

/-- The second store still has the outcome, its events, and what it is derived from. -/
structure OutcomeFound (store store' : DispositionStoreReader) (ref : String) : Prop where
  outcome : Found store.getRecord store'.getRecord ref
  events : ∀ id e, store.getEvent id = some e → e.subjectRef = ref → store'.getEvent id = some e
  bound : ∀ outcome request, store.getRecord ref = some outcome → AskedBy outcome request →
    Agree store.toVerifiedOutcomeStoreReader store'.toVerifiedOutcomeStoreReader request

/-- The second store still has what the request names. -/
structure BasisKept (store store' : DispositionStoreReader) (request : DispositionCommitRequest) :
    Prop where
  dispatch : DispatchKept store store' (Text.strip request.dispatchCommitRef)
  observations : ∀ ref ∈ request.observationRefs,
    Found store.getEvent store'.getEvent (Text.strip ref)
  outcomes : ∀ ref ∈ request.outcomeRefs, OutcomeFound store store' (Text.strip ref)

variable {digest : Json → String} {now later : Time} {store store' : DispositionStoreReader}

theorem requiredString_eq_ok {owner label s : String} {value : Json} :
    requiredString owner value label = .ok s ↔
      ∃ t, value = .str t ∧ Text.nonBlank t = true ∧ Text.strip t = s := by
  cases value with
  | str t =>
    by_cases ht : Text.nonBlank t = true
    · simp [requiredString, ht]
    · simp [requiredString, ht, raiseValue]
  | _ => simp [requiredString, raiseValue]

theorem memberOf_eq_ok {α : Type} {values : List α} {text : α → String} {j : Json}
    {message : String} {v : α} :
    memberOf values text j message = .ok v ↔
      ∃ s, j = .str s ∧ values.find? (fun v => text v == s) = some v := by
  unfold memberOf
  rw [Result.bind_eq_ok]
  constructor
  · rintro ⟨isMember, -, h⟩
    obtain ⟨-, h⟩ := Result.check_eq_ok.mp h
    rw [orRaise_eq_ok, Option.bind_eq_some_iff] at h
    obtain ⟨s, hs, hfind⟩ := h
    cases j with
    | str s' =>
      obtain rfl := Option.some.inj hs
      exact ⟨_, rfl, hfind⟩
    | _ => cases hs
  · rintro ⟨s, rfl, hfind⟩
    refine ⟨true, ?_, Result.check_eq_ok.mpr ⟨rfl, orRaise_eq_ok.mpr hfind⟩⟩
    have htext : text v = s := eq_of_beq (List.find?_some (p := fun v => text v == s) hfind)
    show Except.ok ((values.map text).any (fun t => (Json.str s).eqStr t)) = _
    rw [Except.ok.injEq, List.any_map, List.any_eq_true]
    exact ⟨v, List.mem_of_find?_eq_some hfind, Json.pyEq_str.mpr (congrArg Json.str htext.symm)⟩

theorem mem_of_canonicalRefs {refs canonical : List String} {label : String} {required : Bool}
    (h : canonicalRefs refs label required = .ok canonical) {ref : String} (href : ref ∈ canonical) :
    ∃ raw ∈ refs, Text.strip raw = ref := by
  rw [canonicalRefs, Result.check_eq_ok, Result.check_eq_ok, Result.pure_eq_ok] at h
  obtain ⟨-, -, rfl⟩ := h
  exact List.mem_map.mp (Text.mem_sortedUnique.mp href)

/-! ## The dispatch -/

theorem DispatchKept.graph {dispatchRef : String} {graph : DispatchGraph}
    (hkept : DispatchKept store store' dispatchRef)
    (h : reconstructDispatchGraph digest store dispatchRef = .ok graph) :
    reconstructDispatchGraph digest store' dispatchRef = .ok graph := by
  simp only [reconstructDispatchGraph, Result.bind_eq_ok, Result.pure_eq_ok, orRaise_eq_ok] at h ⊢
  obtain ⟨dispatch, hdispatch, _, hschema, _, hdomain, identity, hidentity, _, hexact, requestRef,
    hrequest, providerId, hprovider, attemptRef, hattemptRef, _, hsubject, attempt, hattempt, _,
    hunder, _, hbinding, _, hdigests, _, hlease, step, hstep, actionRef, hactionRef, action,
    haction, _, hprovided, _, hran, run, hrun, work, hwork, hgraph⟩ := h
  have hmade : MadeUnder attempt dispatchRef := Json.pyEq_str.mp (guardValue_eq_ok.mp hunder)
  obtain ⟨raw, hraw, -, hstrip⟩ := requiredString_eq_ok.mp hactionRef
  have hactionKept := (hkept.action attemptRef attempt hattempt hmade raw hraw).2
  rw [hstrip] at hactionKept
  have hrunKept := hkept.run attemptRef attempt hattempt hmade step hstep
  have hworkKept := hkept.work attemptRef attempt hattempt hmade step hstep run
    (Option.filter_eq_some_iff.mp hrun).1
  exact ⟨dispatch, hkept.dispatch.filter hdispatch, (), hschema, (), hdomain, identity, hidentity,
    (), hexact, requestRef, hrequest, providerId, hprovider, attemptRef, hattemptRef, (), hsubject,
    attempt, (hkept.attempt attemptRef attempt hattempt hmade).1, (), hunder, (), hbinding, (),
    hdigests, (), hlease, step, hkept.step attemptRef attempt hattempt hmade step hstep, actionRef,
    hactionRef, action, hactionKept action haction, (), hprovided, (), hran, run,
    hrunKept.filter hrun, work, hworkKept.filter hwork, hgraph⟩

/-! ## Observations and outcomes -/

theorem Found.observation {dispatchRef ref : String} {graph : DispatchGraph}
    (hfound : Found store.getEvent store'.getEvent ref)
    (h : validateObservation digest store dispatchRef graph ref = .ok ()) :
    validateObservation digest store' dispatchRef graph ref = .ok () := by
  rw [validateObservation, Result.bind_eq_ok] at h ⊢
  obtain ⟨event, hevent, h⟩ := h
  exact ⟨event, orRaise_eq_ok.mpr (hfound.filter (orRaise_eq_ok.mp hevent)), h⟩

theorem sameSemantics_later (left : Fields) (p : PreparedVerifiedOutcomeCommit) (later : Time) :
    sameVerifiedOutcomeSemantics left (p.createdAt later).outcome.dump =
      sameVerifiedOutcomeSemantics left p.outcome.dump := by
  rw [sameVerifiedOutcomeSemantics, sameVerifiedOutcomeSemantics,
    PreparedVerifiedOutcomeCommit.createdAt, BaseRecord.pop_createdAt]

theorem OutcomeFound.validate {ref : String} {graph : DispatchGraph}
    (hfound : OutcomeFound store store' ref) (later : Time)
    (h : validateConfirmedOutcome digest now store graph ref = .ok ()) :
    validateConfirmedOutcome digest later store' graph ref = .ok () := by
  rw [validateConfirmedOutcome, Result.bind_eq_ok] at h ⊢
  obtain ⟨persisted, hpersisted, h⟩ := h
  rw [orRaise_eq_ok] at hpersisted
  refine ⟨persisted, orRaise_eq_ok.mpr (hfound.outcome.filter hpersisted), ?_⟩
  rw [Result.check_eq_ok, Result.check_eq_ok, Result.check_eq_ok] at h ⊢
  obtain ⟨hconfirmed, haction, hmetadata, h⟩ := h
  refine ⟨hconfirmed, haction, hmetadata, ?_⟩
  obtain ⟨scope, hscope, h⟩ := Result.bind_eq_ok.mp h
  obtain ⟨versions, hversions, h⟩ := Result.bind_eq_ok.mp h
  obtain ⟨prepared, hprepared, h⟩ := Result.bind_eq_ok.mp h
  obtain ⟨hsame, h⟩ := Result.check_eq_ok.mp h
  obtain ⟨hid, hevents⟩ := Result.check_eq_ok.mp h
  have hbound (key value : String) (hmem : (key, value) ∈ [("work_id", graph.work.id),
      ("run_id", graph.run.id), ("request_id", graph.action.requestRef),
      ("attempt_ref", graph.attempt.id)]) : persisted.metadata.get key = .str value :=
    Json.pyEq_str.mp (guardValue_eq_ok.mp (checkEach_eq_ok.mp hmetadata (key, value) hmem))
  have hasked : AskedBy persisted
      { actionRef := graph.action.id
        evidenceRefs := (stringItems? (persisted.getattr "evidence_refs")).getD []
        expectedWorkId := graph.work.id
        expectedRunId := graph.run.id
        expectedRequestId := graph.action.requestRef
        expectedAttemptRef := graph.attempt.id
        verificationScope := scope
        subjectVersionRefs := versions } :=
    ⟨Json.pyEq_str.mp (guardValue_eq_ok.mp haction), hbound "work_id" graph.work.id (by simp),
      hbound "run_id" graph.run.id (by simp), hbound "attempt_ref" graph.attempt.id (by simp), rfl⟩
  have hagree := hfound.bound persisted _ (Option.filter_eq_some_iff.mp hpersisted).1 hasked
  refine Result.bind_eq_ok.mpr ⟨scope, hscope, Result.bind_eq_ok.mpr ⟨versions, hversions,
    Result.bind_eq_ok.mpr ⟨prepared.createdAt later,
      prepare_later later (prepare_congr hagree hprepared), ?_⟩⟩⟩
  refine Result.check_eq_ok.mpr ⟨?_, Result.check_eq_ok.mpr ⟨hid, ?_⟩⟩
  · rw [sameSemantics_later]
    exact hsame
  rw [guardValue_eq_ok, beq_iff_eq] at hid
  simp only [guardValue_eq_ok, List.all_eq_true, Option.any_eq_true] at hevents ⊢
  refine events_later later (fun e he => ?_)
  obtain ⟨event, hevent, hsemantics⟩ := hevents e he
  refine ⟨event, hfound.events e.id event hevent ?_, hsemantics⟩
  rw [subjectRef_of_sameSemantics hsemantics, subjectRef_of_prepared hprepared e he]
  exact hid

theorem BasisKept.basis {request : DispositionCommitRequest} {basis : DispositionBasis}
    (hkept : BasisKept store store' request) (later : Time)
    (h : reconstructDispositionBasis digest now store request = .ok basis) :
    reconstructDispositionBasis digest later store' request = .ok basis := by
  rw [reconstructDispositionBasis, Result.bind_eq_ok] at h ⊢
  obtain ⟨dispatchRef, hdispatch, h⟩ := h
  obtain ⟨policyRef, hpolicy, h⟩ := Result.bind_eq_ok.mp h
  obtain ⟨observationRefs, hobservations, h⟩ := Result.bind_eq_ok.mp h
  obtain ⟨outcomeRefs, houtcomes, h⟩ := Result.bind_eq_ok.mp h
  obtain ⟨graph, hgraph, h⟩ := Result.bind_eq_ok.mp h
  obtain ⟨raw, hraw, -, hstrip⟩ := requiredString_eq_ok.mp hdispatch
  obtain rfl := Json.str.inj hraw
  subst hstrip
  refine ⟨_, hdispatch, Result.bind_eq_ok.mpr ⟨policyRef, hpolicy, Result.bind_eq_ok.mpr
    ⟨observationRefs, hobservations, Result.bind_eq_ok.mpr ⟨outcomeRefs, houtcomes,
      Result.bind_eq_ok.mpr ⟨graph, hkept.dispatch.graph hgraph, ?_⟩⟩⟩⟩⟩
  rw [Result.check_eq_ok, Result.check_eq_ok, checkEach_eq_ok, checkEach_eq_ok] at h ⊢
  obtain ⟨hobserved, hconfirmed, h⟩ := h
  refine ⟨fun ref href => ?_, fun ref href => ?_, h⟩
  · obtain ⟨raw, hmem, rfl⟩ := mem_of_canonicalRefs hobservations href
    exact (hkept.observations raw hmem).observation (hobserved _ href)
  · obtain ⟨raw, hmem, rfl⟩ := mem_of_canonicalRefs houtcomes href
    exact (hkept.outcomes raw hmem).validate later (hconfirmed _ href)

/-! ## Applications -/

/-- A text that normalisation leaves as it is. -/
def Plain (s : String) : Prop := Text.nonBlank s = true ∧ Text.strip s = s

theorem plain_of_requiredString {owner label s : String} {value : Json}
    (h : requiredString owner value label = .ok s) : Plain s := by
  obtain ⟨t, -, ht, rfl⟩ := requiredString_eq_ok.mp h
  exact ⟨(Text.nonBlank_strip t).trans ht, Text.strip_strip t⟩

theorem requiredString_plain {owner label s : String} :
    requiredString owner (.str s) label = .ok s ↔ Plain s := by
  constructor
  · exact plain_of_requiredString
  · exact fun h => requiredString_eq_ok.mpr ⟨s, rfl, h⟩

/-- The graph of a dispatch, as far as its texts go. -/
structure GraphOf (store : DispositionStoreReader) (dispatchRef : String) (graph : DispatchGraph) :
    Prop where
  attempt : ∃ id, store.getAttempt id = some graph.attempt
  made : MadeUnder graph.attempt dispatchRef
  request : Plain graph.action.requestRef
  provider : Plain graph.action.providerId

theorem graphOf_of_reconstruct {dispatchRef : String} {graph : DispatchGraph}
    (h : reconstructDispatchGraph digest store dispatchRef = .ok graph) :
    GraphOf store dispatchRef graph := by
  simp only [reconstructDispatchGraph, Result.bind_eq_ok, Result.pure_eq_ok, orRaise_eq_ok] at h
  obtain ⟨dispatch, -, _, -, _, -, identity, -, _, -, requestRef, hrequest, providerId, hprovider,
    attemptRef, -, _, -, attempt, hattempt, _, hunder, _, -, _, -, _, -, step, -, actionRef, -,
    action, -, _, hprovided, _, -, run, -, work, -, rfl⟩ := h
  rw [guardValue_eq_ok, Bool.and_eq_true, beq_iff_eq, beq_iff_eq] at hprovided
  refine ⟨⟨attemptRef, hattempt⟩, Json.pyEq_str.mp (guardValue_eq_ok.mp hunder), ?_, ?_⟩
  · rw [hprovided.1]
    exact plain_of_requiredString hrequest
  · rw [hprovided.2]
    exact plain_of_requiredString hprovider

/-- The graph that a basis names. -/
structure Named (basis : DispositionBasis) (graph : DispatchGraph) : Prop where
  action : basis.actionRef = graph.action.id
  attempt : basis.attemptRef = graph.attempt.id
  step : basis.stepRef = graph.step.id
  request : basis.requestRef = graph.action.requestRef
  provider : basis.providerId = graph.action.providerId
  run : basis.runRef = graph.run.id
  work : basis.workRef = graph.work.id

theorem graph_of_basis {request : DispositionCommitRequest} {basis : DispositionBasis}
    (h : reconstructDispositionBasis digest now store request = .ok basis) :
    Plain basis.dispatchCommitRef ∧ basis.dispatchCommitRef = Text.strip request.dispatchCommitRef ∧
      ∃ graph, reconstructDispatchGraph digest store basis.dispatchCommitRef = .ok graph ∧
        Named basis graph := by
  rw [reconstructDispositionBasis, Result.bind_eq_ok] at h
  obtain ⟨dispatchRef, hdispatch, h⟩ := h
  obtain ⟨policyRef, -, h⟩ := Result.bind_eq_ok.mp h
  obtain ⟨observationRefs, -, h⟩ := Result.bind_eq_ok.mp h
  obtain ⟨outcomeRefs, -, h⟩ := Result.bind_eq_ok.mp h
  obtain ⟨graph, hgraph, h⟩ := Result.bind_eq_ok.mp h
  rw [Result.check_eq_ok, Result.check_eq_ok, Result.check_eq_ok] at h
  obtain ⟨-, -, -, h⟩ := h
  obtain ⟨effectSemantics, -, h⟩ := Result.bind_eq_ok.mp h
  obtain ⟨reversibility, -, h⟩ := Result.bind_eq_ok.mp h
  obtain rfl := Result.pure_eq_ok.mp h
  obtain ⟨raw, hraw, -, hstrip⟩ := requiredString_eq_ok.mp hdispatch
  obtain rfl := Json.str.inj hraw
  exact ⟨plain_of_requiredString hdispatch, hstrip.symm, graph, hgraph, rfl, rfl, rfl, rfl, rfl,
    rfl, rfl⟩

/-- The request that a disposition was made for. -/
def Disposition.request (d : Disposition) : DispositionCommitRequest where
  dispatchCommitRef := d.dispatchCommitRef
  observationRefs := d.observationRefs
  outcomeRefs := d.outcomeRefs
  policyRef := d.policyRef

/-- The second store still has the disposition, and what its request names. -/
structure SourceKept (digest : Json → String) (store store' : DispositionStoreReader)
    (dispositionRef : String) : Prop where
  event : Found store.getEvent store'.getEvent dispositionRef
  basis : ∀ event d, store.getEvent dispositionRef = some event →
    dispositionFromEvent digest event = .ok d → BasisKept store store' d.request

theorem SourceKept.application {dispositionRef : String} {application : Application}
    (hkept : SourceKept digest store store' dispositionRef) (later : Time)
    (h : prepareApplication digest now store dispositionRef = .ok application) :
    prepareApplication digest later store' dispositionRef = .ok application := by
  rw [prepareApplication, Result.bind_eq_ok] at h ⊢
  obtain ⟨source, hsource, h⟩ := h
  refine ⟨source, ?_, h⟩
  rw [reconstructSource, Result.bind_eq_ok] at hsource ⊢
  obtain ⟨event, hevent, hsource⟩ := hsource
  obtain ⟨d, hd, hsource⟩ := Result.bind_eq_ok.mp hsource
  obtain ⟨basis, hbasis, hsource⟩ := Result.bind_eq_ok.mp hsource
  obtain ⟨hsame, hsource⟩ := Result.check_eq_ok.mp hsource
  obtain ⟨attempt, hattempt, hsource⟩ := Result.bind_eq_ok.mp hsource
  rw [orRaise_eq_ok] at hevent hattempt
  have hbasisKept := hkept.basis event d (Option.filter_eq_some_iff.mp hevent).1 hd
  obtain ⟨-, hdispatch, graph, hgraph, hnamed⟩ := graph_of_basis hbasis
  obtain ⟨⟨id, hmadeAt⟩, hmade, -, -⟩ := graphOf_of_reconstruct hgraph
  rw [hdispatch] at hmade
  have hfound := (hbasisKept.dispatch.attempt id graph.attempt hmadeAt hmade).2
  rw [← hnamed.attempt] at hfound
  exact ⟨event, orRaise_eq_ok.mpr (hkept.event.filter hevent), Result.bind_eq_ok.mpr ⟨d, hd,
    Result.bind_eq_ok.mpr ⟨basis, hbasisKept.basis later hbasis, Result.check_eq_ok.mpr ⟨hsame,
      Result.bind_eq_ok.mpr ⟨attempt, orRaise_eq_ok.mpr (hfound.filter hattempt), hsource⟩⟩⟩⟩⟩

/-! ## Stores that only gain events -/

structure Grows (store store' : DispositionStoreReader) : Prop where
  reads : store'.toVerifiedOutcomeStoreReader = store.toVerifiedOutcomeStoreReader
  events : ∀ id event, store.getEvent id = some event → store'.getEvent id = some event

theorem Grows.dispatch (hgrows : Grows store store') (dispatchRef : String) :
    DispatchKept store store' dispatchRef := by
  obtain ⟨reads, getEvent⟩ := store
  obtain ⟨reads', getEvent'⟩ := store'
  obtain rfl : reads' = reads := hgrows.reads
  exact ⟨hgrows.events dispatchRef, fun _ _ ha _ => ⟨ha, fun _ hb => hb⟩, fun _ _ _ _ _ hs => hs,
    fun _ _ _ _ _ _ => ⟨fun _ hb => hb, fun _ hb => hb⟩, fun _ _ _ _ _ _ _ hr => hr,
    fun _ _ _ _ _ _ _ _ _ hw => hw⟩

theorem Grows.outcome (hgrows : Grows store store') (ref : String) :
    OutcomeFound store store' ref := by
  obtain ⟨reads, getEvent⟩ := store
  obtain ⟨reads', getEvent'⟩ := store'
  obtain rfl : reads' = reads := hgrows.reads
  exact ⟨fun _ hr => hr, fun id e he _ => hgrows.events id e he,
    fun _ request _ _ => Agree.refl reads' request⟩

theorem Grows.basis (hgrows : Grows store store') (request : DispositionCommitRequest) :
    BasisKept store store' request :=
  ⟨hgrows.dispatch _, fun ref _ => hgrows.events (Text.strip ref),
    fun ref _ => hgrows.outcome (Text.strip ref)⟩

theorem Grows.source (hgrows : Grows store store') (dispositionRef : String) :
    SourceKept digest store store' dispositionRef :=
  ⟨hgrows.events dispositionRef, fun _ d _ _ => hgrows.basis d.request⟩

end Recovery
end PortableRuntime
