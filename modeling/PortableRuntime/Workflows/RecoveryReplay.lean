import PortableRuntime.Stores.VerifiedRuns
import PortableRuntime.Workflows.RecoveryObservation

/-!
# Recovery commits that are made again

A recovery commit appends one event, which decodes as the value that it returns.  Made again over
the same sources it decodes the event that it finds, and neither appends nor decides anything.
-/

namespace PortableRuntime
namespace Recovery

variable {digest : Json → String} {now later : Time} {store store' : DispositionStoreReader}

/-! ## Observations -/

/-- The same observation, prepared at another time. -/
def PreparedObservationCommit.createdAt (p : PreparedObservationCommit) (now : Time) :
    PreparedObservationCommit :=
  { p with event := { p.event with createdAt := now } }

theorem DispatchKept.observation {request : ObservationCommitRequest}
    {prepared : PreparedObservationCommit}
    (hkept : DispatchKept store store' (Text.strip request.dispatchCommitRef)) (later : Time)
    (h : prepareObservationCommit digest now store request = .ok prepared) :
    prepareObservationCommit digest later store' request = .ok (prepared.createdAt later) := by
  simp only [prepareObservationCommit, Result.bind_eq_ok, Result.pure_eq_ok, orRaise_eq_ok] at h ⊢
  obtain ⟨_, hrefs, _, hstatus, _, hprovenance, dispatch, hdispatch, _, hschema, _, hdomain,
    identity, hidentity, _, hexact, requestRef, hrequest, providerId, hprovider, attemptRef,
    hattemptRef, _, hsubject, attempt, hattempt, _, hunder, _, hbinding, _, hdigests, _, hlease,
    step, hstep, actionRef, hactionRef, action, haction, _, hprovided, _, hran, observation,
    hdecoded, rfl⟩ := h
  have hmade : MadeUnder attempt (Text.strip request.dispatchCommitRef) :=
    Json.pyEq_str.mp (guardValue_eq_ok.mp hunder)
  have hnamed : attempt.metadata.get "action_ref" = .str actionRef :=
    Json.str_of_asStr? (Option.filter_eq_some_iff.mp hactionRef).1
  have hactionKept := (hkept.action attemptRef attempt hattempt hmade actionRef hnamed).1
  exact ⟨(), hrefs, (), hstatus, (), hprovenance, dispatch, hkept.dispatch.filter hdispatch, (),
    hschema, (), hdomain, identity, hidentity, (), hexact, requestRef, hrequest, providerId,
    hprovider, attemptRef, hattemptRef, (), hsubject, attempt,
    (hkept.attempt attemptRef attempt hattempt hmade).1, (), hunder, (), hbinding, (), hdigests, (),
    hlease, step, hkept.step attemptRef attempt hattempt hmade step hstep, actionRef, hactionRef,
    action, hactionKept action haction, (), hprovided, (), hran, observation, hdecoded, rfl⟩

theorem observationFromEvent_prepared {request : ObservationCommitRequest}
    {prepared : PreparedObservationCommit}
    (h : prepareObservationCommit digest now store request = .ok prepared) :
    observationFromEvent digest prepared.event = .ok prepared.observation := by
  simp only [prepareObservationCommit, Result.bind_eq_ok, Result.pure_eq_ok, orRaise_eq_ok] at h
  obtain ⟨_, -, _, -, _, -, dispatch, -, _, -, _, -, identity, -, _, -, requestRef, -, providerId,
    -, attemptRef, -, _, -, attempt, -, _, -, _, -, _, -, _, -, step, -, actionRef, -, action, -,
    _, -, _, -, observation, hdecoded, rfl⟩ := h
  exact hdecoded

/-! ## Dispositions -/

/-- The policy declares no action, or this one. -/
def Declares (policy : Recovery.Policy) (action : RecoveryDispositionAction) : Prop :=
  declaredPolicyAction policy = .ok none ∨ declaredPolicyAction policy = .ok (some action)

/-! ## Applications -/

/-- The references of an application that are written as they are stored. -/
def Application.storedRefs (a : Application) : List String :=
  [a.sourceAttemptRef, a.sourceStepRef, a.sourceActionRef, a.sourceRunRef, a.sourceWorkRef]

theorem RecoveryApplicationKind.text_injective {a b : RecoveryApplicationKind}
    (h : a.text = b.text) : a = b := by
  cases a <;> cases b <;> first | rfl | exact absurd h (by decide)

/-- What is so of every application that was prepared. -/
structure WellPrepared (digest : Json → String) (dispositionRef : String) (a : Application) :
    Prop where
  id : a.id = applicationId digest dispositionRef
  ref : a.dispositionRef = dispositionRef
  retry : a.applicationKind = .retryRequest → ∃ key, a.idempotencyKey = some key ∧ key ≠ ""
  other : a.applicationKind ≠ .retryRequest → a.idempotencyKey = none
  dispatch : Plain a.sourceDispatchRef
  request : Plain a.sourceRequestRef
  provider : Plain a.sourceProviderId

theorem wellPrepared {dispositionRef : String} {a : Application}
    (h : prepareApplication digest now store dispositionRef = .ok a) :
    WellPrepared digest dispositionRef a := by
  rw [prepareApplication, Result.bind_eq_ok] at h
  obtain ⟨⟨d, basis, attempt⟩, hsource, h⟩ := h
  rw [reconstructSource, Result.bind_eq_ok] at hsource
  obtain ⟨event, -, hsource⟩ := hsource
  obtain ⟨d', -, hsource⟩ := Result.bind_eq_ok.mp hsource
  obtain ⟨basis', hbasis, hsource⟩ := Result.bind_eq_ok.mp hsource
  obtain ⟨-, hsource⟩ := Result.check_eq_ok.mp hsource
  obtain ⟨attempt', -, hsource⟩ := Result.bind_eq_ok.mp hsource
  obtain ⟨rfl, hsame⟩ := Prod.mk.inj (Result.pure_eq_ok.mp hsource)
  obtain ⟨rfl, rfl⟩ := Prod.mk.inj hsame
  obtain ⟨hdispatch, -, graph, hgraph, hnamed⟩ := graph_of_basis hbasis
  obtain ⟨-, -, hrequest, hprovider⟩ := graphOf_of_reconstruct hgraph
  obtain ⟨hkey, h⟩ := Result.check_eq_ok.mp h
  obtain rfl := Result.pure_eq_ok.mp h
  rw [guardValue_eq_ok] at hkey
  refine ⟨rfl, rfl, fun hkind => ?_, fun hkind => if_neg hkind, hdispatch, ?_, ?_⟩
  · have hkind : d'.action.applicationKind = .retryRequest := hkind
    cases hattempt : attempt'.idempotencyKey with
    | none => simp [hkind, hattempt] at hkey
    | some key =>
      refine ⟨key, if_pos hkind, ?_⟩
      rintro rfl
      simp [hkind, hattempt] at hkey
  · show Plain basis'.requestRef
    rw [hnamed.request]
    exact hrequest
  · show Plain basis'.providerId
    rw [hnamed.provider]
    exact hprovider

/-- The decoder strips the references that it reads. -/
theorem plain_of_decoded {event : Event} {a : Application}
    (h : applicationFromEvent digest event = .ok a) : ∀ ref ∈ a.storedRefs, Plain ref := by
  simp only [applicationFromEvent, Result.bind_eq_ok, Result.pure_eq_ok] at h
  obtain ⟨_, -, _, -, _, -, dispositionRef, -, kind, -, _, -, _, -, _, -, _, -, dispatch, -,
    attempt, hattempt, step, hstep, action, haction, request, -, provider, -, run, hrun, work,
    hwork, rfl⟩ := h
  intro ref href
  simp only [Application.storedRefs, List.mem_cons, List.not_mem_nil, or_false] at href
  rcases href with rfl | rfl | rfl | rfl | rfl
  · exact plain_of_requiredString hattempt
  · exact plain_of_requiredString hstep
  · exact plain_of_requiredString haction
  · exact plain_of_requiredString hrun
  · exact plain_of_requiredString hwork

/-- An application that was prepared decodes as itself exactly when its stored references are
plain: the decoder strips them. -/
theorem applicationFromEvent_event {dispositionRef : String} {a : Application}
    (hplain : Plain dispositionRef) (h : WellPrepared digest dispositionRef a) :
    applicationFromEvent digest (a.event now) = .ok a ↔ ∀ ref ∈ a.storedRefs, Plain ref := by
  constructor
  · exact plain_of_decoded
  · intro hrefs
    obtain ⟨id, ref, kind, dispatch, attempt, step, action, request, provider, run, work, key⟩ := a
    obtain ⟨hid, href, hretry, hother, hdispatch, hrequest, hprovider⟩ := h
    obtain rfl : ref = dispositionRef := href
    obtain rfl : id = applicationId digest ref := hid
    have hstored {s : String} (hmem : s ∈ [attempt, step, action, run, work]) {name : String} :
        requiredString "RecoveryApplication" (.str s) name = .ok s :=
      requiredString_plain.mpr (hrefs s hmem)
    have hkind : kind ∈ RecoveryApplicationKind.all := by cases kind <;> decide
    simp only [applicationFromEvent, Result.bind_eq_ok, Result.pure_eq_ok]
    have hretried (value : String) (hcarried : key = some value) : kind = .retryRequest := by
      by_cases hkind : kind = .retryRequest
      · exact hkind
      · exact absurd (hcarried.symm.trans (hother hkind)) (by simp)
    have hnonempty (value : String) (hcarried : key = some value) : value ≠ "" := by
      obtain ⟨value', hvalue', hne⟩ := hretry (hretried value hcarried)
      obtain rfl := Option.some.inj (hcarried.symm.trans hvalue')
      exact hne
    have hunretried (hcarried : key = none) : kind ≠ .retryRequest := by
      intro hkind
      obtain ⟨value, hvalue, -⟩ := hretry hkind
      exact absurd (hcarried.symm.trans hvalue) (by simp)
    have hkey : Fields.get (Application.event now ⟨applicationId digest ref, ref, kind, dispatch,
        attempt, step, action, request, provider, run, work, key⟩).payload "idempotency_key" =
          .ofOption key := rfl
    refine ⟨(), rfl, (), rfl, (), rfl, ref, requiredString_plain.mpr hplain, kind,
      memberOf_text RecoveryApplicationKind.text_injective hkind, (), ?_, (), ?_, (), ?_, (), ?_,
      dispatch, requiredString_plain.mpr hdispatch, attempt, hstored (by simp), step,
      hstored (by simp), action, hstored (by simp), request, requiredString_plain.mpr hrequest,
      provider, requiredString_plain.mpr hprovider, run, hstored (by simp), work,
      hstored (by simp), ?_⟩
    · rw [guardValue_eq_ok, Bool.and_eq_true]
      exact ⟨beq_self_eq_true _, beq_self_eq_true _⟩
    · rw [hkey]
      cases hcarried : key with
      | none => rfl
      | some value => simp [guardValue, Json.ofOption, Json.asStr?, hnonempty value hcarried]
    · rw [hkey]
      cases hcarried : key with
      | none => simp [guardValue, hunretried hcarried]
      | some value => simp [guardValue, Json.ofOption]
    · rw [hkey]
      cases hcarried : key with
      | none => simp [guardValue, Json.ofOption]
      | some value => simp [guardValue, hretried value hcarried]
    · rw [hkey]
      cases key with
      | none => rfl
      | some value => rfl

end Recovery

namespace MemoryStore

open Recovery

/-! ## The commits -/

/-- Atomically commit or replay one recovery observation. -/
def commitRecoveryObservation (digest : Json → String) (now : Time) (st : MemoryStore)
    (request : ObservationCommitRequest) : Result (Observation × MemoryStore) := do
  let prepared ← prepareObservationCommit digest now st.recoveryReader request
  match st.getEvent prepared.event.id with
  | some existing =>
    guardValue (sameEvent existing prepared.event) "RecoveryObservation identity rebound"
    return (← observationFromEvent digest existing, st)
  | none =>
    return (prepared.observation, ← st.appendEventAs (some .recoveryObservation) prepared.event)

/-- The events of this kind are where they were. -/
def StillRecorded (st st' : MemoryStore) (kind : Event → Prop) : Prop :=
  ∀ id event, st.getEvent id = some event → kind event → st'.getEvent id = some event

/-- What a commit found or wrote under an identity. -/
structure Journaled (st st' : MemoryStore) (id : String) (event : Event) : Prop where
  stored : st'.getEvent id = some event
  written : st' = st ∨ st.getEvent event.id = none ∧ st' = st.save .event event

variable {digest : Json → String} {now later : Time} {st st' st₂ : MemoryStore}

theorem Journaled.grows {id : String} {event : Event} (h : Journaled st st' id event) :
    Grows st.recoveryReader st'.recoveryReader := by
  rcases h.written with rfl | ⟨hnew, rfl⟩
  · exact ⟨rfl, fun _ _ he => he⟩
  · exact grows_save hnew

theorem journaled_of_append {authority : Option CommitAuthority} {event : Event}
    (hnew : st.getEvent event.id = none) (h : st.appendEventAs authority event = .ok st') :
    Journaled st st' event.id event := by
  rcases appendEventAs_eq_ok h with ⟨existing, hget, -, -⟩ | ⟨-, rfl⟩
  · exact absurd (hnew.symm.trans hget) (by simp)
  · exact ⟨by rw [getEvent_save, if_pos rfl], .inr ⟨hnew, rfl⟩⟩

/-! ### Observations -/

theorem commitRecoveryObservation_eq_ok {request : ObservationCommitRequest} {o : Observation}
    (h : st.commitRecoveryObservation digest now request = .ok (o, st')) :
    ∃ prepared event, prepareObservationCommit digest now st.recoveryReader request = .ok prepared ∧
      observationFromEvent digest event = .ok o ∧ sameEvent event prepared.event = true ∧
      Journaled st st' prepared.event.id event := by
  rw [commitRecoveryObservation, Result.bind_eq_ok] at h
  obtain ⟨prepared, hprepared, h⟩ := h
  cases hget : st.getEvent prepared.event.id with
  | some existing =>
    simp only [hget] at h
    obtain ⟨hsame, h⟩ := Result.check_eq_ok.mp h
    obtain ⟨decoded, hdecoded, h⟩ := Result.bind_eq_ok.mp h
    obtain ⟨rfl, rfl⟩ := Prod.mk.inj (Result.pure_eq_ok.mp h)
    exact ⟨prepared, existing, hprepared, hdecoded, guardValue_eq_ok.mp hsame, hget, .inl rfl⟩
  | none =>
    simp only [hget] at h
    obtain ⟨st₁, happend, h⟩ := Result.bind_eq_ok.mp h
    obtain ⟨rfl, rfl⟩ := Prod.mk.inj (Result.pure_eq_ok.mp h)
    exact ⟨prepared, prepared.event, hprepared, observationFromEvent_prepared hprepared,
      Fields.pyEq_refl _, journaled_of_append hget happend⟩

theorem commitRecoveryObservation_again {request : ObservationCommitRequest} {o : Observation}
    (h : st.commitRecoveryObservation digest now request = .ok (o, st'))
    (hkept : DispatchKept st.recoveryReader st₂.recoveryReader
      (Text.strip request.dispatchCommitRef))
    (hstill : StillRecorded st' st₂ (fun event => observationFromEvent digest event = .ok o)) :
    st₂.commitRecoveryObservation digest later request = .ok (o, st₂) := by
  obtain ⟨prepared, event, hprepared, hdecoded, hsame, hjournaled⟩ :=
    commitRecoveryObservation_eq_ok h
  have hstored : st₂.getEvent (prepared.createdAt later).event.id = some event :=
    hstill _ event hjournaled.stored hdecoded
  have hlater : sameEvent event (prepared.createdAt later).event = true := by
    rw [sameEvent, PreparedObservationCommit.createdAt, Event.pop_createdAt]
    exact hsame
  rw [commitRecoveryObservation, Result.bind_eq_ok]
  refine ⟨_, hkept.observation later hprepared, ?_⟩
  simp only [hstored]
  exact Result.check_eq_ok.mpr ⟨guardValue_eq_ok.mpr hlater, Result.bind_eq_ok.mpr
    ⟨o, hdecoded, rfl⟩⟩

/-! ### Dispositions -/

theorem commitRecoveryDisposition_eq_ok {request : DispositionCommitRequest}
    {policy : Recovery.Policy} {d : Recovery.Disposition}
    (h : st.commitRecoveryDisposition digest now request policy = .ok (d, st')) :
    ∃ basis event,
      reconstructDispositionBasis digest now st.recoveryReader request = .ok basis ∧
      dispositionFromEvent digest event = .ok d ∧ d.basisKey = basis.basisKey ∧
      Journaled st st' (dispositionId basis.basisKey) event ∧
      (st.getEvent (dispositionId basis.basisKey) = none ∨
        st.getEvent (dispositionId basis.basisKey) = some event ∧ Declares policy d.action) := by
  obtain ⟨plan, hplan, h⟩ := Result.bind_eq_ok.mp h
  rw [prepareDispositionCommit, Result.bind_eq_ok] at hplan
  obtain ⟨basis, hbasis, hplan⟩ := hplan
  replace hplan : (match st.getEvent (dispositionId basis.basisKey) with
    | some existing => _
    | none => _) = Except.ok plan := hplan
  cases hget : st.getEvent (dispositionId basis.basisKey) with
  | some existing =>
    rw [hget] at hplan
    obtain ⟨durable, hdecoded, hplan⟩ := Result.bind_eq_ok.mp hplan
    obtain ⟨hkey, hplan⟩ := Result.check_eq_ok.mp hplan
    obtain ⟨declared, hdeclared, hplan⟩ := Result.bind_eq_ok.mp hplan
    rw [Result.check_eq_ok, Result.pure_eq_ok, guardValue_eq_ok] at hplan
    obtain ⟨hagrees, rfl⟩ := hplan
    obtain ⟨rfl, rfl⟩ := Prod.mk.inj (Result.pure_eq_ok.mp h)
    rw [guardValue_eq_ok, beq_iff_eq] at hkey
    refine ⟨basis, existing, hbasis, hdecoded, hkey, ⟨hget, .inl rfl⟩, .inr ⟨hget, ?_⟩⟩
    cases declared with
    | none => exact .inl hdeclared
    | some action =>
      obtain rfl : action = durable.action := eq_of_beq hagrees
      exact .inr hdeclared
  | none =>
    rw [hget] at hplan
    obtain ⟨prepared, hprepared, hplan⟩ := Result.bind_eq_ok.mp hplan
    obtain rfl := Result.pure_eq_ok.mp hplan
    obtain ⟨event, hevent, h⟩ := Result.bind_eq_ok.mp h
    obtain ⟨st₁, happend, h⟩ := Result.bind_eq_ok.mp h
    obtain ⟨rfl, rfl⟩ := Prod.mk.inj (Result.pure_eq_ok.mp h)
    obtain rfl : prepared.event = event := Option.some.inj (orRaise_eq_ok.mp hevent)
    have hdecoded := dispositionFromEvent_prepared (rebuilt_of_reconstruct hbasis) hprepared
    have hid : prepared.event.id = dispositionId basis.basisKey ∧
        prepared.disposition.basisKey = basis.basisKey := by
      obtain ⟨action, -, hprepared⟩ := Result.bind_eq_ok.mp hprepared
      obtain rfl := Result.pure_eq_ok.mp hprepared
      exact ⟨rfl, rfl⟩
    have hnone := hget
    rw [← hid.1] at hget
    exact ⟨basis, prepared.event, hbasis, hdecoded, hid.2,
      hid.1 ▸ journaled_of_append hget happend, .inl hnone⟩

/-- The policy is not asked: whatever it would decide now does not count. -/
theorem commitRecoveryDisposition_again {request : DispositionCommitRequest}
    {policy : Recovery.Policy} {d : Recovery.Disposition}
    (h : st.commitRecoveryDisposition digest now request policy = .ok (d, st'))
    (hkept : BasisKept st.recoveryReader st₂.recoveryReader request)
    (hstill : StillRecorded st' st₂ (fun event => dispositionFromEvent digest event = .ok d))
    (hdeclares : Declares policy d.action)
    (decide : Option (DispositionBasis → Result Json)) :
    st₂.commitRecoveryDisposition digest later request { policy with decide := decide } =
      .ok (d, st₂) := by
  obtain ⟨basis, event, hbasis, hdecoded, hkey, hjournaled, -⟩ := commitRecoveryDisposition_eq_ok h
  have hstored : st₂.getEvent (dispositionId basis.basisKey) = some event :=
    hstill _ event hjournaled.stored hdecoded
  have hdeclared : ∃ declared, declaredPolicyAction { policy with decide := decide } =
      .ok declared ∧ declared.all (· == d.action) = true := by
    rcases hdeclares with hnone | hsome
    · exact ⟨none, hnone, rfl⟩
    · exact ⟨some d.action, hsome, beq_self_eq_true d.action⟩
  obtain ⟨declared, hdeclared, hagrees⟩ := hdeclared
  rw [commitRecoveryDisposition, Result.bind_eq_ok]
  refine ⟨{ disposition := d, event := none, replayed := true }, ?_, rfl⟩
  rw [prepareDispositionCommit, Result.bind_eq_ok]
  refine ⟨basis, hkept.basis later hbasis, ?_⟩
  show (match st₂.getEvent (dispositionId basis.basisKey) with
    | some existing => _
    | none => _) = _
  rw [hstored]
  exact Result.bind_eq_ok.mpr ⟨d, hdecoded, Result.check_eq_ok.mpr
    ⟨guardValue_eq_ok.mpr (beq_iff_eq.mpr hkey), Result.bind_eq_ok.mpr ⟨declared, hdeclared,
      Result.check_eq_ok.mpr ⟨guardValue_eq_ok.mpr hagrees, rfl⟩⟩⟩⟩

/-- A policy that declares another action than the recorded one is refused. -/
theorem commitRecoveryDisposition_refused {request : DispositionCommitRequest}
    {policy : Recovery.Policy} {d : Recovery.Disposition}
    (h : st.commitRecoveryDisposition digest now request policy = .ok (d, st'))
    (hdeclares : ¬ Declares policy d.action) :
    ∀ later d' st₂, st'.commitRecoveryDisposition digest later request policy ≠ .ok (d', st₂) := by
  intro later d' st₂ hagain
  obtain ⟨basis, event, hbasis, hdecoded, -, hjournaled, -⟩ := commitRecoveryDisposition_eq_ok h
  obtain ⟨basis', event', hbasis', hdecoded', -, -, hreplay⟩ :=
    commitRecoveryDisposition_eq_ok hagain
  have hsame := (hjournaled.grows.basis request).basis later hbasis
  obtain rfl := Except.ok.inj (hsame.symm.trans hbasis')
  rcases hreplay with hnone | ⟨hfound, hdeclared⟩
  · exact absurd (hnone.symm.trans hjournaled.stored) (by simp)
  · obtain rfl := Option.some.inj (hfound.symm.trans hjournaled.stored)
    obtain rfl := Except.ok.inj (hdecoded.symm.trans hdecoded')
    exact hdeclares hdeclared

/-! ### Applications -/

theorem commitRecoveryApplication_eq_ok {dispositionRef : String} {a : Application}
    (h : st.commitRecoveryApplication digest now dispositionRef = .ok (a, st')) :
    requiredString "RecoveryApplication" (.str dispositionRef) "disposition_ref" =
        .ok (Text.strip dispositionRef) ∧
      prepareApplication digest now st.recoveryReader (Text.strip dispositionRef) = .ok a ∧
      ∃ event, Journaled st st' a.id event ∧
        (applicationFromEvent digest event = .ok a ∨
          event = a.event now ∧ st.getEvent a.id = none) := by
  obtain ⟨plan, hplan, h⟩ := Result.bind_eq_ok.mp h
  rw [prepareApplicationCommit, Result.bind_eq_ok] at hplan
  obtain ⟨ref, href, hplanned⟩ := hplan
  obtain ⟨expected, hexpected, hplan⟩ := Result.bind_eq_ok.mp hplanned
  clear hplanned
  obtain ⟨raw, hraw, -, rfl⟩ := requiredString_eq_ok.mp href
  obtain rfl := Json.str.inj hraw
  replace hplan : (match st.getEvent expected.id with
    | some existing => _
    | none => _) = Except.ok plan := hplan
  cases hget : st.getEvent expected.id with
  | some existing =>
    rw [hget] at hplan
    obtain ⟨durable, hdecoded, hplan⟩ := Result.bind_eq_ok.mp hplan
    rw [Result.check_eq_ok, guardValue_eq_ok, beq_iff_eq, Result.pure_eq_ok] at hplan
    obtain ⟨rfl, rfl⟩ := hplan
    obtain ⟨rfl, rfl⟩ := Prod.mk.inj (Result.pure_eq_ok.mp h)
    exact ⟨href, hexpected, existing, ⟨hget, .inl rfl⟩, .inl hdecoded⟩
  | none =>
    rw [hget] at hplan
    obtain rfl := Result.pure_eq_ok.mp hplan
    obtain ⟨event, hevent, h⟩ := Result.bind_eq_ok.mp h
    obtain ⟨st₁, happend, h⟩ := Result.bind_eq_ok.mp h
    obtain ⟨rfl, rfl⟩ := Prod.mk.inj (Result.pure_eq_ok.mp h)
    obtain rfl : expected.event now = event := Option.some.inj (orRaise_eq_ok.mp hevent)
    exact ⟨href, hexpected, expected.event now, journaled_of_append hget happend,
      .inr ⟨rfl, hget⟩⟩

theorem decodes_of_plain {dispositionRef ref label : String} {a : Application} {event : Event}
    (hnormal : requiredString "RecoveryApplication" (.str dispositionRef) label = .ok ref)
    (hprepared : prepareApplication digest now st.recoveryReader ref = .ok a)
    (hplain : ∀ ref ∈ a.storedRefs, Plain ref)
    (hevent : applicationFromEvent digest event = .ok a ∨
      event = a.event now ∧ st.getEvent a.id = none) :
    applicationFromEvent digest event = .ok a := by
  rcases hevent with hdecoded | ⟨rfl, -⟩
  · exact hdecoded
  · exact (applicationFromEvent_event (plain_of_requiredString hnormal)
      (wellPrepared hprepared)).mpr hplain

theorem commitRecoveryApplication_again {dispositionRef : String} {a : Application}
    (h : st.commitRecoveryApplication digest now dispositionRef = .ok (a, st'))
    (hplain : ∀ ref ∈ a.storedRefs, Plain ref)
    (hkept : SourceKept digest st.recoveryReader st₂.recoveryReader (Text.strip dispositionRef))
    (hstill : StillRecorded st' st₂ (fun event => applicationFromEvent digest event = .ok a)) :
    st₂.commitRecoveryApplication digest later dispositionRef = .ok (a, st₂) := by
  obtain ⟨hnormal, hprepared, event, hjournaled, hevent⟩ := commitRecoveryApplication_eq_ok h
  have hdecoded := decodes_of_plain hnormal hprepared hplain hevent
  have hstored : st₂.getEvent a.id = some event := hstill _ event hjournaled.stored hdecoded
  rw [commitRecoveryApplication, Result.bind_eq_ok]
  refine ⟨{ application := a, event := none, replayed := true }, ?_, rfl⟩
  rw [prepareApplicationCommit, Result.bind_eq_ok]
  refine ⟨_, hnormal, Result.bind_eq_ok.mpr ⟨a, hkept.application later hprepared, ?_⟩⟩
  show (match st₂.getEvent a.id with
    | some existing => _
    | none => _) = _
  rw [hstored]
  exact Result.bind_eq_ok.mpr ⟨a, hdecoded, Result.check_eq_ok.mpr
    ⟨guardValue_eq_ok.mpr (beq_self_eq_true a), rfl⟩⟩

/-- An application whose references are not plain is recorded, and then refused. -/
theorem commitRecoveryApplication_refused {dispositionRef : String} {a : Application}
    (h : st.commitRecoveryApplication digest now dispositionRef = .ok (a, st'))
    (hrefs : ¬ ∀ ref ∈ a.storedRefs, Plain ref) :
    (∃ event, st'.getEvent a.id = some event ∧ applicationFromEvent digest event ≠ .ok a) ∧
      ∀ later b st₂, st'.commitRecoveryApplication digest later dispositionRef ≠ .ok (b, st₂) := by
  obtain ⟨-, hprepared, event, hjournaled, -⟩ := commitRecoveryApplication_eq_ok h
  refine ⟨⟨event, hjournaled.stored, fun hdecoded => hrefs (plain_of_decoded hdecoded)⟩, ?_⟩
  intro later b st₂ hagain
  obtain ⟨-, hprepared', event', -, hevent'⟩ := commitRecoveryApplication_eq_ok hagain
  have hkept : SourceKept digest st.recoveryReader st'.recoveryReader (Text.strip dispositionRef) :=
    hjournaled.grows.source _
  have hsame := hkept.application later hprepared
  obtain rfl := Except.ok.inj (hsame.symm.trans hprepared')
  rcases hevent' with hdecoded | ⟨-, hnone⟩
  · exact hrefs (plain_of_decoded hdecoded)
  · exact absurd (hnone.symm.trans hjournaled.stored) (by simp)

/-! ## Recovery commits, as a whole -/

/-- Every recovery commit leaves under the identity of what it returns an event, found there or the
one it has appended, that decodes as what it returns; of an application, where its stored references
are plain.  While the sources and the event are as they were, the call made again returns the same
and writes nothing.  A disposition is then replayed without asking the policy, if the policy
declares no action or the recorded one. -/
theorem recovery_commits_replay (digest : Json → String) (now : Time) (st : MemoryStore) :
    (∀ request o st', st.commitRecoveryObservation digest now request = .ok (o, st') →
      (∃ event, Journaled st st' o.id event ∧ observationFromEvent digest event = .ok o) ∧
      ∀ st₂ later,
        DispatchKept st.recoveryReader st₂.recoveryReader (Text.strip request.dispatchCommitRef) →
        StillRecorded st' st₂ (fun event => observationFromEvent digest event = .ok o) →
        st₂.commitRecoveryObservation digest later request = .ok (o, st₂)) ∧
    (∀ request policy d st', st.commitRecoveryDisposition digest now request policy = .ok (d, st') →
      (∃ event, Journaled st st' d.id event ∧ dispositionFromEvent digest event = .ok d) ∧
      ∀ st₂ later decide, BasisKept st.recoveryReader st₂.recoveryReader request →
        StillRecorded st' st₂ (fun event => dispositionFromEvent digest event = .ok d) →
        Declares policy d.action →
        st₂.commitRecoveryDisposition digest later request { policy with decide := decide } =
          .ok (d, st₂)) ∧
    ∀ dispositionRef a st',
      st.commitRecoveryApplication digest now dispositionRef = .ok (a, st') →
      (∀ ref ∈ a.storedRefs, Plain ref) →
      (∃ event, Journaled st st' a.id event ∧ applicationFromEvent digest event = .ok a) ∧
      ∀ st₂ later,
        SourceKept digest st.recoveryReader st₂.recoveryReader (Text.strip dispositionRef) →
        StillRecorded st' st₂ (fun event => applicationFromEvent digest event = .ok a) →
        st₂.commitRecoveryApplication digest later dispositionRef = .ok (a, st₂) := by
  refine ⟨fun request o st' h => ⟨?_, ?_⟩, fun request policy d st' h => ⟨?_, ?_⟩,
    fun dispositionRef a st' h hplain => ⟨?_, ?_⟩⟩
  · obtain ⟨prepared, event, -, hdecoded, hsame, hjournaled⟩ := commitRecoveryObservation_eq_ok h
    have hid : o.id = prepared.event.id :=
      (observationFromEvent_facts hdecoded).2.1.trans (sameEvent_fields hsame).1
    exact ⟨event, hid ▸ hjournaled, hdecoded⟩
  · exact fun st₂ later hkept hstill => commitRecoveryObservation_again h hkept hstill
  · obtain ⟨basis, event, -, hdecoded, hkey, hjournaled, -⟩ := commitRecoveryDisposition_eq_ok h
    have hid : d.id = dispositionId basis.basisKey :=
      (dispositionFromEvent_facts hdecoded).2.2.trans (congrArg dispositionId hkey)
    exact ⟨event, hid ▸ hjournaled, hdecoded⟩
  · exact fun st₂ later decide hkept hstill hdeclares =>
      commitRecoveryDisposition_again h hkept hstill hdeclares decide
  · obtain ⟨hnormal, hprepared, event, hjournaled, hevent⟩ := commitRecoveryApplication_eq_ok h
    exact ⟨event, hjournaled, decodes_of_plain hnormal hprepared hplain hevent⟩
  · exact fun st₂ later hkept hstill => commitRecoveryApplication_again h hplain hkept hstill

/-! ### Commits made again at once, and calls that are refused -/

/-- The store that a call leaves. -/
def leftBy {α : Type} (st : MemoryStore) (call : MemoryStore → Result (α × MemoryStore)) :
    MemoryStore :=
  match call st with
  | .ok (_, st') => st'
  | .error _ => st

/-- The dispatch of the deployment. -/
def deployDispatch : Event :=
  { id := "dispatch_00", createdAt := 0, type := Governance.dispatchCommitEvent,
    subjectRef := "request_1",
    payload := [("schema", .str Governance.dispatchCommitSchema), ("request_id", .str "request_1"),
      ("provider_id", .str "provider_1"), ("attempt_ref", .str "attempt_1"),
      ("lease_generation", .int 0), ("linearization_domain", .str "authoritative-state-store")] }

def deployPolled (stepRef : String) : Event :=
  { id := "recovery_observation_00", createdAt := 3, type := recoveryObservationEvent,
    subjectRef := "dispatch_00",
    payload := [("schema", .str recoveryObservationSchema),
      ("semantic_level", .str "recovery-observation"), ("authoritative_outcome", .bool false),
      ("observation_instance_ref", .str "poll_1"), ("dispatch_commit_ref", .str "dispatch_00"),
      ("action_ref", .str "action_1"), ("attempt_ref", .str "attempt_1"),
      ("step_ref", .str stepRef), ("request_ref", .str "request_1"),
      ("provider_id", .str "provider_1"), ("idempotency_key", .null),
      ("observation_source", .str "poll"), ("reported_status", .str "reported-unknown"),
      ("provenance_refs", .arr [])] }

/-- The deployment under a step with this id, dispatched, observed and verified. -/
def deployObserved (stepRef : String) : MemoryStore :=
  let attempt : StepAttempt := { deployAttempt with
    stepId := stepRef
    metadata := [("dispatch_commit_ref", .str "dispatch_00"), ("action_ref", .str "action_1")] }
  let executed := (((((empty.save .work deployWork).save .run deployRun).save .step
    { deployStep with id := stepRef }).save .attempt attempt).save .action deployAction).save
      .record deployProof
  ((executed.save .event deployDispatch).save .event (deployPolled stepRef)).step (fun _ => "00")
    (4, .commitVerifiedOutcome deployRequest)

def deployBasis : DispositionCommitRequest :=
  { dispatchCommitRef := "dispatch_00", observationRefs := ["recovery_observation_00"],
    outcomeRefs := ["outcome_verified_00"], policyRef := "policy_1" }

/-- A policy that reconciles, whatever it declares. -/
def reconciling (declared : Json) : Recovery.Policy :=
  { decide := some (fun _ => .ok (.str "reconcile-again")), action := declared }

def deployDecided (stepRef : String) (declared : Json) : MemoryStore :=
  (deployObserved stepRef).leftBy
    (commitRecoveryDisposition (fun _ => "00") 5 · deployBasis (reconciling declared))

/-- The outcome is written again under its next version. -/
def deployOutcomeRewritten : MemoryStore :=
  match (deployDecided "step_1" .null).getRecord "outcome_verified_00" with
  | some o => (deployDecided "step_1" .null).step (fun _ => "00")
      (5, .compareAndSwap .record "outcome_verified_00" 1 { o with version := 2 })
  | none => deployDecided "step_1" .null

theorem records_compareAndSwap_of_ne {k k' : Kind} (hk : k' ≠ k) (id : String) (expected : Int)
    (v : Model k) :
    (st.step digest (now, .compareAndSwap k id expected v)).records k' = st.records k' := by
  rw [step]
  cases hcall : st.call digest now (.compareAndSwap k id expected v) with
  | error e => rfl
  | ok st' =>
    obtain ⟨b, hcas⟩ := call_compareAndSwap_eq_ok hcall
    rcases compareAndSwap_eq_ok hcas with ⟨-, rfl⟩ | ⟨-, existing, -, -, -, -, rfl⟩
    · rfl
    · exact records_put_of_ne st hk id v

theorem records_deployOutcomeRewritten {k : Kind} (hk : k ≠ .record) :
    deployOutcomeRewritten.records k = (deployDecided "step_1" .null).records k := by
  unfold deployOutcomeRewritten
  split
  · exact records_compareAndSwap_of_ne hk _ _ _
  · rfl

set_option maxRecDepth 10000 in
theorem deployObserved_accepted :
    ((deployObserved "step_1").commitRecoveryDisposition (fun _ => "00") 5 deployBasis
      (reconciling .null)).isOk = true := by
  decide

/-- A disposition is replayed by a policy that could not be asked. -/
theorem recovery_commits_replay_deploy :
    ∃ d st', (deployObserved "step_1").commitRecoveryDisposition (fun _ => "00") 5 deployBasis
        (reconciling .null) = .ok (d, st') ∧
      st'.commitRecoveryDisposition (fun _ => "00") 6 deployBasis { decide := none } =
        .ok (d, st') := by
  obtain ⟨⟨d, st'⟩, hcommit⟩ := Result.exists_of_isOk deployObserved_accepted
  obtain ⟨basis, event, -, -, -, hjournaled, -⟩ := commitRecoveryDisposition_eq_ok hcommit
  obtain ⟨-, hagain⟩ := (recovery_commits_replay (fun _ => "00") 5 (deployObserved "step_1")).2.1
    deployBasis (reconciling .null) d st' hcommit
  exact ⟨d, st', hcommit, hagain st' 6 none (hjournaled.grows.basis deployBasis)
    (fun _ _ he _ => he) (.inl rfl)⟩

set_option maxRecDepth 10000 in
theorem deployObserved_disposition :
    ∃ d st', (deployObserved "step_1").commitRecoveryDisposition (fun _ => "00") 5 deployBasis
        (reconciling (.str "hold-unresolved")) = .ok (d, st') ∧
      ∀ later d' st₂, st'.commitRecoveryDisposition (fun _ => "00") later deployBasis
        (reconciling (.str "hold-unresolved")) ≠ .ok (d', st₂) := by
  have haction : ((deployObserved "step_1").commitRecoveryDisposition (fun _ => "00") 5 deployBasis
      (reconciling (.str "hold-unresolved"))).map (fun r => r.1.action) = .ok .reconcileAgain := by
    decide
  obtain ⟨⟨d, st'⟩, hcommit, haction⟩ := Result.map_eq_ok.mp haction
  have haction : d.action = .reconcileAgain := haction
  refine ⟨d, st', hcommit, commitRecoveryDisposition_refused hcommit ?_⟩
  rw [haction]
  rintro (hnone | hother)
  · exact absurd hnone (by decide)
  · exact absurd hother (by decide)

set_option maxRecDepth 10000 in
/-- A step id with blanks around it is recorded, and decodes as another one. -/
theorem deployDecided_application :
    ∃ a st', (deployDecided " step_1 " .null).commitRecoveryApplication (fun _ => "00") 6
        "recovery_disposition_00" = .ok (a, st') ∧ a.sourceStepRef = " step_1 " ∧
      (∃ event, st'.getEvent a.id = some event ∧
        applicationFromEvent (fun _ => "00") event ≠ .ok a) ∧
      ∀ later b st₂, st'.commitRecoveryApplication (fun _ => "00") later
        "recovery_disposition_00" ≠ .ok (b, st₂) := by
  have hstep : ((deployDecided " step_1 " .null).commitRecoveryApplication (fun _ => "00") 6
      "recovery_disposition_00").map (fun r => r.1.sourceStepRef) = .ok " step_1 " := by
    decide
  obtain ⟨⟨a, st'⟩, hcommit, hstep⟩ := Result.map_eq_ok.mp hstep
  have hstep : a.sourceStepRef = " step_1 " := hstep
  have hrefs : ¬ ∀ ref ∈ a.storedRefs, Plain ref := by
    intro hplain
    have hblank := (hplain a.sourceStepRef (by simp [Application.storedRefs])).2
    rw [hstep] at hblank
    exact absurd hblank (by decide)
  obtain ⟨hdecodes, hrefused⟩ := commitRecoveryApplication_refused hcommit hrefs
  exact ⟨a, st', hcommit, hstep, hdecodes, hrefused⟩

set_option maxRecDepth 10000 in
theorem deployOutcomeRewritten_again :
    (deployOutcomeRewritten.commitRecoveryDisposition (fun _ => "00") 6 deployBasis
      (reconciling .null)).map (fun r => r.1.id) =
        .error (.valueError "recovery disposition Outcome authority semantics mismatch") := by
  decide

/-- A policy whose declaration is not its decision is refused when it comes again; so is an
application of a step whose id has blanks around it, which decodes as another one; and so is a
disposition whose outcome was written again. -/
theorem recovery_commits_not_replayed :
    (∃ d st', (deployObserved "step_1").commitRecoveryDisposition (fun _ => "00") 5 deployBasis
        (reconciling (.str "hold-unresolved")) = .ok (d, st') ∧
      ∀ later d' st₂, st'.commitRecoveryDisposition (fun _ => "00") later deployBasis
        (reconciling (.str "hold-unresolved")) ≠ .ok (d', st₂)) ∧
    (∃ a st', (deployDecided " step_1 " .null).commitRecoveryApplication (fun _ => "00") 6
        "recovery_disposition_00" = .ok (a, st') ∧ a.sourceStepRef = " step_1 " ∧
      (∃ event, st'.getEvent a.id = some event ∧
        applicationFromEvent (fun _ => "00") event ≠ .ok a) ∧
      ∀ later b st₂, st'.commitRecoveryApplication (fun _ => "00") later
        "recovery_disposition_00" ≠ .ok (b, st₂)) ∧
    (((deployObserved "step_1").commitRecoveryDisposition (fun _ => "00") 5 deployBasis
        (reconciling .null)).isOk = true ∧
      (∀ k, k ≠ .record →
        deployOutcomeRewritten.records k = (deployDecided "step_1" .null).records k) ∧
      (deployOutcomeRewritten.commitRecoveryDisposition (fun _ => "00") 6 deployBasis
        (reconciling .null)).map (fun r => r.1.id) =
          .error (.valueError "recovery disposition Outcome authority semantics mismatch")) := by
  exact ⟨deployObserved_disposition, deployDecided_application, deployObserved_accepted,
    fun _ => records_deployOutcomeRewritten, deployOutcomeRewritten_again⟩

end MemoryStore
end PortableRuntime
