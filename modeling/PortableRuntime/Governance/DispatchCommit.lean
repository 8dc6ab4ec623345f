import PortableRuntime.Governance.UseAdmission
import PortableRuntime.Library.Run
import PortableRuntime.Stores.Journal
import PortableRuntime.Stores.PrecommitOrphans

/-!
# Dispatch commitments

One governed dispatch is bound to its attempt and written to the journal in one write scope
of the store.  The admission and the capture of the provider are whatever their owners answer.
-/

namespace PortableRuntime
namespace Governance

/-! ## Provider bindings -/

/-- Identity of one execution target that a registry configures. -/
structure ProviderExecutionBinding where
  id : String
  providerId : String
  configuredExecutionIdentity : String
  authoritativeConfigurationRef : String
  descriptorDigest : String
  bindingDigest : String
deriving DecidableEq

def ProviderExecutionBinding.dump (b : ProviderExecutionBinding) : Fields :=
  [("id", .str b.id), ("provider_id", .str b.providerId),
   ("configured_execution_identity", .str b.configuredExecutionIdentity),
   ("authoritative_configuration_ref", .str b.authoritativeConfigurationRef),
   ("descriptor_digest", .str b.descriptorDigest), ("binding_digest", .str b.bindingDigest)]

/-- Leave to repeat the reconciliation query of one request. -/
structure ReconciliationRepeatabilityAuthority where
  id : String
  contractRef : String
  providerExecutionBindingRef : String
  subjectModel : String := "request-id"
  subjectIdentity : String
  reconciliationProtocolIdentity : String
  reconciliationProtocolVersion : String
  repeatabilityMode : String := "repeat-safe"
  contractVersion : String
  contractDigest : String
  authorityDigest : String
deriving DecidableEq

def ReconciliationRepeatabilityAuthority.dump (a : ReconciliationRepeatabilityAuthority) : Fields :=
  [("id", .str a.id), ("contract_ref", .str a.contractRef),
   ("provider_execution_binding_ref", .str a.providerExecutionBindingRef),
   ("subject_model", .str a.subjectModel), ("subject_identity", .str a.subjectIdentity),
   ("reconciliation_protocol_identity", .str a.reconciliationProtocolIdentity),
   ("reconciliation_protocol_version", .str a.reconciliationProtocolVersion),
   ("repeatability_mode", .str a.repeatabilityMode), ("contract_version", .str a.contractVersion),
   ("contract_digest", .str a.contractDigest), ("authority_digest", .str a.authorityDigest)]

/-- What a registry captures for a provider and a subject: the live provider object, its
binding and, under a repeat-safe contract, the authority. -/
structure ExecutionTarget (π : Type) where
  provider : π
  binding : ProviderExecutionBinding
  authority : Option ReconciliationRepeatabilityAuthority := none

/-- `capture_reconciliation_execution_target`, with the provider that is expected. -/
abbrev CaptureTarget (π : Type) := String → String → Option π → Result (ExecutionTarget π)

/-- The provider object that this task fetched last, with the registry it came from. -/
structure ExecutionLookup (π : Type) where
  providerId : String
  provider : π
  capture : CaptureTarget π

/-! ## Identities -/

def dispatchCommitEvent : String := "InvocationDispatchCommitted"
def dispatchCommitSchema : String := "governance-dispatch-commit-v1"

/-- The facts of an issued permit that a dispatch records. -/
structure DispatchPermit extends InvocationPermit where
  requestDigest : String
  qualificationDigest : String
  providerId : String
  leaseGeneration : Int

/-- A ref that is present has to be a string with a visible character. -/
def identityRef (payload : Fields) (name message : String) : Result Fields :=
  match payload.get? name with
  | none => .ok []
  | some ref => do
    guardValue ref.isNonBlankStr message
    return [(name, ref)]

def dispatchCommitIdentityFromPayload (digest : Json → String) (payload : Fields) :
    Result String := do
  let bindingRef ← identityRef payload "provider_execution_binding_ref"
    "dispatch provider execution binding ref is malformed"
  let repeatabilityRef ← identityRef payload "reconciliation_repeatability_authority_ref"
    "dispatch reconciliation repeatability authority ref is malformed"
  return "dispatch_" ++ digest (.obj
    ([("schema", payload.get "schema"), ("request_id", payload.get "request_id"),
      ("provider_id", payload.get "provider_id"), ("attempt_id", payload.get "attempt_ref"),
      ("invocation_permit_digest", payload.get "invocation_permit_digest"),
      ("governance_requirement_digest", payload.get "governance_requirement_digest"),
      ("governance_snapshot_digest", payload.get "governance_snapshot_digest")] ++
      bindingRef ++ repeatabilityRef))

def dispatchCommitRef (digest : Json → String) (request : CapabilityRequest)
    (permit : DispatchPermit) (attemptId bindingRef repeatabilityRef : Option String) :
    Result String :=
  dispatchCommitIdentityFromPayload digest
    ([("schema", .str dispatchCommitSchema), ("request_id", .str request.id),
      ("provider_id", .str permit.providerId), ("attempt_ref", .ofOption attemptId),
      ("invocation_permit_digest", .str permit.requestDigest),
      ("governance_requirement_digest", .str permit.governanceRequirementDigest),
      ("governance_snapshot_digest", .str permit.governanceSnapshotDigest)] ++
      bindingRef.elim [] (fun ref => [("provider_execution_binding_ref", .str ref)]) ++
      repeatabilityRef.elim [] (fun ref =>
        [("reconciliation_repeatability_authority_ref", .str ref)]))

def dispatchPayload (request : CapabilityRequest) (permit : DispatchPermit)
    (attemptId : Option String) (binding : Option ProviderExecutionBinding)
    (authority : Option ReconciliationRepeatabilityAuthority) : Fields :=
  [("schema", .str dispatchCommitSchema), ("request_id", .str request.id),
   ("provider_id", .str permit.providerId), ("attempt_ref", .ofOption attemptId),
   ("invocation_permit_digest", .str permit.requestDigest),
   ("qualification_digest", .str permit.qualificationDigest),
   ("governance_requirement_digest", .str permit.governanceRequirementDigest),
   ("governance_snapshot_digest", .str permit.governanceSnapshotDigest),
   ("lease_generation", .int permit.leaseGeneration),
   ("linearization_domain", .str "authoritative-state-store")] ++
  binding.elim [] (fun b => [("provider_execution_binding_ref", .str b.id),
    ("provider_execution_binding", .obj b.dump)]) ++
  authority.elim [] (fun a => [("reconciliation_repeatability_authority_ref", .str a.id),
    ("reconciliation_repeatability_authority", .obj a.dump)])

/-- What an attempt records of the dispatch it is bound to. -/
def boundMetadata (metadata : Fields) (permit : DispatchPermit) (commitRef : String)
    (binding : Option ProviderExecutionBinding)
    (authority : Option ReconciliationRepeatabilityAuthority) : Fields :=
  let updates : Fields :=
    [("dispatch_commit_ref", .str commitRef),
     ("governance_requirement_digest", .str permit.governanceRequirementDigest),
     ("governance_snapshot_digest", .str permit.governanceSnapshotDigest),
     ("invocation_permit_digest", .str permit.requestDigest)] ++
    binding.elim [] (fun b => [("provider_execution_binding_ref", .str b.id)]) ++
    authority.elim [] (fun a => [("reconciliation_repeatability_authority_ref", .str a.id)])
  updates.foldl (fun metadata f => metadata.put f.1 f.2) metadata

/-- A ref that is there may be kept, never replaced. -/
def checkRebinding (existing : Json) (commitRef : String) : Result Unit :=
  match existing with
  | .null => .ok ()
  | .arr _ => .error (.typeError "unhashable type: 'list'")
  | .obj _ => .error (.typeError "unhashable type: 'dict'")
  | ref =>
    if ref.eqStr commitRef then .ok ()
    else .error (.runtimeError "StepAttempt dispatch commitment cannot be rebound")

/-! ## The commit -/

structure DispatchCommit extends DispatchCommitDecision where
  commitRef : Option String := none
  currentSnapshotDigest : Option String := none
  providerExecutionBindingRef : Option String := none
  reconciliationRepeatabilityAuthorityRef : Option String := none

/-- One call of `commit`: its arguments, the registry that was passed or else the lookup of the
task, and how the write scope of the store opens and closes. -/
structure DispatchCall (π : Type) where
  now : Time
  request : CapabilityRequest
  permit : DispatchPermit
  resolver : Option GovernanceUseRequirementResolver
  attemptId : Option String
  registry : Option (CaptureTarget π × Option π) := none
  lookup : Option (ExecutionLookup π) := none
  opens : Result Unit := .ok ()
  closes : Result Unit := .ok ()

namespace DispatchCall

variable {π : Type} [DecidableEq π] (c : DispatchCall π)

/-- `consume_execution_target_lookup`, where no registry is passed. -/
def source : Option (CaptureTarget π × Option π) :=
  match c.registry with
  | some registry => some registry
  | none => (c.lookup.filter (fun l => l.providerId = c.permit.providerId)).map
      (fun l => (l.capture, some l.provider))

/-- The target that the dispatch is bound to, checked against the request and the permit. -/
def target : Result (Option (ExecutionTarget π)) :=
  match c.source with
  | none => .ok none
  | some (capture, expected) => do
    let captured ← capture c.permit.providerId c.request.id expected
    if expected.any (· ≠ captured.provider) then
      throw (.runtimeError "configured provider changed between lookup and dispatch")
    if captured.binding.providerId ≠ c.permit.providerId then
      throw (.runtimeError
        "provider execution binding does not match InvocationPermit provider")
    match captured.authority with
    | none => return some captured
    | some authority =>
      if authority.providerExecutionBindingRef ≠ captured.binding.id then
        throw (.runtimeError
          "reconciliation repeatability authority does not match execution binding")
      if authority.subjectIdentity ≠ c.request.id then
        throw (.runtimeError
          "reconciliation repeatability authority does not match dispatch request")
      return some captured

end DispatchCall

end Governance

/-- A store with a journal; the gate of the journal is asked before an event is compared. -/
structure DispatchStore (σ : Type) extends ExecutionStore σ where
  journalGate : Time → σ → Event → Result Unit

namespace DispatchStore

open Governance ExecutionStore

variable {σ π : Type} (ops : DispatchStore σ)

def getEvent (st : σ) (id : String) : Option Event := ops.get st .event id

/-- `append_event`: the same event again is no event. -/
def appendEvent (now : Time) (st : σ) (event : Event) : Result σ := do
  ops.journalGate now st event
  match ops.getEvent st event.id with
  | some existing =>
    guardValue (MemoryStore.sameEvent existing event)
      s!"event journal is append-only: refusing to overwrite event {Text.pyRepr event.id}"
    return st
  | none => return ops.save st .event event

def bindAttempt (now : Time) (st : σ) (permit : DispatchPermit) (attemptId commitRef : String)
    (binding : Option ProviderExecutionBinding)
    (authority : Option ReconciliationRepeatabilityAuthority) : Result σ :=
  match ops.getAttempt st attemptId with
  | none => .error (.runtimeError "dispatch commitment references a missing StepAttempt")
  | some attempt => do
    checkRebinding (attempt.metadata.get "dispatch_commit_ref") commitRef
    ops.saveAttempt now st
      { attempt with metadata := boundMetadata attempt.metadata permit commitRef binding authority }

/-- The writes of a dispatch: the attempt, then the event. -/
def writeDispatch (digest : Json → String) (st : σ) (c : DispatchCall π)
    (target : Option (ExecutionTarget π)) : Result (String × σ) := do
  let binding := target.map (·.binding)
  let authority := target.bind (·.authority)
  let commitRef ← dispatchCommitRef digest c.request c.permit c.attemptId (binding.map (·.id))
    (authority.map (·.id))
  let event : Event :=
    { id := commitRef, createdAt := c.now, type := dispatchCommitEvent, subjectRef := c.request.id,
      payload := dispatchPayload c.request c.permit c.attemptId binding authority }
  let bound ← c.attemptId.elim (.ok st) (fun attemptId =>
    ops.bindAttempt c.now st c.permit attemptId commitRef binding authority)
  return (commitRef, ← ops.appendEvent c.now bound event)

/-- The refusal of a judgment that is not the allowed one of the permit. -/
def dispatchRefusal (permit : DispatchPermit) (current : UseAdmissionDecision String) :
    Option DispatchCommit :=
  let refused : DispatchCommit :=
    { status := .changed, reason := current.reason,
      currentSnapshotDigest := current.snapshotDigest }
  match current.status with
  | .unavailable => some { refused with status := .unavailable }
  | .stale => some { refused with status := .stale }
  | .blocked => some { refused with status := .blocked }
  | .notApplicable => some { refused with
      reason := "governed dispatch no longer has an applicable allowed judgment" }
  | .allowed =>
    if current.requirementDigest ≠ some permit.governanceRequirementDigest ∨
        current.snapshotDigest ≠ some permit.governanceSnapshotDigest then
      some { refused with
        reason := "dispatch governance judgment does not match InvocationPermit" }
    else none

/-- `GovernanceUseAdmission(store).evaluate`, which only reads the store. -/
abbrev UseAdmission (σ : Type) :=
  σ → CapabilityRequest → Option GovernanceUseRequirementResolver →
    Result (UseAdmissionDecision String)

/-- What happens in the write scope. -/
def commitScoped [DecidableEq π] (digest : Json → String)
    (admission : UseAdmission σ)
    (st : σ) (c : DispatchCall π) : Result (DispatchCommit × σ) := do
  c.opens
  let current ← admission st c.request c.resolver
  match dispatchRefusal c.permit current with
  | some refused =>
    c.closes
    return (refused, st)
  | none =>
    let target ← c.target
    let (commitRef, committed) ← ops.writeDispatch digest st c target
    c.closes
    return (
      { status := .committed, commitRef := some commitRef,
        reason := "governed dispatch commitment linearized",
        currentSnapshotDigest := current.snapshotDigest,
        providerExecutionBindingRef := target.map (·.binding.id),
        reconciliationRepeatabilityAuthorityRef :=
          (target.bind (·.authority)).map (·.id) }, committed)

/-- `GovernanceDispatchCommitter.commit`: an exception in the scope undoes its writes. -/
def commitDispatch [DecidableEq π] (digest : Json → String)
    (admission : UseAdmission σ)
    (st : σ) (c : DispatchCall π) : DispatchCommit × σ :=
  if !c.permit.governanceApplicable then
    ({ status := .notApplicable,
       reason := "invocation permit is explicitly not governance-bound" }, st)
  else match ops.commitScoped digest admission st c with
    | .ok result => result
    | .error e =>
      ({ status := .unavailable, reason := s!"dispatch commitment failed: {e.message}" }, st)

/-! ## What a commit writes -/

/-- The dispatch that an attempt names. -/
def dispatchRef (attempt : StepAttempt) : Json := attempt.metadata.get "dispatch_commit_ref"

/-- The attempt names a stored event, of exactly this dispatch. -/
structure Dispatched (st : σ) (c : DispatchCall π) (target : Option (ExecutionTarget π))
    (attemptId commitRef : String) : Prop where
  attempt : ∃ attempt, ops.getAttempt st attemptId = some attempt ∧
    dispatchRef attempt = .str commitRef
  event : ∃ event, ops.getEvent st commitRef = some event ∧ event.id = commitRef ∧
    event.type = dispatchCommitEvent ∧ event.subjectRef = c.request.id ∧
    event.payload.pyEq (dispatchPayload c.request c.permit c.attemptId (target.map (·.binding))
      (target.bind (·.authority))) = true

/-- Every ref that is set and every event stays. -/
structure Keeps (st st' : σ) : Prop where
  refs : ∀ id attempt, ops.getAttempt st id = some attempt → dispatchRef attempt ≠ .null →
    ∃ attempt', ops.getAttempt st' id = some attempt' ∧ dispatchRef attempt' = dispatchRef attempt
  events : ∀ id event, ops.getEvent st id = some event → ops.getEvent st' id = some event

/-- The attempt of a call is stored under its own id. -/
def FiledUnderOwnId (st : σ) (c : DispatchCall π) : Prop :=
  ∀ attemptId attempt, c.attemptId = some attemptId → ops.getAttempt st attemptId = some attempt →
    attempt.id = attemptId

section Writes

variable {ops} {now : Time} {st st' : σ}

theorem Keeps.refl (st : σ) : ops.Keeps st st :=
  ⟨fun _ attempt h _ => ⟨attempt, h, rfl⟩, fun _ _ h => h⟩

theorem Keeps.trans {a b c : σ} (hab : ops.Keeps a b) (hbc : ops.Keeps b c) : ops.Keeps a c where
  refs id attempt hget hset := by
    obtain ⟨attempt', hget', href'⟩ := hab.refs id attempt hget hset
    obtain ⟨attempt'', hget'', href''⟩ := hbc.refs id attempt' hget' (href' ▸ hset)
    exact ⟨attempt'', hget'', href''.trans href'⟩
  events id event h := hbc.events id event (hab.events id event h)

theorem dispatchRef_boundMetadata (attempt : StepAttempt) (permit : DispatchPermit)
    (commitRef : String) (binding : Option ProviderExecutionBinding)
    (authority : Option ReconciliationRepeatabilityAuthority) :
    dispatchRef { attempt with
      metadata := boundMetadata attempt.metadata permit commitRef binding authority } =
      .str commitRef := by
  have hget : Fields.get? "dispatch_commit_ref"
      (boundMetadata attempt.metadata permit commitRef binding authority) =
      some (.str commitRef) := by
    unfold boundMetadata
    simp only [List.cons_append, List.nil_append, List.foldl_cons]
    rw [Fields.get?_foldl_put ?_]
    · rw [Fields.get?_put_of_ne _ _ (by decide), Fields.get?_put_of_ne _ _ (by decide),
        Fields.get?_put_of_ne _ _ (by decide), Fields.get?_put_self]
    · cases binding <;> cases authority <;> simp [Fields.names]
  rw [dispatchRef, Fields.get, hget]
  rfl

theorem checkRebinding_eq_ok {existing : Json} {commitRef : String} :
    checkRebinding existing commitRef = .ok () ↔ existing = .null ∨ existing = .str commitRef := by
  cases existing <;> simp [checkRebinding, Json.eqStr, Json.pyEq]

theorem bindAttempt_eq_ok {permit : DispatchPermit} {attemptId commitRef : String}
    {binding : Option ProviderExecutionBinding}
    {authority : Option ReconciliationRepeatabilityAuthority}
    (h : ops.bindAttempt now st permit attemptId commitRef binding authority = .ok st') :
    ∃ attempt bound, ops.getAttempt st attemptId = some attempt ∧
      (dispatchRef attempt = .null ∨ dispatchRef attempt = .str commitRef) ∧
      bound.id = attempt.id ∧ dispatchRef bound = .str commitRef ∧
      st' = ops.save st .attempt bound := by
  unfold bindAttempt at h
  cases hget : ops.getAttempt st attemptId with
  | none =>
    rw [hget] at h
    exact absurd h (by simp)
  | some attempt =>
    rw [hget] at h
    obtain ⟨hcheck, hsave⟩ := Result.check_eq_ok.mp h
    obtain ⟨-, rfl⟩ := saveChecked_eq_ok.mp hsave
    exact ⟨attempt, { attempt with
        metadata := boundMetadata attempt.metadata permit commitRef binding authority }, rfl,
      checkRebinding_eq_ok.mp hcheck, rfl,
      dispatchRef_boundMetadata attempt permit commitRef binding authority, rfl⟩

theorem getAttempt_save (st : σ) (bound : StepAttempt) (id : String) :
    ops.getAttempt (ops.save st .attempt bound) id =
      if id = bound.id then some bound else ops.getAttempt st id :=
  ops.get_save_self st .attempt bound id

theorem getEvent_saveAttempt (st : σ) (bound : StepAttempt) (id : String) :
    ops.getEvent (ops.save st .attempt bound) id = ops.getEvent st id :=
  ops.get_save_of_ne st .attempt .event bound id (by decide)

/-- The event is in the journal, equal up to the time of its entry, and nothing else
changed. -/
theorem appendEvent_eq_ok {event : Event} (h : ops.appendEvent now st event = .ok st') :
    (∃ stored, ops.getEvent st' event.id = some stored ∧
      MemoryStore.sameEvent stored event = true) ∧
    (∀ id, ops.getAttempt st' id = ops.getAttempt st id) ∧
    ∀ id stored, ops.getEvent st id = some stored → ops.getEvent st' id = some stored := by
  unfold appendEvent at h
  obtain ⟨-, h⟩ := Result.check_eq_ok.mp h
  cases hget : ops.getEvent st event.id with
  | some existing =>
    rw [hget] at h
    obtain ⟨hsame, h⟩ := Result.check_eq_ok.mp h
    obtain rfl := Result.pure_eq_ok.mp h
    exact ⟨⟨existing, hget, guardValue_eq_ok.mp hsame⟩, fun id => rfl, fun id stored h => h⟩
  | none =>
    rw [hget] at h
    obtain rfl := Result.pure_eq_ok.mp h
    have hsaved : ∀ id, ops.getEvent (ops.save st .event event) id =
        if id = event.id then some event else ops.getEvent st id :=
      ops.get_save_self st .event event
    refine ⟨⟨event, by rw [hsaved, if_pos rfl], Json.pyEq_refl _⟩, fun id => ?_,
      fun id stored hstored => ?_⟩
    · exact ops.get_save_of_ne st .event .attempt event id (by decide)
    · rw [hsaved, if_neg]
      · exact hstored
      · rintro rfl
        rw [hget] at hstored
        exact absurd hstored (by simp)

/-- The event of a dispatch is in the journal, whichever attempt it is filed for. -/
theorem event_of_writeDispatch {digest : Json → String} {c : DispatchCall π}
    {target : Option (ExecutionTarget π)} {commitRef : String}
    (h : ops.writeDispatch digest st c target = .ok (commitRef, st')) :
    ∃ event, ops.getEvent st' commitRef = some event ∧ event.id = commitRef ∧
      event.type = dispatchCommitEvent ∧ event.subjectRef = c.request.id ∧
      event.payload.pyEq (dispatchPayload c.request c.permit c.attemptId (target.map (·.binding))
        (target.bind (·.authority))) = true := by
  unfold writeDispatch at h
  simp only [Result.bind_eq_ok] at h
  obtain ⟨ref, -, bound, -, written, happend, h⟩ := h
  obtain ⟨rfl, rfl⟩ := Prod.mk.inj (Result.pure_eq_ok.mp h)
  obtain ⟨⟨stored, hstored, hsame⟩, -, -⟩ := appendEvent_eq_ok happend
  exact ⟨stored, hstored, MemoryStore.sameEvent_fields hsame⟩

/-- What the writes of a dispatch leave. -/
theorem writeDispatch_eq_ok {digest : Json → String} {c : DispatchCall π}
    {target : Option (ExecutionTarget π)} {commitRef : String} (hfiled : ops.FiledUnderOwnId st c)
    (h : ops.writeDispatch digest st c target = .ok (commitRef, st')) :
    ops.Keeps st st' ∧ ∀ attemptId, c.attemptId = some attemptId →
      ops.Dispatched st' c target attemptId commitRef := by
  have hevent := event_of_writeDispatch h
  unfold writeDispatch at h
  simp only [Result.bind_eq_ok] at h
  obtain ⟨ref, -, bound, hbound, written, happend, h⟩ := h
  obtain ⟨rfl, rfl⟩ := Prod.mk.inj (Result.pure_eq_ok.mp h)
  obtain ⟨-, hattempts, hevents⟩ := appendEvent_eq_ok happend
  have hbinding : ops.Keeps st bound ∧ ∀ attemptId, c.attemptId = some attemptId →
      ∃ attempt, ops.getAttempt bound attemptId = some attempt ∧
        dispatchRef attempt = .str ref := by
    cases hattempt : c.attemptId with
    | none =>
      rw [hattempt] at hbound
      obtain rfl := Except.ok.inj hbound
      exact ⟨Keeps.refl _, fun attemptId hnone => absurd hnone (by simp)⟩
    | some attemptId =>
      rw [hattempt] at hbound
      obtain ⟨attempt, saved, hget, hold, hsavedId, hsavedRef, rfl⟩ := bindAttempt_eq_ok hbound
      obtain rfl : attempt.id = attemptId := hfiled attemptId attempt hattempt hget
      refine ⟨⟨fun id other hother hset => ?_, fun id event hevent => ?_⟩, fun attemptId' h' => ?_⟩
      · rw [getAttempt_save, hsavedId]
        by_cases hid : id = attempt.id
        · subst hid
          obtain rfl := Option.some.inj (hget.symm.trans hother)
          rw [if_pos rfl]
          exact ⟨saved, rfl, hsavedRef.trans (hold.resolve_left hset).symm⟩
        · rw [if_neg hid]
          exact ⟨other, hother, rfl⟩
      · rw [getEvent_saveAttempt]
        exact hevent
      · obtain rfl := Option.some.inj h'
        exact ⟨saved, by rw [getAttempt_save, hsavedId, if_pos rfl], hsavedRef⟩
  refine ⟨hbinding.1.trans ⟨fun id attempt hget _ => ⟨attempt, ?_, rfl⟩, hevents⟩,
    fun attemptId hattempt => ⟨?_, ?_⟩⟩
  · rw [hattempts]
    exact hget
  · obtain ⟨attempt, hget, href⟩ := hbinding.2 attemptId hattempt
    exact ⟨attempt, (hattempts attemptId).trans hget, href⟩
  · exact hevent

theorem dispatchRefusal_status {permit : DispatchPermit} {current : UseAdmissionDecision String}
    {refused : DispatchCommit} (h : dispatchRefusal permit current = some refused) :
    refused.status ≠ .committed ∧ refused.status ≠ .notApplicable := by
  unfold dispatchRefusal at h
  cases hstatus : current.status with
  | allowed =>
    rw [hstatus] at h
    dsimp only at h
    split_ifs at h
    obtain rfl := Option.some.inj h
    simp
  | _ =>
    rw [hstatus] at h
    obtain rfl := Option.some.inj h
    simp

/-- A governed permit is committed, or refused for a reason. -/
theorem commitDispatch_governed [DecidableEq π] (digest : Json → String)
    (admission : UseAdmission σ) (st : σ) {c : DispatchCall π}
    (h : c.permit.governanceApplicable = true) :
    (ops.commitDispatch digest admission st c).1.status ≠ .notApplicable := by
  unfold commitDispatch
  rw [h, Bool.not_true, if_neg Bool.false_ne_true]
  cases hscoped : ops.commitScoped digest admission st c with
  | error e => simp
  | ok result =>
    unfold commitScoped at hscoped
    obtain ⟨-, hscoped⟩ := Result.check_eq_ok.mp hscoped
    obtain ⟨current, -, hscoped⟩ := Result.bind_eq_ok.mp hscoped
    cases hrefusal : dispatchRefusal c.permit current with
    | some refused =>
      rw [hrefusal] at hscoped
      obtain ⟨-, hscoped⟩ := Result.check_eq_ok.mp hscoped
      obtain rfl := Result.pure_eq_ok.mp hscoped
      exact (dispatchRefusal_status hrefusal).2
    | none =>
      rw [hrefusal] at hscoped
      obtain ⟨target, -, hscoped⟩ := Result.bind_eq_ok.mp hscoped
      obtain ⟨⟨commitRef, written⟩, -, hscoped⟩ := Result.bind_eq_ok.mp hscoped
      obtain ⟨-, hscoped⟩ := Result.check_eq_ok.mp hscoped
      obtain rfl := Result.pure_eq_ok.mp hscoped
      simp

/-- A commit that does not commit leaves the store as it was; another one has written its
dispatch. -/
theorem commitDispatch_cases [DecidableEq π] (digest : Json → String)
    (admission : UseAdmission σ) (st : σ) (c : DispatchCall π) :
    ((ops.commitDispatch digest admission st c).1.status ≠ .committed ∧
      (ops.commitDispatch digest admission st c).2 = st) ∨
    ∃ target commitRef, c.target = .ok target ∧
      (ops.commitDispatch digest admission st c).1.status = .committed ∧
      (ops.commitDispatch digest admission st c).1.commitRef = some commitRef ∧
      ops.writeDispatch digest st c target =
        .ok (commitRef, (ops.commitDispatch digest admission st c).2) := by
  unfold commitDispatch
  split
  · exact .inl ⟨by simp, rfl⟩
  · cases hscoped : ops.commitScoped digest admission st c with
    | error e => exact .inl ⟨by simp, rfl⟩
    | ok result =>
      unfold commitScoped at hscoped
      obtain ⟨-, hscoped⟩ := Result.check_eq_ok.mp hscoped
      obtain ⟨current, -, hscoped⟩ := Result.bind_eq_ok.mp hscoped
      cases hrefusal : dispatchRefusal c.permit current with
      | some refused =>
        rw [hrefusal] at hscoped
        obtain ⟨-, hscoped⟩ := Result.check_eq_ok.mp hscoped
        obtain rfl := Result.pure_eq_ok.mp hscoped
        exact .inl ⟨(dispatchRefusal_status hrefusal).1, rfl⟩
      | none =>
        rw [hrefusal] at hscoped
        obtain ⟨target, htarget, hscoped⟩ := Result.bind_eq_ok.mp hscoped
        obtain ⟨⟨commitRef, written⟩, hwrite, hscoped⟩ := Result.bind_eq_ok.mp hscoped
        obtain ⟨-, hscoped⟩ := Result.check_eq_ok.mp hscoped
        obtain rfl := Result.pure_eq_ok.mp hscoped
        exact .inr ⟨target, commitRef, htarget, rfl, rfl, hwrite⟩

theorem Dispatched.keeps {c : DispatchCall π} {target : Option (ExecutionTarget π)}
    {attemptId commitRef : String} (h : ops.Dispatched st c target attemptId commitRef)
    (hkeeps : ops.Keeps st st') : ops.Dispatched st' c target attemptId commitRef := by
  obtain ⟨⟨attempt, hget, href⟩, ⟨event, hevent, hfacts⟩⟩ := h
  obtain ⟨attempt', hget', href'⟩ := hkeeps.refs attemptId attempt hget (by simp [href])
  exact ⟨⟨attempt', hget', href'.trans href⟩, ⟨event, hkeeps.events _ _ hevent, hfacts⟩⟩

end Writes

/-! ## Runs of commits -/

section Runs

variable [DecidableEq π] (digest : Json → String)
  (admission : UseAdmission σ)

def dispatchStep (st : σ) (c : DispatchCall π) : σ := (ops.commitDispatch digest admission st c).2

/-- One commit from a store, in a run that ends in `final`. -/
structure AtomicCommit (st final : σ) (c : DispatchCall π) : Prop where
  undone : (ops.commitDispatch digest admission st c).1.status ≠ .committed →
    ops.dispatchStep digest admission st c = st
  bound : (ops.commitDispatch digest admission st c).1.status = .committed →
    ∀ attemptId, c.attemptId = some attemptId → ∃ target commitRef,
      c.target = .ok target ∧
      (ops.commitDispatch digest admission st c).1.commitRef = some commitRef ∧
      ops.Dispatched (ops.dispatchStep digest admission st c) c target attemptId commitRef ∧
      ops.Dispatched final c target attemptId commitRef
  kept : ops.Keeps st (ops.dispatchStep digest admission st c)

variable {ops digest admission} {st st' : σ}

theorem dispatchStep_keeps {c : DispatchCall π} (hfiled : ops.FiledUnderOwnId st c) :
    ops.Keeps st (ops.dispatchStep digest admission st c) := by
  rcases ops.commitDispatch_cases digest admission st c with ⟨-, hsame⟩ | ⟨target, ref, -, -, -, hwrite⟩
  · rw [dispatchStep, hsame]
    exact Keeps.refl st
  · exact (writeDispatch_eq_ok hfiled hwrite).1

theorem run_keeps {calls : List (DispatchCall π)}
    (h : Along (ops.dispatchStep digest admission) ops.FiledUnderOwnId st calls) :
    ops.Keeps st (run (ops.dispatchStep digest admission) st calls) :=
  run_related (I := fun _ => True) Keeps.refl (fun _ _ _ => Keeps.trans) (fun _ _ _ _ => trivial)
    (fun _ _ _ hfiled => dispatchStep_keeps hfiled) trivial h

/-- Every commit of a run is atomic and what it bound stays bound, where each attempt that a
call names is stored under its own id. -/
theorem commits_atomic {calls : List (DispatchCall π)}
    (h : Along (ops.dispatchStep digest admission) ops.FiledUnderOwnId st calls)
    {before after : List (DispatchCall π)} {c : DispatchCall π} (hcalls : calls = before ++ c :: after) :
    ops.AtomicCommit digest admission (run (ops.dispatchStep digest admission) st before)
      (run (ops.dispatchStep digest admission) st calls) c := by
  subst hcalls
  obtain ⟨-, hfiled, hrest⟩ := along_append.mp h
  have hkeeps := run_keeps hrest
  rcases ops.commitDispatch_cases digest admission
      (run (ops.dispatchStep digest admission) st before) c with
    ⟨hstatus, hsame⟩ | ⟨target, commitRef, htarget, hcommitted, href, hwrite⟩
  · refine ⟨fun _ => hsame, fun hcommitted => absurd hcommitted hstatus, ?_⟩
    exact dispatchStep_keeps hfiled
  · obtain ⟨hkept, hdispatched⟩ := writeDispatch_eq_ok hfiled hwrite
    refine ⟨fun hstatus => absurd hcommitted hstatus, fun _ attemptId hattempt => ?_, hkept⟩
    · refine ⟨target, commitRef, htarget, href, hdispatched attemptId hattempt, ?_⟩
      rw [run_append, run_cons]
      exact (hdispatched attemptId hattempt).keeps hkeeps

end Runs

/-! ## An attempt under another id -/

/-- A dispatch event needs no other authority than that of its commit. -/
def memory : DispatchStore MemoryStore :=
  { ExecutionStore.memory with journalGate := fun _ _ _ => .ok () }

def governedPermit : DispatchPermit :=
  { governanceApplicable := true, governanceRequirementDigest := "requirement",
    governanceSnapshotDigest := "snapshot", requestDigest := "request",
    qualificationDigest := "qualification", providerId := "provider_1", leaseGeneration := 1 }

def governedWrite : DispatchCall Nat :=
  { now := 2, request := writing, permit := governedPermit, resolver := none,
    attemptId := some "attempt_a" }

def admitted : UseAdmission MemoryStore :=
  fun _ _ _ => .ok
    { status := .allowed, requirementDigest := some "requirement",
      snapshotDigest := some "snapshot" }

/-- The attempt of the first write, with the id of another one. -/
def renamedAttempt : StepAttempt :=
  newAttempt 1 writing { firstWrite with freshAttempt := "attempt_b" } "step_a" 1
    [("action_ref", .str "action_a")]

/-- The renamed attempt is swapped in for the first one. -/
def misfiled : MemoryStore :=
  (precommitted.compareAndSwap 2 .attempt "attempt_a" 0 renamedAttempt).toOption.elim precommitted
    Prod.snd

theorem commits_atomic_governedWrite :
    (memory.commitDispatch (fun _ => "digest") admitted precommitted governedWrite).1.status =
        .committed ∧
      memory.AtomicCommit (fun _ => "digest") admitted precommitted
        (run (memory.dispatchStep (fun _ => "digest") admitted) precommitted [governedWrite])
        governedWrite := by
  have hfiled : memory.FiledUnderOwnId precommitted governedWrite := by
    intro attemptId attempt hattempt hget
    obtain rfl := Option.some.inj hattempt
    have hid : (memory.getAttempt precommitted "attempt_a").map (fun a => a.id) =
        some "attempt_a" := by decide
    rw [hget] at hid
    exact Option.some.inj hid
  have halong : Along (memory.dispatchStep (fun _ => "digest") admitted) memory.FiledUnderOwnId
      precommitted [governedWrite] := ⟨hfiled, trivial⟩
  exact ⟨by decide, commits_atomic halong (List.nil_append _).symm⟩

/-- The commit files the bound attempt under its own id, and the named one stays unbound. -/
theorem commit_misfiled :
    (precommitted.compareAndSwap 2 .attempt "attempt_a" 0 renamedAttempt).toOption.map Prod.fst =
        some true ∧
      ¬ memory.AtomicCommit (fun _ => "digest") admitted misfiled
        (memory.dispatchStep (fun _ => "digest") admitted misfiled governedWrite) governedWrite := by
  refine ⟨by decide, fun h => ?_⟩
  obtain ⟨target, commitRef, -, -, ⟨⟨attempt, hget, href⟩, -⟩, -⟩ :=
    h.bound (by decide) "attempt_a" rfl
  have hunbound : (memory.getAttempt
      (memory.dispatchStep (fun _ => "digest") admitted misfiled governedWrite) "attempt_a").map
        (fun a => (dispatchRef a).isStr) = some false := by decide
  rw [hget, Option.map_some, href] at hunbound
  exact absurd (Option.some.inj hunbound) (by simp [Json.isStr, Json.asStr?])

end DispatchStore
end PortableRuntime
