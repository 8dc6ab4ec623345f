import Mathlib.Data.List.Induction
import PortableRuntime.Core.Execute

/-!
# The provider registry

A registration puts a provider object and its execution binding under one id.  `capture`
pairs the two again for a dispatch, and refuses where the object is not the one that the
execution fetched.
-/

namespace PortableRuntime

open Governance

/-! ## Bindings and contracts -/

/-- A descriptor as one read of the property returns it.  Only the digest reads the other
fields. -/
structure RegisteredDescriptor extends ProviderDescriptor where
  others : Fields := []

def RegisteredDescriptor.dump (d : RegisteredDescriptor) : Fields :=
  [("id", .str d.id), ("effect_semantics", .str d.effectSemantics.text),
   ("side_effect_class", .str d.sideEffectClass.text),
   ("reversibility", .str d.reversibility.text)] ++ d.others

def providerExecutionDescriptorDigest (digest : Json → String) (d : RegisteredDescriptor) : String :=
  let schema : Fields := [("schema", .str "provider-execution-descriptor-v1")]
  digest (.obj (d.dump.foldl (fun payload f => Fields.put f.1 f.2 payload) schema))

def bindingDigest (digest : Json → String)
    (providerId executionIdentity configurationRef descriptorDigest : String) : String :=
  digest (.obj [("schema", .str "provider-execution-binding-v1"), ("provider_id", .str providerId),
    ("configured_execution_identity", .str executionIdentity),
    ("authoritative_configuration_ref", .str configurationRef),
    ("descriptor_digest", .str descriptorDigest)])

def buildProviderExecutionBinding (digest : Json → String) (d : RegisteredDescriptor)
    (executionIdentity configurationRef : String) : Result ProviderExecutionBinding := do
  let executionIdentity := Text.strip executionIdentity
  let configurationRef := Text.strip configurationRef
  guardValue (executionIdentity ≠ "" && configurationRef ≠ "")
    "provider execution binding requires configured identity and configuration ref"
  guardValue (executionIdentity ≠ d.id)
    "configured execution identity must be stronger than provider id"
  guardValue (d.id ≠ "") "provider_id: String should have at least 1 character"
  let descriptorDigest := providerExecutionDescriptorDigest digest d
  let identity := bindingDigest digest d.id executionIdentity configurationRef descriptorDigest
  return {
    id := "provider_execution_binding_" ++ identity
    providerId := d.id
    configuredExecutionIdentity := executionIdentity
    authoritativeConfigurationRef := configurationRef
    descriptorDigest
    bindingDigest := identity }

/-- How a provider says that its reconciliation may be repeated. -/
structure ReconciliationRepeatabilityConfiguration where
  subjectModel : String := "request-id"
  reconciliationProtocolIdentity : String
  reconciliationProtocolVersion : String
  repeatabilityMode : String := "repeat-safe"
  contractVersion : String

/-- The configuration, bound to one execution binding. -/
structure ReconciliationRepeatabilityContract extends ReconciliationRepeatabilityConfiguration where
  id : String
  providerExecutionBindingRef : String
  contractDigest : String

def buildReconciliationRepeatabilityContract (digest : Json → String)
    (binding : ProviderExecutionBinding) (c : ReconciliationRepeatabilityConfiguration) :
    ReconciliationRepeatabilityContract :=
  let contractDigest := digest (.obj
    [("schema", .str "reconciliation-repeatability-contract-v1"),
     ("provider_execution_binding_ref", .str binding.id), ("subject_model", .str c.subjectModel),
     ("reconciliation_protocol_identity", .str c.reconciliationProtocolIdentity),
     ("reconciliation_protocol_version", .str c.reconciliationProtocolVersion),
     ("repeatability_mode", .str c.repeatabilityMode), ("contract_version", .str c.contractVersion)])
  { c with
    id := "reconciliation_repeatability_contract_" ++ contractDigest
    providerExecutionBindingRef := binding.id
    contractDigest }

def buildReconciliationRepeatabilityAuthority (digest : Json → String)
    (c : ReconciliationRepeatabilityContract) (subjectIdentity : String) :
    Result ReconciliationRepeatabilityAuthority := do
  let subject := Text.strip subjectIdentity
  guardValue (subject ≠ "") "reconciliation repeatability authority requires exact subject identity"
  guardValue (c.subjectModel = "request-id")
    "unsupported reconciliation repeatability subject model"
  guardValue (c.repeatabilityMode = "repeat-safe")
    "only an explicit repeat-safe contract can establish positive authority"
  let authorityDigest := digest (.obj
    [("schema", .str "reconciliation-repeatability-authority-v1"), ("contract_ref", .str c.id),
     ("provider_execution_binding_ref", .str c.providerExecutionBindingRef),
     ("subject_model", .str c.subjectModel), ("subject_identity", .str subject),
     ("reconciliation_protocol_identity", .str c.reconciliationProtocolIdentity),
     ("reconciliation_protocol_version", .str c.reconciliationProtocolVersion),
     ("repeatability_mode", .str "repeat-safe"), ("contract_version", .str c.contractVersion),
     ("contract_digest", .str c.contractDigest)])
  return {
    id := "reconciliation_repeatability_authority_" ++ authorityDigest
    contractRef := c.id
    providerExecutionBindingRef := c.providerExecutionBindingRef
    subjectModel := c.subjectModel
    subjectIdentity := subject
    reconciliationProtocolIdentity := c.reconciliationProtocolIdentity
    reconciliationProtocolVersion := c.reconciliationProtocolVersion
    contractVersion := c.contractVersion
    contractDigest := c.contractDigest
    authorityDigest }

/-! ## The registry -/

/-- One call of `register`.  `π` stands for the identity of provider objects. -/
structure Registering (π : Type) where
  provider : π
  descriptor : RegisteredDescriptor
  configuredExecutionIdentity : Option String := none
  authoritativeConfigurationRef : Option String := none
  reconciliationRepeatability : Option ReconciliationRepeatabilityConfiguration := none
  /-- A fresh `uuid4().hex`. -/
  incarnation : String

/-- The binding of a registration.  Without a configured identity it is that of the
registration alone. -/
def Registering.binding {π : Type} (digest : Json → String) (call : Registering π) :
    Result ProviderExecutionBinding :=
  match call.configuredExecutionIdentity, call.authoritativeConfigurationRef with
  | none, none => buildProviderExecutionBinding digest call.descriptor
      s!"provider-registration:{call.descriptor.id}:{call.incarnation}"
      s!"runtime-registration:{call.incarnation}"
  | some executionIdentity, some configurationRef =>
    buildProviderExecutionBinding digest call.descriptor executionIdentity configurationRef
  | _, _ => raiseValue
      "stable configured-provider registration requires both execution identity and configuration ref"

structure ProviderRegistry (π : Type) where
  providers : Dict String π := .empty
  executionBindings : Dict String ProviderExecutionBinding := .empty
  reconciliationRepeatabilityContracts : Dict String ReconciliationRepeatabilityContract := .empty

namespace ProviderRegistry

variable {π : Type} (digest : Json → String) (registry : ProviderRegistry π)

def register (call : Registering π) : Result (ProviderRegistry π) := do
  let id := call.descriptor.id
  guardValue (registry.providers.get? id).isNone s!"provider already registered: {id}"
  let binding ← call.binding digest
  return {
    providers := registry.providers.set id call.provider
    executionBindings := registry.executionBindings.set id binding
    reconciliationRepeatabilityContracts :=
      call.reconciliationRepeatability.elim registry.reconciliationRepeatabilityContracts
        (fun c => registry.reconciliationRepeatabilityContracts.set id
          (buildReconciliationRepeatabilityContract digest binding c)) }

def unregister (id : String) : ProviderRegistry π where
  providers := registry.providers.erase id
  executionBindings := registry.executionBindings.erase id
  reconciliationRepeatabilityContracts := registry.reconciliationRepeatabilityContracts.erase id

/-- A `KeyError` has the text of its quoted key. -/
def get (id : String) : Result π :=
  match registry.providers.get? id with
  | some provider => .ok provider
  | none => .error (.runtimeError (Text.pyRepr id))

variable [DecidableEq π]

/-- `current` is what the descriptor of an object reads now. -/
def captureExecutionTarget (current : π → RegisteredDescriptor) (id : String)
    (expected : Option π) : Result (π × ProviderExecutionBinding) :=
  match registry.providers.get? id, registry.executionBindings.get? id with
  | some provider, some binding => do
    guardValue (expected.all (· = provider)) s!"configured provider changed before dispatch: {id}"
    guardValue (binding.descriptorDigest = providerExecutionDescriptorDigest digest (current provider))
      (s!"configured provider descriptor drift for {Text.pyRepr id}; " ++
        "re-register provider explicitly")
    guardValue (binding.providerId = id) "provider execution binding/provider id mismatch"
    return (provider, binding)
  | none, _ => .error (.runtimeError (Text.pyRepr s!"unknown provider: {id}"))
  | some _, none => .error (.runtimeError (Text.pyRepr id))

def captureReconciliationExecutionTarget (current : π → RegisteredDescriptor) :
    CaptureTarget π := fun id subjectIdentity expected => do
  let (provider, binding) ← registry.captureExecutionTarget digest current id expected
  match registry.reconciliationRepeatabilityContracts.get? id with
  | none => return { provider, binding }
  | some contract =>
    if contract.repeatabilityMode ≠ "repeat-safe" then return { provider, binding }
    else do
      guardValue (contract.providerExecutionBindingRef = binding.id)
        "configured reconciliation repeatability contract does not match execution binding"
      let authority ← buildReconciliationRepeatabilityAuthority digest contract subjectIdentity
      return { provider, binding, authority := some authority }

/-! ## Runs of registrations -/

/-- What other tasks do to a registry. -/
inductive Call (π : Type) where
  | register (call : Registering π)
  | unregister (id : String)

omit [DecidableEq π] in
/-- A refused registration changes nothing. -/
def step (registry : ProviderRegistry π) : Call π → ProviderRegistry π
  | .register call => (registry.register digest call).toOption.getD registry
  | .unregister id => registry.unregister id

/-- The registry after the calls of a runtime. -/
abbrev after (calls : List (Call π)) : ProviderRegistry π := run (step digest) {} calls

/-- The registration that put a provider object under an id, with the binding it made; nothing
has been unregistered under that id since. -/
structure InForce (calls : List (Call π)) (id : String) (provider : π)
    (binding : ProviderExecutionBinding) : Prop where
  registered : ∃ before call rest, calls = before ++ .register call :: rest ∧
    ((after digest before).providers.get? id).isNone = true ∧ call.descriptor.id = id ∧
    call.provider = provider ∧ call.binding digest = .ok binding ∧ .unregister id ∉ rest

omit [DecidableEq π]

variable {digest} {registry}

theorem register_eq_ok {call : Registering π} {registry' : ProviderRegistry π}
    (h : registry.register digest call = .ok registry') :
    (registry.providers.get? call.descriptor.id).isNone = true ∧
      ∃ binding, call.binding digest = .ok binding ∧
        registry'.providers = registry.providers.set call.descriptor.id call.provider ∧
        registry'.executionBindings =
          registry.executionBindings.set call.descriptor.id binding := by
  unfold register at h
  obtain ⟨habsent, h⟩ := Result.check_eq_ok.mp h
  obtain ⟨binding, hbinding, h⟩ := Result.bind_eq_ok.mp h
  obtain rfl := Result.pure_eq_ok.mp h
  exact ⟨guardValue_eq_ok.mp habsent, binding, hbinding, rfl, rfl⟩

theorem after_concat (calls : List (Call π)) (call : Call π) :
    after digest (calls ++ [call]) = step digest (after digest calls) call := by
  rw [after, run_append]
  rfl

theorem InForce.concat {calls : List (Call π)} {id : String} {provider : π}
    {binding : ProviderExecutionBinding} (h : InForce digest calls id provider binding)
    {call : Call π} (hkept : call ≠ .unregister id) :
    InForce digest (calls ++ [call]) id provider binding := by
  obtain ⟨before, made, rest, rfl, habsent, hid, hprovider, hbinding, hrest⟩ := h.registered
  refine ⟨before, made, rest ++ [call], by simp, habsent, hid, hprovider, hbinding, ?_⟩
  simp only [List.mem_append, List.mem_singleton, not_or]
  exact ⟨hrest, hkept.symm⟩

/-- Whatever is registered and unregistered, an object stands beside the binding of its own
registration. -/
theorem inForce_of_get? (calls : List (Call π)) {id : String} {provider : π}
    (h : (after digest calls).providers.get? id = some provider) :
    ∃ binding, (after digest calls).executionBindings.get? id = some binding ∧
      InForce digest calls id provider binding := by
  induction calls using List.reverseRecOn generalizing provider with
  | nil => exact absurd h (by simp [after])
  | append_singleton calls call ih =>
    rw [after_concat] at h ⊢
    cases call with
    | unregister other =>
      simp only [step, unregister, Dict.get?_erase] at h ⊢
      by_cases hid : id = other
      · rw [if_pos hid] at h
        cases h
      · rw [if_neg hid] at h ⊢
        obtain ⟨binding, hbinding, hforce⟩ := ih h
        exact ⟨binding, hbinding, hforce.concat (fun hcall => hid (Call.unregister.inj hcall).symm)⟩
    | register made =>
      cases hregister : (after digest calls).register digest made with
      | error e =>
        simp only [step, hregister, Except.toOption, Option.getD_none] at h ⊢
        obtain ⟨binding, hbinding, hforce⟩ := ih h
        exact ⟨binding, hbinding, hforce.concat (by simp)⟩
      | ok registered =>
        obtain ⟨habsent, binding, hbinding, hproviders, hbindings⟩ := register_eq_ok hregister
        simp only [step, hregister, Except.toOption, Option.getD_some, hproviders, hbindings] at h ⊢
        by_cases hid : id = made.descriptor.id
        · subst hid
          rw [Dict.get?_set_self] at h ⊢
          obtain rfl := Option.some.inj h
          exact ⟨binding, rfl, ⟨calls, made, [], rfl, habsent, rfl, rfl, hbinding, by simp⟩⟩
        · rw [Dict.get?_set_of_ne _ hid] at h ⊢
          obtain ⟨old, hold, hforce⟩ := ih h
          exact ⟨old, hold, hforce.concat (by simp)⟩

variable [DecidableEq π]

/-- What is captured stands under the id together, and its object is the expected one. -/
theorem capture_eq_ok {current : π → RegisteredDescriptor} {id subject : String}
    {expected : Option π} {target : ExecutionTarget π}
    (h : registry.captureReconciliationExecutionTarget digest current id subject expected =
      .ok target) :
    registry.providers.get? id = some target.provider ∧
      registry.executionBindings.get? id = some target.binding ∧
      expected.all (· = target.provider) = true := by
  unfold captureReconciliationExecutionTarget at h
  obtain ⟨⟨provider, binding⟩, hcapture, h⟩ := Result.bind_eq_ok.mp h
  have hpaired : registry.providers.get? id = some provider ∧
      registry.executionBindings.get? id = some binding ∧
      expected.all (· = provider) = true := by
    unfold captureExecutionTarget at hcapture
    split at hcapture
    · rename_i found bound hfound hbound
      obtain ⟨hexpected, hcapture⟩ := Result.check_eq_ok.mp hcapture
      obtain ⟨-, hcapture⟩ := Result.check_eq_ok.mp hcapture
      obtain ⟨-, hcapture⟩ := Result.check_eq_ok.mp hcapture
      obtain ⟨rfl, rfl⟩ := Prod.mk.inj (Result.pure_eq_ok.mp hcapture)
      exact ⟨hfound, hbound, guardValue_eq_ok.mp hexpected⟩
    · cases hcapture
    · cases hcapture
  have htarget : target.provider = provider ∧ target.binding = binding := by
    dsimp only at h
    split at h
    · obtain rfl := Result.pure_eq_ok.mp h
      exact ⟨rfl, rfl⟩
    · split_ifs at h
      · obtain rfl := Result.pure_eq_ok.mp h
        exact ⟨rfl, rfl⟩
      · obtain ⟨-, h⟩ := Result.check_eq_ok.mp h
        obtain ⟨authority, -, h⟩ := Result.bind_eq_ok.mp h
        obtain rfl := Result.pure_eq_ok.mp h
        exact ⟨rfl, rfl⟩
  rw [htarget.1, htarget.2]
  exact hpaired

end ProviderRegistry

/-! ## The dispatch of a fetched provider -/

/-- A dispatch event that carries the binding of the target it was committed for. -/
structure NamesBinding (event : Event) (attemptId : Option String)
    (binding : ProviderExecutionBinding) : Prop where
  type : event.type = dispatchCommitEvent
  attempt : (event.payload.get "attempt_ref").pyEq (.ofOption attemptId) = true
  ref : event.payload.get "provider_execution_binding_ref" = .str binding.id
  dump : (event.payload.get "provider_execution_binding").pyEq (.obj binding.dump) = true

namespace DispatchStore

variable {σ π : Type} [DecidableEq π] {ops : DispatchStore σ}

/-- A commit that finds the fetched object in its task has captured this object. -/
theorem target_of_lookup {c : DispatchCall π} {lookup : ExecutionLookup π}
    {target : Option (ExecutionTarget π)} (hregistry : c.registry = none)
    (hlookup : c.lookup = some lookup) (hid : lookup.providerId = c.permit.providerId)
    (h : c.target = .ok target) :
    ∃ captured, target = some captured ∧
      lookup.capture c.permit.providerId c.request.id (some lookup.provider) = .ok captured := by
  have hsource : c.source = some (lookup.capture, some lookup.provider) := by
    simp [DispatchCall.source, hregistry, hlookup, Option.filter, hid]
  unfold DispatchCall.target at h
  rw [hsource] at h
  obtain ⟨captured, hcaptured, h⟩ := Result.bind_eq_ok.mp h
  refine ⟨captured, ?_, hcaptured⟩
  by_cases hchanged : (some lookup.provider).any (· ≠ captured.provider) = true
  · rw [if_pos hchanged] at h
    cases h
  rw [if_neg hchanged] at h
  by_cases hprovider : captured.binding.providerId ≠ c.permit.providerId
  · rw [if_pos hprovider] at h
    cases h
  rw [if_neg hprovider] at h
  cases hauthority : captured.authority with
  | none =>
    rw [hauthority] at h
    exact (Result.pure_eq_ok.mp h).symm
  | some authority =>
    rw [hauthority] at h
    dsimp only at h
    by_cases hbinding : authority.providerExecutionBindingRef ≠ captured.binding.id
    · rw [if_pos hbinding] at h
      cases h
    rw [if_neg hbinding] at h
    by_cases hsubject : authority.subjectIdentity ≠ c.request.id
    · rw [if_pos hsubject] at h
      cases h
    rw [if_neg hsubject] at h
    exact (Result.pure_eq_ok.mp h).symm

theorem namesBinding_of_payload {event : Event} {request : CapabilityRequest}
    {permit : DispatchPermit} {attemptId : Option String} {binding : ProviderExecutionBinding}
    {authority : Option ReconciliationRepeatabilityAuthority}
    (htype : event.type = dispatchCommitEvent)
    (hpayload : event.payload.pyEq
      (dispatchPayload request permit attemptId (some binding) authority) = true) :
    NamesBinding event attemptId binding := by
  have hnamed : ∀ name value,
      Fields.get? name (dispatchPayload request permit attemptId (some binding) authority) =
        some value → (event.payload.get name).pyEq value = true := by
    intro name value hvalue
    obtain ⟨stored, hstored, hequal⟩ := Json.exists_get_of_pyEq hpayload hvalue
    rw [Fields.get, hstored]
    exact hequal
  exact
    { type := htype
      attempt := hnamed "attempt_ref" (.ofOption attemptId) rfl
      ref := Json.pyEq_str.mp (hnamed "provider_execution_binding_ref" (.str binding.id) rfl)
      dump := hnamed "provider_execution_binding" (.obj binding.dump) rfl }

end DispatchStore

namespace RealityBoundary

open DispatchStore ProviderRegistry

/-- Where the dispatch of an execution is written. -/
structure DispatchSite (σ : Type) where
  ops : DispatchStore σ
  digest : Json → String
  admission : UseAdmission σ
  store : σ
  now : Time
  resolver : Option GovernanceUseRequirementResolver := none

section Fetching

variable {σ ρ π : Type} [DecidableEq π] (b : RealityBoundary σ) (r : Answers σ ρ π)
  (request : InvocationRequest) (digest : Json → String) (current : π → RegisteredDescriptor)
  (calls later : List (Call π)) (site : DispatchSite σ)

/-- The commit of an admitted request, after `get` has left its lookup for the task.  The lookup
holds the registry itself, so that the capture is made from the registry as it is then. -/
def dispatchCall (a : Admitted ρ) (attemptId : Option String) : DispatchCall π where
  now := site.now
  request := a.request.toCapabilityRequest
  permit := a.permit
  resolver := site.resolver
  attemptId := attemptId
  lookup := ((after digest calls).get a.selected.id).toOption.map (fun provider =>
    { providerId := a.selected.id
      provider
      capture := (after digest (calls ++ later)).captureReconciliationExecutionTarget digest
        current })

/-- The answers of an execution that shares its registry with other tasks: they make `calls`
until it fetches the selected provider, at whatever awaits, and `later` from there to its
commit. -/
def fetching : Answers σ ρ π :=
  match b.gates r request with
  | .error _ => r
  | .ok a =>
    { r with
      provider := (after digest calls).get a.selected.id
      committer := .dispatching site.ops site.digest site.admission site.store
        (dispatchCall digest current calls later site a none) }

variable {b r request digest current calls later site}

omit [DecidableEq π] in
theorem healthyProviders_congr {r' : Answers σ ρ π} (hhealth : r'.health = r.health)
    (hcircuit : r'.circuitAllows = r.circuitAllows) (descriptors : List ProviderDescriptor) :
    healthyProviders r' descriptors = healthyProviders r descriptors := by
  induction descriptors with
  | nil => rfl
  | cons d rest ih => simp only [healthyProviders, hhealth, hcircuit, ih]

/-- No gate asks for the provider object or for the committer. -/
theorem gates_fetching :
    b.gates (b.fetching r request digest current calls later site) request =
      b.gates r request := by
  unfold fetching
  cases hgates : b.gates r request with
  | error stop => exact hgates
  | ok a =>
    have hsame (committer : Committer) (provider : Result π) :
        b.gates { r with committer, provider } request = b.gates r request := by
      have hhealthy : healthyProviders { r with committer, provider } = healthyProviders r :=
        funext (healthyProviders_congr rfl rfl)
      simp only [gates, routingStage, hhealthy]
      rfl
    exact (hsame _ _).trans hgates

omit [DecidableEq π] in
theorem providerId_of_issuePermit {seen : InvocationRequest} {providerId qualificationDigest : String}
    {governance : GovernanceUseAdmissionDecision} {permit : DispatchPermit}
    (h : b.issuePermit r seen providerId qualificationDigest governance = .ok permit) :
    permit.providerId = providerId := by
  unfold issuePermit at h
  dsimp only at h
  split at h
  · cases h
  · obtain rfl := Except.ok.inj h
    rfl

/-- The provider that a governed execution invokes is the one its dispatch was committed for:
the stored event carries the binding that this object was registered with, wherever other tasks
register and unregister providers. -/
theorem invoked_is_committed {a : Admitted ρ} (hgates : b.gates r request = .ok a)
    (hgoverned : a.permit.governanceApplicable = true) {provider : π}
    (hinvoked : provider ∈
      (b.execute (b.fetching r request digest current calls later site) request).invocations) :
    ∃ binding event, InForce digest (calls ++ later) a.selected.id provider binding ∧
      site.ops.getEvent (site.ops.commitDispatch site.digest site.admission site.store
        (dispatchCall digest current calls later site a
          (b.execute (b.fetching r request digest current calls later site)
            request).records.attemptId)).2 event.id = some event ∧
      NamesBinding event
        (b.execute (b.fetching r request digest current calls later site) request).records.attemptId
        binding := by
  rcases execute_cases (b := b) (r := b.fetching r request digest current calls later site) request
    with ⟨a', records, st, found, decision, hgates', hprecommit, hlookup, hdispatch, hexecute⟩ |
      ⟨hnone, -⟩
  · have hpermit := (gates_eq_ok hgates').permit
    rw [gates_fetching] at hgates'
    obtain rfl := Except.ok.inj (hgates'.symm.trans hgates)
    rw [hexecute] at hinvoked ⊢
    obtain rfl := List.mem_singleton.mp hinvoked
    have hfetched := (lookupStage_eq_ok.mp hlookup).2
    obtain ⟨-, -, hcommit, hfailure⟩ := dispatchStage_eq_ok.mp hdispatch
    simp only [fetching, hgates] at hfetched hcommit
    obtain rfl := Except.ok.inj hcommit
    have hcommitted := committed_of_dispatchFailure hfailure
      (commitDispatch_governed site.digest site.admission site.store hgoverned)
    rcases site.ops.commitDispatch_cases site.digest site.admission site.store
        (dispatchCall digest current calls later site a' records.attemptId) with
      ⟨hstatus, -⟩ | ⟨target, commitRef, htarget, -, -, hwrite⟩
    · exact absurd hcommitted hstatus
    · have hid : a'.permit.providerId = a'.selected.id := providerId_of_issuePermit hpermit
      obtain ⟨captured, rfl, hcaptured⟩ := target_of_lookup (by rfl)
        (by simp only [dispatchCall, hfetched]; rfl) hid.symm htarget
      obtain ⟨hprovider, hbinding, hexpected⟩ := capture_eq_ok hcaptured
      have hsame : provider = captured.provider := of_decide_eq_true hexpected
      rw [← hsame] at hprovider
      obtain ⟨binding, hstored, hforce⟩ := inForce_of_get? (calls ++ later) hprovider
      obtain rfl : binding = captured.binding := Option.some.inj (hstored.symm.trans hbinding)
      obtain ⟨event, hevent, rfl, htype, -, hpayload⟩ := event_of_writeDispatch hwrite
      exact ⟨captured.binding, event, hid ▸ hforce, hevent, namesBinding_of_payload htype hpayload⟩
  · rw [hnone] at hinvoked
    cases hinvoked

end Fetching

/-! ### A provider that is registered again -/

def allowedUse : GovernanceUseAdmissionDecision :=
  { status := .allowed, requirementDigest := "requirement", snapshotDigest := "snapshot" }

/-- Every collaborator agrees to a governed request. -/
def governedAgreeing : Answers MemoryStore Unit Nat where
  descriptorsFor := .ok [{ id := "provider_1" }]
  getRun := .ok (some unleasedRun)
  assessment := .ok { otherProofs := (), digest := "facts" }
  admission := .ok allowedUse
  select := fun healthy => .ok healthy.head?
  readmission := .ok allowedUse
  stored := .empty
  provider := .ok 0
  finalAdmission := .ok allowedUse
  committer := .dispatching DispatchStore.memory (fun _ => "digest") DispatchStore.admitted .empty
    { DispatchStore.governedWrite with lookup := none }
  runAfter := .ok (some unleasedRun)
  storedAfter := .empty

def registering (provider : Nat) (incarnation : String) : Registering Nat :=
  { provider, descriptor := { id := "provider_1" }, incarnation }

/-- Another object takes the place of the one that was selected. -/
def registeredAgain : List (Call Nat) :=
  [.register (registering 1 "first"), .unregister "provider_1",
   .register (registering 2 "second")]

def emptySite : DispatchSite MemoryStore where
  ops := DispatchStore.memory
  digest := fun _ => "digest"
  admission := DispatchStore.admitted
  store := .empty
  now := 2

/-- The second object is invoked, under its own binding. -/
theorem invoked_is_committed_registeredAgain :
    ∃ a binding event, observing.gates governedAgreeing observation = .ok a ∧
      InForce (fun _ => "digest") (registeredAgain ++ []) a.selected.id 2 binding ∧
      NamesBinding event (observing.execute (observing.fetching governedAgreeing observation
        (fun _ => "digest") (fun _ => { id := "provider_1" }) registeredAgain [] emptySite)
          observation).records.attemptId binding := by
  have hgoverned : (observing.gates governedAgreeing observation).toOption.map
      (fun a => a.permit.governanceApplicable) = some true := by decide
  obtain ⟨a, hgates, hgoverned⟩ := Option.map_eq_some_iff.mp hgoverned
  have hgates : observing.gates governedAgreeing observation = .ok a := by
    cases hstage : observing.gates governedAgreeing observation with
    | error stop =>
      rw [hstage] at hgates
      cases hgates
    | ok a' =>
      rw [hstage] at hgates
      exact congrArg Except.ok (Option.some.inj hgates)
  have hinvoked : 2 ∈ (observing.execute (observing.fetching governedAgreeing observation
      (fun _ => "digest") (fun _ => { id := "provider_1" }) registeredAgain [] emptySite)
        observation).invocations := by decide
  obtain ⟨binding, event, hforce, -, hnames⟩ := invoked_is_committed hgates hgoverned hinvoked
  exact ⟨a, binding, event, hgates, hforce, hnames⟩

end RealityBoundary
end PortableRuntime
