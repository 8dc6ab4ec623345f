import PortableRuntime.Core.Registry

/-!
# Repeatable reconciliation

A dispatch records the binding of its provider and, under a repeat-safe contract, the authority
to repeat the query of its request.  Both are decoded from the dispatch and compared with what the
registry configures now.
-/

namespace PortableRuntime

open Governance

/-! ## The recorded models -/

/-- A field that holds a text of at least one character. -/
def textField (raw : Fields) (name : String) : Result String :=
  match Fields.get? name raw with
  | none => raiseValue s!"{name}: Field required"
  | some (.str s) =>
    if s = "" then raiseValue s!"{name}: String should have at least 1 character" else .ok s
  | some _ => raiseValue s!"{name}: Input should be a valid string"

/-- A field that holds one text only, which is its default. -/
def literalField (raw : Fields) (name value : String) : Result String :=
  if (raw.getOr name (.str value)).eqStr value then .ok value
  else raiseValue s!"{name}: Input should be {value}"

def forbidExtra (raw : Fields) (names : List String) : Result Unit :=
  guardValue (raw.all (fun f => names.contains f.1)) "Extra inputs are not permitted"

section Decoding

variable (digest : Json → String)

/-- `ProviderExecutionBinding.model_validate`. -/
def validateProviderExecutionBinding (raw : Fields) : Result ProviderExecutionBinding := do
  forbidExtra raw ["id", "provider_id", "configured_execution_identity",
    "authoritative_configuration_ref", "descriptor_digest", "binding_digest"]
  let binding : ProviderExecutionBinding :=
    { id := ← textField raw "id"
      providerId := ← textField raw "provider_id"
      configuredExecutionIdentity := ← textField raw "configured_execution_identity"
      authoritativeConfigurationRef := ← textField raw "authoritative_configuration_ref"
      descriptorDigest := ← textField raw "descriptor_digest"
      bindingDigest := ← textField raw "binding_digest" }
  let expected := bindingDigest digest binding.providerId binding.configuredExecutionIdentity
    binding.authoritativeConfigurationRef binding.descriptorDigest
  guardValue (binding.bindingDigest = expected) "provider execution binding digest mismatch"
  guardValue (binding.id = "provider_execution_binding_" ++ expected)
    "provider execution binding identity mismatch"
  guardValue (binding.configuredExecutionIdentity ≠ binding.providerId)
    "configured execution identity must be stronger than provider id"
  return binding

/-- Decode an exact binding captured at dispatch authorization. -/
def providerExecutionBindingFromDispatch (event : Event) : Result ProviderExecutionBinding := do
  guardValue (event.type == dispatchCommitEvent)
    "provider execution binding requires InvocationDispatchCommitted"
  let payload := event.payload
  let legacy := "legacy dispatch has no original provider execution binding; backfill unsupported"
  let raw ← orRaise (payload.get "provider_execution_binding").asFields? legacy
  let bindingRef ←
    orRaise ((payload.get "provider_execution_binding_ref").asStr?.filter (· ≠ "")) legacy
  let binding ← validateProviderExecutionBinding digest raw
  guardValue (binding.id = bindingRef) "dispatch provider execution binding ref mismatch"
  guardValue ((payload.get "provider_id").eqStr binding.providerId)
    "dispatch provider execution binding provider mismatch"
  return binding

/-- `_authority_digest`. -/
def authorityDigest (a : ReconciliationRepeatabilityAuthority) : String :=
  digest (.obj
    [("schema", .str "reconciliation-repeatability-authority-v1"),
     ("contract_ref", .str a.contractRef),
     ("provider_execution_binding_ref", .str a.providerExecutionBindingRef),
     ("subject_model", .str a.subjectModel), ("subject_identity", .str a.subjectIdentity),
     ("reconciliation_protocol_identity", .str a.reconciliationProtocolIdentity),
     ("reconciliation_protocol_version", .str a.reconciliationProtocolVersion),
     ("repeatability_mode", .str a.repeatabilityMode), ("contract_version", .str a.contractVersion),
     ("contract_digest", .str a.contractDigest)])

/-- `ReconciliationRepeatabilityAuthority.model_validate`. -/
def validateReconciliationRepeatabilityAuthority (raw : Fields) :
    Result ReconciliationRepeatabilityAuthority := do
  forbidExtra raw ["id", "contract_ref", "provider_execution_binding_ref", "subject_model",
    "subject_identity", "reconciliation_protocol_identity", "reconciliation_protocol_version",
    "repeatability_mode", "contract_version", "contract_digest", "authority_digest"]
  let authority : ReconciliationRepeatabilityAuthority :=
    { id := ← textField raw "id"
      contractRef := ← textField raw "contract_ref"
      providerExecutionBindingRef := ← textField raw "provider_execution_binding_ref"
      subjectModel := ← literalField raw "subject_model" "request-id"
      subjectIdentity := ← textField raw "subject_identity"
      reconciliationProtocolIdentity := ← textField raw "reconciliation_protocol_identity"
      reconciliationProtocolVersion := ← textField raw "reconciliation_protocol_version"
      repeatabilityMode := ← literalField raw "repeatability_mode" "repeat-safe"
      contractVersion := ← textField raw "contract_version"
      contractDigest := ← textField raw "contract_digest"
      authorityDigest := ← textField raw "authority_digest" }
  let expected := authorityDigest digest authority
  guardValue (authority.authorityDigest = expected)
    "reconciliation repeatability authority digest mismatch"
  guardValue (authority.id = "reconciliation_repeatability_authority_" ++ expected)
    "reconciliation repeatability authority identity mismatch"
  return authority

/-- Decode only an exact authority that is bound to the request of its dispatch. -/
def reconciliationRepeatabilityAuthorityFromDispatch (event : Event) :
    Result ReconciliationRepeatabilityAuthority := do
  guardValue (event.type == dispatchCommitEvent)
    "reconciliation repeatability authority requires InvocationDispatchCommitted"
  let payload := event.payload
  let absent := "historical dispatch has no original reconciliation repeatability authority; " ++
    "backfill unsupported"
  let raw ← orRaise (payload.get "reconciliation_repeatability_authority").asFields? absent
  let authorityRef ← orRaise
    ((payload.get "reconciliation_repeatability_authority_ref").asStr?.filter (· ≠ "")) absent
  let authority ← validateReconciliationRepeatabilityAuthority digest raw
  guardValue (authority.id = authorityRef)
    "dispatch reconciliation repeatability authority ref mismatch"
  let binding ← providerExecutionBindingFromDispatch digest event
  guardValue (authority.providerExecutionBindingRef = binding.id)
    "reconciliation repeatability authority does not match historical execution binding"
  let requestId ← orRaise ((payload.get "request_id").asStr?.filter (· ≠ ""))
    "dispatch reconciliation repeatability subject is unavailable"
  guardValue (authority.subjectModel = "request-id")
    "unsupported reconciliation repeatability subject model"
  guardValue (authority.subjectIdentity = requestId && event.subjectRef == requestId)
    "reconciliation repeatability authority subject mismatch"
  return authority

/-! ## Eligibility -/

structure ReconciliationRepeatabilityEligibility where
  status : String
  eligible : Bool
  reason : String := ""

def ineligible (reason : String) : ReconciliationRepeatabilityEligibility :=
  { status := "ineligible", eligible := false, reason }

/-- Evaluate exact eligibility without performing any reality operation. -/
def evaluateReconciliationRepeatability
    (historicalAuthority : Option ReconciliationRepeatabilityAuthority)
    (historicalBinding : Option ProviderExecutionBinding)
    (currentContract : Option ReconciliationRepeatabilityContract)
    (requiredSubjectIdentity : String) : ReconciliationRepeatabilityEligibility :=
  match historicalAuthority, historicalBinding with
  | none, _ => ineligible "historical repeatability authority is absent"
  | some _, none => ineligible "historical configured-provider execution binding is absent"
  | some authority, some binding =>
    if authority.providerExecutionBindingRef ≠ binding.id then
      ineligible ("repeatability authority does not bind the exact historical provider " ++
        "execution identity")
    else if authority.subjectModel ≠ "request-id" then
      ineligible "unsupported reconciliation subject model"
    else if authority.subjectIdentity ≠ requiredSubjectIdentity then
      ineligible "repeatability authority does not bind the exact reconciliation subject"
    else match currentContract with
      | none => ineligible "current configured repeatability contract is absent or not repeat-safe"
      | some contract =>
        if contract.providerExecutionBindingRef ≠ binding.id then
          ineligible ("current repeatability contract targets a different provider execution " ++
            "binding")
        else if contract.repeatabilityMode ≠ "repeat-safe" then
          ineligible "current configured reconciliation semantics are not repeat-safe"
        else match buildReconciliationRepeatabilityAuthority digest contract
            requiredSubjectIdentity with
          | .error e => ineligible e.message
          | .ok current =>
            if current ≠ authority then
              ineligible ("reconciliation protocol or repeatability contract drifted from " ++
                "historical authority")
            else
              { status := "eligible", eligible := true,
                reason := "exact historical repeat-safe reconciliation query authority matches " ++
                  "current configured contract" }

namespace ProviderRegistry

variable {π : Type} [DecidableEq π] (registry : ProviderRegistry π)

/-- Resolve only an exact current configured identity; never retarget by provider id. -/
def resolveExecutionBinding (current : π → RegisteredDescriptor)
    (historical : ProviderExecutionBinding) : Option π :=
  match registry.captureExecutionTarget digest current historical.providerId none with
  | .error _ => none
  | .ok (provider, binding) => if binding ≠ historical then none else some provider

def reconciliationRepeatabilityEligibility (current : π → RegisteredDescriptor)
    (historicalAuthority : Option ReconciliationRepeatabilityAuthority)
    (historicalBinding : Option ProviderExecutionBinding) (requiredSubjectIdentity : String) :
    ReconciliationRepeatabilityEligibility :=
  match historicalBinding with
  | none => evaluateReconciliationRepeatability digest historicalAuthority none none
      requiredSubjectIdentity
  | some binding => match registry.resolveExecutionBinding digest current binding with
    | none => ineligible "exact historical configured-provider execution target is unavailable"
    | some _ => evaluateReconciliationRepeatability digest historicalAuthority (some binding)
        (registry.reconciliationRepeatabilityContracts.get? binding.providerId)
        requiredSubjectIdentity

end ProviderRegistry

end Decoding

/-! ## The exact target -/

/-- A repeat-safe contract that says what a recorded authority says. -/
structure RepeatSafeAs (contract : ReconciliationRepeatabilityContract)
    (authority : ReconciliationRepeatabilityAuthority) : Prop where
  mode : contract.repeatabilityMode = "repeat-safe"
  id : contract.id = authority.contractRef
  binding : contract.providerExecutionBindingRef = authority.providerExecutionBindingRef
  subject : contract.subjectModel = authority.subjectModel
  protocolIdentity :
    contract.reconciliationProtocolIdentity = authority.reconciliationProtocolIdentity
  protocolVersion : contract.reconciliationProtocolVersion = authority.reconciliationProtocolVersion
  version : contract.contractVersion = authority.contractVersion
  digest : contract.contractDigest = authority.contractDigest

variable {digest : Json → String}

theorem repeatSafeAs_of_build {contract : ReconciliationRepeatabilityContract} {subject : String}
    {authority : ReconciliationRepeatabilityAuthority}
    (h : buildReconciliationRepeatabilityAuthority digest contract subject = .ok authority) :
    RepeatSafeAs contract authority := by
  rw [buildReconciliationRepeatabilityAuthority, Result.check_eq_ok, Result.check_eq_ok,
    Result.check_eq_ok, Result.pure_eq_ok] at h
  obtain ⟨-, -, hmode, rfl⟩ := h
  rw [guardValue_eq_ok] at hmode
  exact
    { mode := of_decide_eq_true hmode
      id := rfl
      binding := rfl
      subject := rfl
      protocolIdentity := rfl
      protocolVersion := rfl
      version := rfl
      digest := rfl }

/-- Only the exact current contract of the exact subject is eligible. -/
theorem contract_of_eligible {authority : ReconciliationRepeatabilityAuthority}
    {binding : ProviderExecutionBinding} {contract : Option ReconciliationRepeatabilityContract}
    {subject : String}
    (h : (evaluateReconciliationRepeatability digest (some authority) (some binding) contract
      subject).eligible = true) :
    authority.subjectIdentity = subject ∧ authority.providerExecutionBindingRef = binding.id ∧
      ∃ c, contract = some c ∧ RepeatSafeAs c authority := by
  unfold evaluateReconciliationRepeatability at h
  simp only [ineligible] at h
  split_ifs at h with hbinding hmodel hsubject
  refine ⟨not_not.mp hsubject, not_not.mp hbinding, ?_⟩
  cases contract with
  | none => cases h
  | some c =>
    refine ⟨c, rfl, ?_⟩
    simp only at h
    split_ifs at h with hother hmode
    cases hbuild : buildReconciliationRepeatabilityAuthority digest c subject with
    | error e =>
      rw [hbuild] at h
      cases h
    | ok current =>
      simp only [hbuild] at h
      split_ifs at h with hdrift
      rw [← not_not.mp hdrift]
      exact repeatSafeAs_of_build hbuild

namespace ProviderRegistry

variable {π : Type} {registry : ProviderRegistry π}

/-- The object, the binding and the contract that a registry has for one configured target. -/
structure ExactTarget (registry : ProviderRegistry π) (provider : π)
    (binding : ProviderExecutionBinding) (authority : ReconciliationRepeatabilityAuthority) :
    Prop where
  registered : registry.providers.get? binding.providerId = some provider
  bound : registry.executionBindings.get? binding.providerId = some binding
  contract : ∃ contract,
    registry.reconciliationRepeatabilityContracts.get? binding.providerId = some contract ∧
      RepeatSafeAs contract authority

section Resolve

variable [DecidableEq π] {current : π → RegisteredDescriptor} {historical : ProviderExecutionBinding}

theorem resolve_eq_some {provider : π}
    (h : registry.resolveExecutionBinding digest current historical = some provider) :
    registry.providers.get? historical.providerId = some provider ∧
      registry.executionBindings.get? historical.providerId = some historical := by
  unfold resolveExecutionBinding at h
  cases hcapture : registry.captureExecutionTarget digest current historical.providerId none with
  | error e =>
    rw [hcapture] at h
    cases h
  | ok target =>
    obtain ⟨found, binding⟩ := target
    simp only [hcapture] at h
    split_ifs at h with hother
    obtain rfl := not_not.mp hother
    obtain rfl := Option.some.inj h
    unfold captureExecutionTarget at hcapture
    split at hcapture
    · rename_i stored bound hstored hbound
      rw [Result.check_eq_ok, Result.check_eq_ok, Result.check_eq_ok, Result.pure_eq_ok] at hcapture
      obtain ⟨-, -, -, hsame⟩ := hcapture
      obtain ⟨rfl, rfl⟩ := Prod.mk.inj hsame
      exact ⟨hstored, hbound⟩
    · cases hcapture
    · cases hcapture

/-- What is resolved and eligible is the exact target. -/
theorem exactTarget_of_eligible {provider : π} {authority : ReconciliationRepeatabilityAuthority}
    {subject : String}
    (hresolve : registry.resolveExecutionBinding digest current historical = some provider)
    (h : (registry.reconciliationRepeatabilityEligibility digest current (some authority)
      (some historical) subject).eligible = true) :
    registry.ExactTarget provider historical authority ∧ authority.subjectIdentity = subject := by
  simp only [reconciliationRepeatabilityEligibility, hresolve] at h
  obtain ⟨hsubject, -, hcontract⟩ := contract_of_eligible h
  obtain ⟨hprovider, hbinding⟩ := resolve_eq_some hresolve
  exact ⟨⟨hprovider, hbinding, hcontract⟩, hsubject⟩

end Resolve

/-! ### The contract of a registration -/

theorem register_contracts {call : Registering π} {registry' : ProviderRegistry π}
    {binding : ProviderExecutionBinding} (hbinding : call.binding digest = .ok binding)
    (h : registry.register digest call = .ok registry') :
    registry'.reconciliationRepeatabilityContracts =
      call.reconciliationRepeatability.elim registry.reconciliationRepeatabilityContracts
        (fun c => registry.reconciliationRepeatabilityContracts.set call.descriptor.id
          (buildReconciliationRepeatabilityContract digest binding c)) := by
  unfold register at h
  obtain ⟨-, h⟩ := Result.check_eq_ok.mp h
  obtain ⟨binding', hbinding', h⟩ := Result.bind_eq_ok.mp h
  obtain rfl := Except.ok.inj (hbinding.symm.trans hbinding')
  obtain rfl := Result.pure_eq_ok.mp h
  rfl

/-- A registration says nothing of the contracts under other ids. -/
theorem register_contract_of_ne {call : Registering π} {registry' : ProviderRegistry π} {id : String}
    (h : registry.register digest call = .ok registry') (hid : id ≠ call.descriptor.id) :
    registry'.reconciliationRepeatabilityContracts.get? id =
      registry.reconciliationRepeatabilityContracts.get? id := by
  obtain ⟨-, binding, hbinding, -, -⟩ := register_eq_ok h
  rw [register_contracts hbinding h]
  cases call.reconciliationRepeatability with
  | none => rfl
  | some c =>
    show (registry.reconciliationRepeatabilityContracts.set call.descriptor.id _).get? id = _
    exact Dict.get?_set_of_ne _ hid _

/-- There is no contract without its provider. -/
theorem contract_of_no_provider (calls : List (Call π)) {id : String}
    (h : (after digest calls).providers.get? id = none) :
    (after digest calls).reconciliationRepeatabilityContracts.get? id = none := by
  induction calls using List.reverseRecOn with
  | nil => rfl
  | append_singleton calls call ih =>
    rw [after_concat] at h ⊢
    cases call with
    | unregister other =>
      simp only [step, unregister, Dict.get?_erase] at h ⊢
      by_cases hid : id = other
      · rw [if_pos hid]
      · rw [if_neg hid] at h ⊢
        exact ih h
    | register made =>
      cases hregister : (after digest calls).register digest made with
      | error e =>
        simp only [step, hregister, Except.toOption, Option.getD_none] at h ⊢
        exact ih h
      | ok registered =>
        obtain ⟨-, binding, -, hproviders, -⟩ := register_eq_ok hregister
        simp only [step, hregister, Except.toOption, Option.getD_some, hproviders] at h ⊢
        have hid : id ≠ made.descriptor.id := by
          rintro rfl
          rw [Dict.get?_set_self] at h
          cases h
        rw [Dict.get?_set_of_ne _ hid] at h
        rw [register_contract_of_ne hregister hid]
        exact ih h

theorem exists_register {call : Registering π} {binding : ProviderExecutionBinding}
    (habsent : (registry.providers.get? call.descriptor.id).isNone = true)
    (hbinding : call.binding digest = .ok binding) :
    ∃ registry', registry.register digest call = .ok registry' :=
  ⟨_, Result.check_eq_ok.mpr
    ⟨guardValue_eq_ok.mpr habsent, Result.bind_eq_ok.mpr ⟨binding, hbinding, rfl⟩⟩⟩

/-- While a provider is registered, the contract under its id changes only with it. -/
theorem step_contract {call : Call π} {id : String}
    (hregistered : (registry.providers.get? id).isSome = true) (hkept : call ≠ .unregister id) :
    ((step digest registry call).providers.get? id).isSome = true ∧
      (step digest registry call).reconciliationRepeatabilityContracts.get? id =
        registry.reconciliationRepeatabilityContracts.get? id := by
  cases call with
  | unregister other =>
    have hid : id ≠ other := fun h => hkept (h ▸ rfl)
    simp only [step, unregister, Dict.get?_erase, if_neg hid]
    exact ⟨hregistered, trivial⟩
  | register made =>
    cases hregister : registry.register digest made with
    | error e =>
      simp only [step, hregister, Except.toOption, Option.getD_none]
      exact ⟨hregistered, trivial⟩
    | ok registered =>
      obtain ⟨habsent, binding, -, hproviders, -⟩ := register_eq_ok hregister
      have hid : id ≠ made.descriptor.id := by
        rintro rfl
        rw [Option.isNone_iff_eq_none.mp habsent] at hregistered
        cases hregistered
      simp only [step, hregister, Except.toOption, Option.getD_some, hproviders,
        Dict.get?_set_of_ne _ hid]
      exact ⟨hregistered, register_contract_of_ne hregister hid⟩

/-- The contract under an id is the one that the registration in force has made. -/
theorem contract_of_inForce {calls : List (Call π)} {id : String} {provider : π}
    {binding : ProviderExecutionBinding} (h : InForce digest calls id provider binding) :
    ∃ before call rest, calls = before ++ .register call :: rest ∧ call.descriptor.id = id ∧
      call.provider = provider ∧ call.binding digest = .ok binding ∧ .unregister id ∉ rest ∧
      (after digest calls).reconciliationRepeatabilityContracts.get? id =
        call.reconciliationRepeatability.map
          (buildReconciliationRepeatabilityContract digest binding) := by
  obtain ⟨before, call, rest, rfl, habsent, rfl, hprovider, hbinding, hkept⟩ := h.registered
  refine ⟨before, call, rest, rfl, rfl, hprovider, hbinding, hkept, ?_⟩
  -- the provider stays registered, so nothing else is registered under its id
  suffices hrest : (((after digest (before ++ .register call :: rest)).providers.get?
      call.descriptor.id).isSome = true ∧ _) from hrest.2
  clear h
  induction rest using List.reverseRecOn with
  | nil =>
    have hnone := contract_of_no_provider before (Option.isNone_iff_eq_none.mp habsent)
    obtain ⟨registered, hregister⟩ := exists_register habsent hbinding
    obtain ⟨-, binding', -, hproviders, -⟩ := register_eq_ok hregister
    rw [after_concat]
    simp only [step, hregister, Except.toOption, Option.getD_some, hproviders,
      register_contracts hbinding hregister, Dict.get?_set_self]
    refine ⟨rfl, ?_⟩
    cases call.reconciliationRepeatability with
    | none => exact hnone
    | some c => exact Dict.get?_set_self _ _ _
  | append_singleton rest last ih =>
    simp only [List.mem_append, List.mem_singleton, not_or] at hkept
    obtain ⟨hregistered, hcontract⟩ := ih hkept.1
    rw [← List.cons_append, ← List.append_assoc, after_concat]
    obtain ⟨hregistered', hsame⟩ := step_contract hregistered (Ne.symm hkept.2)
    exact ⟨hregistered', hsame.trans hcontract⟩

/-- The registration that put a provider object, its binding and its contract in place; nothing
has been unregistered under its id since. -/
structure Configures (digest : Json → String) (calls : List (Call π)) (provider : π)
    (binding : ProviderExecutionBinding) (contract : ReconciliationRepeatabilityContract) :
    Prop where
  registered : ∃ before call rest c, calls = before ++ .register call :: rest ∧
    call.descriptor.id = binding.providerId ∧ call.provider = provider ∧
    call.binding digest = .ok binding ∧ call.reconciliationRepeatability = some c ∧
    buildReconciliationRepeatabilityContract digest binding c = contract ∧
    .unregister binding.providerId ∉ rest

theorem configures_of_exactTarget {calls : List (Call π)} {provider : π}
    {binding : ProviderExecutionBinding} {authority : ReconciliationRepeatabilityAuthority}
    (h : (after digest calls).ExactTarget provider binding authority) :
    ∃ contract, Configures digest calls provider binding contract ∧
      RepeatSafeAs contract authority := by
  obtain ⟨contract, hcontract, hsafe⟩ := h.contract
  obtain ⟨binding', hbinding', hforce⟩ := inForce_of_get? calls h.registered
  obtain rfl := Option.some.inj (h.bound.symm.trans hbinding')
  obtain ⟨before, call, rest, hcalls, hid, hprovider, hbinding, hkept, hmade⟩ :=
    contract_of_inForce hforce
  obtain ⟨c, hc, hsame⟩ := Option.map_eq_some_iff.mp (hmade.symm.trans hcontract)
  exact ⟨contract, ⟨before, call, rest, c, hcalls, hid, hprovider, hbinding, hc, hsame, hkept⟩,
    hsafe⟩

end ProviderRegistry
end PortableRuntime
