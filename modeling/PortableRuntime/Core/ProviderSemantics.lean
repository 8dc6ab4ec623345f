import PortableRuntime.Core.EffectRules
import PortableRuntime.Core.Execute
import PortableRuntime.Python.JsonRoundTrip

/-!
# Provider-visible semantics

A semantic contract classifies the fields, metadata and extras of a request and of its
context.  What it declares is projected into one canonical text, whose digest is the
identity of the operation; what it does not classify is refused.

`sha` is `hashlib.sha256(…).hexdigest()` of the UTF-8 bytes of a text.
-/

namespace PortableRuntime

/-! ## Requests, contexts and descriptors -/

structure PyFloat where
  trunc : Int
  text : String
  isFloat : Text.isFloatText text = true

/-- A request with all its fields and what else the caller set on it. -/
structure SemanticRequest extends InvocationRequest where
  inputArtifactRefs : List String := []
  timeoutSeconds : Option PyFloat := none
  extra : Fields := []
  documents : ∀ d ∈ [parameters, constraints, metadata, extra], (Json.obj d).isDocument = true

/-- `CapabilityRequest.model_fields`. -/
def requestModelFields : List String :=
  ["id", "capability", "work_id", "run_id", "instruction", "input_artifact_refs", "parameters",
    "constraints", "preferred_provider_ids", "excluded_provider_ids", "timeout_seconds", "metadata",
    "idempotency_key", "step_key", "actor_ref", "resource_ref", "subject_version_refs",
    "effect_class", "lease_generation", "lease_owner"]

def SemanticRequest.dump (r : SemanticRequest) : Fields :=
  [("id", .str r.id), ("capability", .str r.capability), ("work_id", .ofOption r.workId),
    ("run_id", .ofOption r.runId), ("instruction", .ofOption r.instruction),
    ("input_artifact_refs", .ofStrings r.inputArtifactRefs), ("parameters", .obj r.parameters),
    ("constraints", .obj r.constraints),
    ("preferred_provider_ids", .ofStrings r.preferredProviderIds),
    ("excluded_provider_ids", .ofStrings r.excludedProviderIds),
    ("timeout_seconds", r.timeoutSeconds.elim .null (fun t => .float t.trunc t.text)),
    ("metadata", .obj r.metadata), ("idempotency_key", .ofOption r.idempotencyKey),
    ("step_key", .ofOption r.stepKey), ("actor_ref", .ofOption r.actorRef),
    ("resource_ref", .ofOption r.resourceRef),
    ("subject_version_refs", .ofStrings r.subjectVersionRefs),
    ("effect_class", .str r.effectClass.text), ("lease_generation", .int r.leaseGeneration),
    ("lease_owner", .ofOption r.leaseOwner)] ++ r.extra

structure InvocationContext where
  runtimeId : String
  workId : Option String := none
  runId : Option String := none
  metadata : Fields := []
  leaseGeneration : Int := 0
  idempotencyKey : Option String := none
  extra : Fields := []
  documents : ∀ d ∈ [metadata, extra], (Json.obj d).isDocument = true

/-- `InvocationContext.model_fields`. -/
def contextModelFields : List String :=
  ["runtime_id", "work_id", "run_id", "metadata", "lease_generation", "idempotency_key"]

def InvocationContext.dump (c : InvocationContext) : Fields :=
  [("runtime_id", .str c.runtimeId), ("work_id", .ofOption c.workId), ("run_id", .ofOption c.runId),
    ("metadata", .obj c.metadata), ("lease_generation", .int c.leaseGeneration),
    ("idempotency_key", .ofOption c.idempotencyKey)] ++ c.extra

/-- A descriptor with the facts that a replay depends on. -/
structure ReplayDescriptor extends ProviderDescriptor where
  name : String
  version : String
  capabilities : List String := []
  providerFamily : Option String := none
  modelFamily : Option String := none
  operator : Option String := none
  executionDomain : Option String := none
  credentialDomain : Option String := none
  dataSourceDomain : Option String := none
  networkDomain : Option String := none
  trustBoundary : Option String := none

/-! ## Semantic contracts -/

inductive SemanticValueType where
  | str | int | float | bool | json
deriving Repr, DecidableEq, Inhabited

def SemanticValueType.text : SemanticValueType → String
  | .str => "str"
  | .int => "int"
  | .float => "float"
  | .bool => "bool"
  | .json => "json"

/-- `_FORBIDDEN_REQUEST_SEMANTIC_FIELDS`. -/
def forbiddenRequestSemanticFields : List String :=
  ["id", "work_id", "run_id", "metadata", "idempotency_key", "step_key", "actor_ref",
    "lease_generation", "lease_owner"]

/-- `_FORBIDDEN_CONTEXT_SEMANTIC_FIELDS`. -/
def forbiddenContextSemanticFields : List String :=
  ["work_id", "run_id", "metadata", "lease_generation", "idempotency_key"]

/-- `_NON_SEMANTIC_REQUEST_METADATA`. -/
def nonSemanticRequestMetadata : List String :=
  ["authorization_refs", "authorization_grant_refs", "evidence_refs", "evidence_artifact_refs",
    "verification_refs", "verification_result_refs", "relation_refs", "record_relation_refs",
    "checkpoint_refs", "decision_refs", "obligation_refs", "policy_obligation_refs",
    "procedure_proof_refs", "qualification_refs", "requested_effect_class", "effective_impact",
    "effect_semantics", "procedure_profile", "procedure_required", "procedure_applicability",
    "independence_context", "independence_constraints", "actor_ref", "resource_ref",
    "subject_version_refs", "subject_refs", "blast_radius", "exposure", "recovery_timing"]

/-- `_NON_SEMANTIC_CONTEXT_METADATA`. -/
def nonSemanticContextMetadata : List String := []

abbrev Extensions := Dict String SemanticValueType

def Extensions.dump (e : Extensions) : Fields := e.entries.map (fun f => (f.1, .str f.2.text))

/-- The fields of a contract before they are validated. -/
structure SemanticContractFields where
  id : String
  version : String
  providerId : String
  requestSemanticFields : List String :=
    ["capability", "instruction", "input_artifact_refs", "parameters", "constraints",
      "resource_ref", "subject_version_refs"]
  contextSemanticFields : List String := []
  requestMetadataExtensions : Extensions := .empty
  contextMetadataExtensions : Extensions := .empty
  requestExtraExtensions : Extensions := .empty
  contextExtraExtensions : Extensions := .empty
  transportId : String := "python-provider-v1"

/-- `sorted(set(a) - set(b))`. -/
def namesBeyond (a b : List String) : List String :=
  Text.sortedUnique (a.filter (fun name => !b.contains name))

/-- `sorted(set(a) & set(b))`. -/
def namesShared (a b : List String) : List String :=
  Text.sortedUnique (a.filter (fun name => b.contains name))

/-- A check that no name is left over. -/
def refuseNames (names : List String) (message : String) : Result Unit :=
  guardValue names.isEmpty (message ++ ": " ++ (Json.ofStrings names).pyRepr)

/-- The field constraints and the validator of a contract. -/
def SemanticContractFields.validate (c : SemanticContractFields) : Result Unit := do
  guardValue ([c.id, c.version, c.providerId, c.transportId].all (fun s => s ≠ ""))
    "String should have at least 1 character"
  refuseNames (namesBeyond c.requestSemanticFields requestModelFields)
    "unknown request semantic fields"
  refuseNames (namesBeyond c.contextSemanticFields contextModelFields)
    "unknown context semantic fields"
  refuseNames (namesShared c.requestSemanticFields forbiddenRequestSemanticFields)
    "runtime/authority request fields cannot be reusable provider semantics"
  refuseNames (namesShared c.contextSemanticFields forbiddenContextSemanticFields)
    "runtime/authority context fields cannot be reusable provider semantics"
  guardValue
    ((namesShared c.requestMetadataExtensions.keys nonSemanticRequestMetadata).isEmpty &&
      (namesShared c.contextMetadataExtensions.keys nonSemanticContextMetadata).isEmpty)
    "qualification/runtime metadata cannot be reclassified as provider semantics"
  guardValue (namesShared c.requestExtraExtensions.keys requestModelFields).isEmpty
    "request extra semantic extension collides with a declared request field"
  guardValue (namesShared c.contextExtraExtensions.keys contextModelFields).isEmpty
    "context extra semantic extension collides with a declared context field"

/-- Versioned declaration of reusable provider operation semantics. -/
structure ProviderSemanticContract extends SemanticContractFields where
  valid : toSemanticContractFields.validate = .ok ()

def SemanticContractFields.dump (c : SemanticContractFields) : Fields :=
  [("id", .str c.id), ("version", .str c.version), ("provider_id", .str c.providerId),
    ("request_semantic_fields", .ofStrings c.requestSemanticFields),
    ("context_semantic_fields", .ofStrings c.contextSemanticFields),
    ("request_metadata_extensions", .obj c.requestMetadataExtensions.dump),
    ("context_metadata_extensions", .obj c.contextMetadataExtensions.dump),
    ("request_extra_extensions", .obj c.requestExtraExtensions.dump),
    ("context_extra_extensions", .obj c.contextExtraExtensions.dump),
    ("transport_id", .str c.transportId)]

/-- Whether a value has a declared type.  A Boolean is no integer here. -/
def hasType (value : Json) (declared : SemanticValueType) : Bool :=
  match declared, value with
  | .str, .str _ => true
  | .int, .int _ => true
  | .float, .int _ => true
  | .float, .float _ _ => true
  | .bool, .bool _ => true
  | .json, .datetime _ => false
  | .json, _ => true
  | _, _ => false

/-- `_validate_typed_value(name, value, declared)`. -/
def validateTypedValue (name : String) (value : Json) (declared : SemanticValueType) :
    Result Unit :=
  guardValue (hasType value declared) (s!"provider semantic extension {Text.pyRepr name} does not satisfy " ++
    s!"declared type {Text.pyRepr declared.text}")

/-- The declared names that are present, with their values. -/
def declaredValues (owner : String) (values : Fields) :
    List (String × SemanticValueType) → Result Fields
  | [] => .ok []
  | (key, declared) :: rest =>
    match values.get? key with
    | none => declaredValues owner values rest
    | some value => do
      validateTypedValue (owner ++ "." ++ key) value declared
      return (key, value) :: (← declaredValues owner values rest)

/-- `_semantic_extensions(owner, metadata, allowed_nonsemantic, declared)`. -/
def semanticExtensions (owner : String) (metadata : Fields) (allowedNonsemantic : List String)
    (declared : Extensions) : Result Fields := do
  refuseNames (namesBeyond metadata.names (allowedNonsemantic ++ declared.keys))
    s!"unclassified provider-visible {owner} metadata"
  declaredValues (owner ++ ".metadata") metadata declared.entries

/-- `_extra_semantics(owner, extras, declared)`. -/
def extraSemantics (owner : String) (extras : Fields) (declared : Extensions) : Result Fields := do
  refuseNames (namesBeyond extras.names declared.keys)
    s!"unknown unclassified provider-visible {owner} extension fields"
  declaredValues owner extras declared.entries

/-- `{field: values.get(field) for field in fields}`. -/
def selectFields (values : Fields) (fields : List String) : Fields :=
  fields.foldl (fun selected field => selected.put field (values.get field)) []

/-! ## Digests and validated values -/

section Digests

variable (sha : String → String)

/-- `_sha256(value)`, which takes a string as it is. -/
def sha256 : Json → String
  | .str raw => sha raw
  | value => sha value.canonicalJson

/-- `contract.digest`. -/
def SemanticContractFields.digest (c : SemanticContractFields) : String :=
  sha256 sha (.obj (("schema", .str "provider-semantic-contract-v1") :: c.dump))

/-- `_projection_identity(canonical_payload)`. -/
def projectionIdentity (canonicalPayload : String) : String :=
  "provider_semantics_" ++ sha256 sha (.str canonicalPayload)

structure ProviderSemanticProjection where
  identity : String
  contractDigest : String
  canonicalPayload : String
deriving DecidableEq

/-- `payload()` of a projection. -/
def ProviderSemanticProjection.payload (p : ProviderSemanticProjection) : Result Fields := do
  match ← Json.loads p.canonicalPayload with
  | .obj fields => return fields
  | _ => raiseValue "provider semantic projection payload is malformed"

/-- The validator of a projection. -/
def ProviderSemanticProjection.validate (p : ProviderSemanticProjection) : Result Unit := do
  guardValue (p.identity == projectionIdentity sha p.canonicalPayload)
    "provider semantic projection identity mismatch"
  let payload ← p.payload
  guardValue ((payload.get "contract_digest").eqStr p.contractDigest)
    "provider semantic projection contract digest mismatch"

/-- The payload of `project_provider_semantics`, from the values that are declared. -/
def projectionPayload (contract : ProviderSemanticContract)
    (request context requestMetadata contextMetadata requestExtra contextExtra : Fields) : Fields :=
  [("schema", .str "provider-semantic-projection-v1"), ("provider_id", .str contract.providerId),
    ("contract_digest", .str (contract.digest sha)), ("transport_id", .str contract.transportId),
    ("request", .obj request), ("context", .obj context),
    ("request_metadata_extensions", .obj requestMetadata),
    ("context_metadata_extensions", .obj contextMetadata),
    ("request_extra_extensions", .obj requestExtra), ("context_extra_extensions", .obj contextExtra)]

/-- `project_provider_semantics(request, context, contract)`. -/
def projectProviderSemantics (request : SemanticRequest) (context : InvocationContext)
    (contract : ProviderSemanticContract) : Result ProviderSemanticProjection := do
  let requestMetadata ← semanticExtensions "request" request.metadata nonSemanticRequestMetadata
    contract.requestMetadataExtensions
  let contextMetadata ← semanticExtensions "context" context.metadata nonSemanticContextMetadata
    contract.contextMetadataExtensions
  let requestExtra ← extraSemantics "request" request.extra contract.requestExtraExtensions
  let contextExtra ← extraSemantics "context" context.extra contract.contextExtraExtensions
  let payload := projectionPayload sha contract
    (selectFields request.dump contract.requestSemanticFields)
    (selectFields context.dump contract.contextSemanticFields)
    requestMetadata contextMetadata requestExtra contextExtra
  let canonical := (Json.obj payload).canonicalJson
  let projection : ProviderSemanticProjection :=
    { identity := projectionIdentity sha canonical, contractDigest := contract.digest sha,
      canonicalPayload := canonical }
  projection.validate sha
  return projection

/-- `_binding_digest(…)`. -/
def replayBindingDigest (providerId providerVersion providerBindingId semanticContractDigest
    descriptorDigest : String) : String :=
  sha256 sha (.obj [("schema", .str "provider-replay-binding-v1"), ("provider_id", .str providerId),
    ("provider_version", .str providerVersion), ("provider_binding_id", .str providerBindingId),
    ("semantic_contract_digest", .str semanticContractDigest),
    ("descriptor_digest", .str descriptorDigest)])

structure ProviderReplayBinding where
  providerId : String
  providerVersion : String
  providerBindingId : String
  semanticContractDigest : String
  descriptorDigest : String
  bindingDigest : String
deriving DecidableEq

/-- The validator of a replay binding. -/
def ProviderReplayBinding.validate (b : ProviderReplayBinding) : Result Unit := do
  guardValue (b.bindingDigest == replayBindingDigest sha b.providerId b.providerVersion
      b.providerBindingId b.semanticContractDigest b.descriptorDigest)
    "provider replay binding digest mismatch"
  guardValue (Text.nonBlank b.providerBindingId && b.providerBindingId != b.providerId)
    "stable provider replay binding must be stronger than provider id"

def ReplayDescriptor.payload (d : ReplayDescriptor) : Fields :=
  [("schema", .str "provider-replay-descriptor-v1"), ("provider_id", .str d.id),
    ("name", .str d.name), ("version", .str d.version),
    ("capabilities", .ofStrings (Text.sorted d.capabilities)),
    ("effect_semantics", .str d.effectSemantics.text),
    ("side_effect_class", .str d.sideEffectClass.text),
    ("reversibility", .str d.reversibility.text), ("provider_family", .ofOption d.providerFamily),
    ("model_family", .ofOption d.modelFamily), ("operator", .ofOption d.operator),
    ("execution_domain", .ofOption d.executionDomain),
    ("credential_domain", .ofOption d.credentialDomain),
    ("data_source_domain", .ofOption d.dataSourceDomain),
    ("network_domain", .ofOption d.networkDomain), ("trust_boundary", .ofOption d.trustBoundary)]

/-- `build_provider_replay_binding(descriptor, contract, provider_binding_id)`. -/
def buildProviderReplayBinding (descriptor : ReplayDescriptor)
    (contract : ProviderSemanticContract) (providerBindingId : String) :
    Result ProviderReplayBinding := do
  let stable := Text.strip providerBindingId
  guardValue (stable != "" && stable != descriptor.id)
    "stable provider replay binding must be stronger than provider id"
  guardValue (descriptor.id == contract.providerId)
    "provider semantic contract does not match provider descriptor"
  let descriptorDigest := sha256 sha (.obj descriptor.payload)
  let binding : ProviderReplayBinding :=
    { providerId := descriptor.id, providerVersion := descriptor.version,
      providerBindingId := stable, semanticContractDigest := contract.digest sha,
      descriptorDigest,
      bindingDigest := replayBindingDigest sha descriptor.id descriptor.version stable
        (contract.digest sha) descriptorDigest }
  binding.validate sha
  return binding

end Digests
end PortableRuntime
