import PortableRuntime.Core.Repeatability
import PortableRuntime.Core.SemanticIdentity

/-!
# Durable invocation specifications

A specification keeps the meaning of one provider operation with its provenance.  It closes
three digests into one graph: that of the projection, that of the replay binding and its own.
-/

namespace PortableRuntime

def invocationSpecificationEventType : String := "InvocationSpecificationRecorded"

def invocationSpecificationSchema : String := "durable-invocation-specification-v1"

/-- `_RETRY_IDEMPOTENT_SEMANTICS`. -/
def isRetryIdempotent : SideEffectClass → Bool
  | .idempotent => true
  | .deduplicatable => true
  | _ => false

structure DurableInvocationSpecification where
  id : String
  semanticIdentity : String
  canonicalSemanticPayload : String
  semanticContractDigest : String
  providerBinding : ProviderReplayBinding
  sourceRequestRef : String
  sourceWorkRef : Option String := none
  sourceRunRef : Option String := none
  idempotencyKey : Option String := none
  effectSemantics : String
deriving DecidableEq

def ProviderReplayBinding.dump (b : ProviderReplayBinding) : Fields :=
  [("provider_id", .str b.providerId), ("provider_version", .str b.providerVersion),
    ("provider_binding_id", .str b.providerBindingId),
    ("semantic_contract_digest", .str b.semanticContractDigest),
    ("descriptor_digest", .str b.descriptorDigest), ("binding_digest", .str b.bindingDigest)]

namespace DurableInvocationSpecification

def projection (s : DurableInvocationSpecification) : ProviderSemanticProjection :=
  { identity := s.semanticIdentity, contractDigest := s.semanticContractDigest,
    canonicalPayload := s.canonicalSemanticPayload }

def dump (s : DurableInvocationSpecification) : Fields :=
  [("id", .str s.id), ("semantic_identity", .str s.semanticIdentity),
    ("canonical_semantic_payload", .str s.canonicalSemanticPayload),
    ("semantic_contract_digest", .str s.semanticContractDigest),
    ("provider_binding", .obj s.providerBinding.dump),
    ("source_request_ref", .str s.sourceRequestRef), ("source_work_ref", .ofOption s.sourceWorkRef),
    ("source_run_ref", .ofOption s.sourceRunRef), ("idempotency_key", .ofOption s.idempotencyKey),
    ("effect_semantics", .str s.effectSemantics)]

/-- `_specification_identity_payload(…)` of a specification's fields. -/
def identityPayload (s : DurableInvocationSpecification) : Fields :=
  [("schema", .str invocationSpecificationSchema), ("semantic_identity", .str s.semanticIdentity),
    ("semantic_contract_digest", .str s.semanticContractDigest),
    ("provider_binding_digest", .str s.providerBinding.bindingDigest),
    ("source_request_ref", .str s.sourceRequestRef), ("source_work_ref", .ofOption s.sourceWorkRef),
    ("source_run_ref", .ofOption s.sourceRunRef), ("idempotency_key", .ofOption s.idempotencyKey),
    ("effect_semantics", .str s.effectSemantics)]

end DurableInvocationSpecification

/-! ## Reading a model from a dictionary

Of the errors of an input one stands for all. -/

def requiredStr (raw : Fields) (name : String) : Result String :=
  match raw.get? name with
  | some (.str s) => .ok s
  | some _ => raiseValue s!"{name}: Input should be a valid string"
  | none => raiseValue s!"{name}: Field required"

/-- A field of type `str | None` whose default is `None`. -/
def optionalStr (raw : Fields) (name : String) : Result (Option String) :=
  match raw.get? name with
  | some (.str s) => .ok (some s)
  | some .null => .ok none
  | some _ => raiseValue s!"{name}: Input should be a valid string"
  | none => .ok none

def replayBindingFields : List String :=
  ["provider_id", "provider_version", "provider_binding_id", "semantic_contract_digest",
    "descriptor_digest", "binding_digest"]

def specificationFields : List String :=
  ["id", "semantic_identity", "canonical_semantic_payload", "semantic_contract_digest",
    "provider_binding", "source_request_ref", "source_work_ref", "source_run_ref",
    "idempotency_key", "effect_semantics"]

section Specification

variable (sha : String → String)

/-- The validator of a specification. -/
def DurableInvocationSpecification.validate (s : DurableInvocationSpecification) : Result Unit := do
  s.projection.validate sha
  guardValue (s.providerBinding.semanticContractDigest == s.semanticContractDigest)
    "InvocationSpecification semantic contract does not match provider replay binding"
  let payload ← s.projection.payload
  guardValue ((payload.get "provider_id").eqStr s.providerBinding.providerId)
    "InvocationSpecification semantic provider does not match provider replay binding"

/-- The identity that the fields of a specification determine. -/
def DurableInvocationSpecification.identity (s : DurableInvocationSpecification) : String :=
  "invocation_spec_" ++ sha256 sha (.obj s.identityPayload)

/-- `build_invocation_specification(…)`. -/
def buildInvocationSpecification (request : SemanticRequest) (context : InvocationContext)
    (descriptor : ReplayDescriptor) (contract : ProviderSemanticContract)
    (providerBindingId : String) : Result DurableInvocationSpecification := do
  guardValue (descriptor.id == contract.providerId)
    "provider semantic contract does not match selected provider"
  guardValue (descriptor.capabilities.contains request.capability)
    "provider descriptor does not advertise the request capability"
  let projection ← projectProviderSemantics sha request context contract
  let binding ← buildProviderReplayBinding sha descriptor contract providerBindingId
  guardValue (!(isRetryIdempotent descriptor.effectSemantics && !truthy request.idempotencyKey))
    "retry-eligible side-effect invocation specification requires exact idempotency identity"
  let unidentified : DurableInvocationSpecification :=
    { id := "", semanticIdentity := projection.identity,
      canonicalSemanticPayload := projection.canonicalPayload,
      semanticContractDigest := projection.contractDigest, providerBinding := binding,
      sourceRequestRef := request.id, sourceWorkRef := request.workId,
      sourceRunRef := request.runId, idempotencyKey := request.idempotencyKey,
      effectSemantics := descriptor.effectSemantics.text }
  let specification := { unidentified with id := unidentified.identity sha }
  specification.validate sha
  return specification

/-- `invocation_specification_event(specification)`. -/
def invocationSpecificationEvent (now : Time) (s : DurableInvocationSpecification) : Event :=
  { id := s.id, createdAt := now, type := invocationSpecificationEventType,
    subjectRef := s.sourceRequestRef,
    payload := [("schema", .str invocationSpecificationSchema), ("specification", .obj s.dump)] }

/-- `ProviderReplayBinding.model_validate(value)`. -/
def ProviderReplayBinding.modelValidate : Json → Result ProviderReplayBinding
  | .obj raw => do
    forbidExtra raw replayBindingFields
    let binding : ProviderReplayBinding :=
      { providerId := ← requiredStr raw "provider_id",
        providerVersion := ← requiredStr raw "provider_version",
        providerBindingId := ← requiredStr raw "provider_binding_id",
        semanticContractDigest := ← requiredStr raw "semantic_contract_digest",
        descriptorDigest := ← requiredStr raw "descriptor_digest",
        bindingDigest := ← requiredStr raw "binding_digest" }
    binding.validate sha
    return binding
  | _ => raiseValue "provider_binding: Input should be a valid dictionary"

/-- `DurableInvocationSpecification.model_validate(raw)`. -/
def DurableInvocationSpecification.modelValidate (raw : Fields) :
    Result DurableInvocationSpecification := do
  forbidExtra raw specificationFields
  let specification : DurableInvocationSpecification :=
    { id := ← requiredStr raw "id",
      semanticIdentity := ← requiredStr raw "semantic_identity",
      canonicalSemanticPayload := ← requiredStr raw "canonical_semantic_payload",
      semanticContractDigest := ← requiredStr raw "semantic_contract_digest",
      providerBinding := ← ProviderReplayBinding.modelValidate sha (raw.get "provider_binding"),
      sourceRequestRef := ← requiredStr raw "source_request_ref",
      sourceWorkRef := ← optionalStr raw "source_work_ref",
      sourceRunRef := ← optionalStr raw "source_run_ref",
      idempotencyKey := ← optionalStr raw "idempotency_key",
      effectSemantics := ← requiredStr raw "effect_semantics" }
  specification.validate sha
  return specification

/-- `invocation_specification_from_event(event)`. -/
def invocationSpecificationFromEvent (event : Event) : Result DurableInvocationSpecification := do
  guardValue (event.type == invocationSpecificationEventType)
    "event is not an InvocationSpecification authority fact"
  guardValue ((event.payload.get "schema").eqStr invocationSpecificationSchema)
    "unsupported InvocationSpecification schema"
  let raw ← orRaise (event.payload.get "specification").asFields?
    "InvocationSpecification event is missing specification payload"
  let specification ← DurableInvocationSpecification.modelValidate sha raw
  guardValue (specification.id == event.id)
    "InvocationSpecification event/specification identity mismatch"
  guardValue (specification.sourceRequestRef == event.subjectRef)
    "InvocationSpecification event/source request binding mismatch"
  guardValue (specification.id == specification.identity sha)
    "InvocationSpecification deterministic identity rebound"
  return specification

end Specification
end PortableRuntime
