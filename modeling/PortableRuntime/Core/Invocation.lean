import Mathlib.Data.List.MinMax
import PortableRuntime.Core.Execute

/-!
# Building and normalizing requests

A factory fills in what the caller of a capability leaves out.  Its store, where it has
one, also decides the lease that the request presents.
-/

namespace PortableRuntime

/-- `_SIDE_EFFECT_IMPACT`. -/
def SideEffectClass.impact : SideEffectClass → EffectClass
  | .pure => .read
  | .idempotent => .writeLocal
  | .deduplicatable => .writeLocal
  | .reconcilable => .writeRemote
  | .irreversibleOpaque => .irreversible

/-- `_hash_params`, for the hexadecimal `digest` of a JSON text with sorted keys. -/
def hashParams (digest : Json → String) (capability : String) (instruction : Option String)
    (parameters : Fields) : String :=
  let payload : Json := .obj
    [("cap", .str capability), ("inst", .ofOption instruction), ("params", .obj parameters)]
  String.ofList ((digest payload).toList.take 16)

/-- A value that a request takes for a string or for nothing. -/
def optionalText : Json → Result (Option String)
  | .null => .ok none
  | .str s => .ok (some s)
  | _ => raiseValue "Input should be a valid string"

/-- A list that a request takes for a list of strings. -/
def textList (items : List Json) : Result (List String) :=
  items.mapM (fun j => orRaise j.asStr? "Input should be a valid string")

/-- What a caller gives to `build`. -/
structure BuildArguments where
  capability : String
  workId : Option String := none
  runId : Option String := none
  instruction : Option String := none
  parameters : Fields := []
  constraints : Fields := []
  preferredProviderIds : List String := []
  excludedProviderIds : List String := []
  actorRef : Json := .null
  resourceRef : Json := .null
  subjectVersionRefs : Option (List Json) := none
  idempotencyKey : Option String := none
  stepKey : Option String := none
  effectClass : Option String := none
  leaseOwner : Option String := none
  leaseGeneration : Option Int := none
  metadata : Fields := []
  requestId : Option String := none
  /-- The identifiers that are drawn where none is given. -/
  freshRequest : String := "request"
  freshIdempotency : String := "idem"
deriving Repr, Inhabited

/-- A factory over the reads of its store and of its registry of providers. -/
structure InvocationFactory where
  store : Option (String → Result (Option Run)) := none
  registry : Option (String → Result (List ProviderDescriptor)) := none
  contractRegistry : CapabilityContractRegistry

namespace InvocationFactory

variable (f : InvocationFactory)

def freshRun (runId : Option String) : Result (Option Run) :=
  match runId, f.store with
  | some runId, some getRun => getRun runId
  | _, _ => .ok none

/-- The class that a value names, if it names one: `requested and requested in _IMPACT_ORDER`. -/
def knownImpact (requested : Json) : Result (Option EffectClass) :=
  if requested.truthy then do
    if ← requested.inSet (EffectClass.all.map EffectClass.text) then
      return requested.asStr?.bind EffectClass.ofText?
    else return none
  else .ok none

/-- The class that is asked for: a value that names none counts as a read. -/
def requestedEffect (effectClass : Option String) (metadata : Fields) : Result EffectClass := do
  let requested :=
    (Json.ofOption effectClass).pyOr ((metadata.get "effect_class").pyOr (.str "read"))
  return (← knownImpact requested).getD .read

/-- The highest impact among the providers of a capability. -/
def providerMinimum (capability : String) : Result (Option EffectClass) :=
  match f.registry with
  | none => .ok none
  | some descriptorsFor => do
    let effects := (← descriptorsFor capability).map (fun d => d.sideEffectClass.impact)
    return effects.argmax EffectClass.level

/-- The lease of a built request: that of the stored run, and the caller's where no run is
stored.  An owner is also the caller's where the stored run names none. -/
def presentedLease (fresh : Option Run) (owner : Option String) (generation : Option Int) :
    Option String × Int :=
  match fresh with
  | some run => (run.leaseOwner <|> owner, run.leaseGeneration)
  | none => (owner, generation.getD 0)

/-- The versions that are given, else those under one of two names in the metadata. -/
def subjectVersions (given : Option (List Json)) (metadata : Fields) : List Json :=
  match given with
  | some versions => versions
  | none =>
    match (metadata.get "subject_version_refs").pyOr (metadata.get "subject_refs") with
    | .arr versions => versions.map (fun j => .str j.pyStr)
    | .str version => [.str version]
    | _ => []

/-- The independence requirements of a contract, and those of the metadata over them. -/
def independenceContext (contract : CapabilityContract) (metadata : Fields) : Fields :=
  let required : Fields :=
    if contract.defaultIndependenceRequirements.isEmpty then []
    else [("independent_on", .ofStrings contract.defaultIndependenceRequirements)]
  match metadata.get "independence_constraints" with
  | .obj constraints => constraints.foldl (fun context f => Fields.put f.1 f.2 context) required
  | _ => required

/-- The metadata of a built request. -/
def builtMetadata (capability : String) (contract : CapabilityContract)
    (requested effective : EffectClass) (profile : ProcedureProfile) (metadata : Fields) : Fields :=
  let independence := independenceContext contract metadata
  let metadata := (((metadata.put "requested_effect_class" (.str requested.text)).put
    "effective_impact" (.str effective.text)).put
    "effect_semantics" (.str contract.effectSemantics.text)).put
    "procedure_profile" (.str profile.text)
  let metadata :=
    if effective = .read && !metadata.has "procedure_applicability" &&
        !(metadata.get "procedure_required").truthy then
      metadata.put "procedure_applicability" (.obj
        [("status", .str "not-applicable"), ("authority", .str "capability-effect-rule"),
         ("capability", .str capability), ("impact_class", .str "read")])
    else metadata
  if independence.isEmpty then metadata
  else
    let metadata := metadata.put "independence_context" (.obj independence)
    if metadata.has "independence_constraints" then metadata
    else metadata.put "independence_constraints" (.obj independence)

/-- `build`; a capability without a contract raises `EffectContractMissing`. -/
def build (digest : Json → String) (args : BuildArguments) : Result InvocationRequest := do
  let contract ← orRaise (f.contractRegistry.resolve args.capability)
    ("EffectContractMissing: no authoritative effect rule for capability " ++
      Text.pyRepr args.capability)
  let requested ← requestedEffect args.effectClass args.metadata
  let providerMinimum ← f.providerMinimum args.capability
  let effective :=
    computeEffectiveImpact contract.minimumImpactClass providerMinimum (some requested)
  let fresh ← f.freshRun args.runId
  let (leaseOwner, leaseGeneration) := presentedLease fresh args.leaseOwner args.leaseGeneration
  let profile ← effectiveProcedureProfile contract.minimumProcedureProfile
    [args.metadata.get "procedure_profile"]
  let paramHash := hashParams digest args.capability args.instruction args.parameters
  let idempotencyKey := (given args.idempotencyKey).getD (match given args.runId with
    | some runId => s!"{runId}:{args.capability}:{paramHash}"
    | none => s!"{args.capability}:{paramHash}:{args.freshIdempotency}")
  let actorRef ← optionalText (args.actorRef.pyOr (args.metadata.get "actor_ref"))
  let resourceRef ← optionalText (args.resourceRef.pyOr
    ((args.metadata.get "resource_ref").pyOr (args.metadata.get "resource")))
  let subjectVersionRefs ← textList (subjectVersions args.subjectVersionRefs args.metadata)
  return { id := (given args.requestId).getD args.freshRequest,
           capability := args.capability, workId := args.workId, runId := args.runId,
           metadata := builtMetadata args.capability contract requested effective profile
             args.metadata,
           idempotencyKey := some idempotencyKey,
           stepKey := some ((given args.stepKey).getD s!"{args.capability}:{paramHash}"),
           leaseGeneration, leaseOwner, instruction := args.instruction,
           parameters := args.parameters, constraints := args.constraints,
           preferredProviderIds := args.preferredProviderIds,
           excludedProviderIds := args.excludedProviderIds,
           actorRef, resourceRef, subjectVersionRefs, effectClass := effective }

/-- The request under a class that its contract raises. -/
def normalizeEffect (request : InvocationRequest) (contract : Option CapabilityContract) :
    Result InvocationRequest :=
  match contract with
  | none => .ok request
  | some contract => do
    let requested :=
      request.metadata.getOr "requested_effect_class" (.str request.effectClass.text)
    let effective :=
      computeEffectiveImpact contract.minimumImpactClass none (← knownImpact requested)
    if request.effectClass.level < effective.level then
      return { request with
        effectClass := effective
        metadata := request.metadata.put "effective_impact" (.str effective.text) }
    else return request

/-- The request under the lease of the stored run. -/
def normalizeLease (request : InvocationRequest) : Result InvocationRequest :=
  match given request.runId with
  | none => .ok request
  | some runId => do
    match ← f.freshRun (some runId) with
    | none => return request
    | some run =>
      return { request with leaseGeneration := run.leaseGeneration, leaseOwner := run.leaseOwner }

def normalize (request : InvocationRequest) (contract : Option CapabilityContract) :
    Result InvocationRequest := do
  f.normalizeLease (← normalizeEffect request contract)

/-! ## What a built request carries -/

/-- The parts of a request that its arguments name as they are. -/
structure Identified (args : BuildArguments) (request : InvocationRequest) : Prop where
  runId : request.runId = args.runId
  id : ∀ id, given args.requestId = some id → request.id = id
  stepKey : ∀ key, given args.stepKey = some key → request.stepKey = some key
  idempotencyKey : ∀ key, given args.idempotencyKey = some key → request.idempotencyKey = some key

variable {f} {digest : Json → String} {args : BuildArguments} {request : InvocationRequest}

theorem identity_of_build (h : f.build digest args = .ok request) : Identified args request := by
  unfold build at h
  obtain ⟨contract, -, h⟩ := Result.bind_eq_ok.mp h
  obtain ⟨requested, -, h⟩ := Result.bind_eq_ok.mp h
  obtain ⟨minimum, -, h⟩ := Result.bind_eq_ok.mp h
  obtain ⟨fresh, -, h⟩ := Result.bind_eq_ok.mp h
  obtain ⟨profile, -, h⟩ := Result.bind_eq_ok.mp h
  obtain ⟨actorRef, -, h⟩ := Result.bind_eq_ok.mp h
  obtain ⟨resourceRef, -, h⟩ := Result.bind_eq_ok.mp h
  obtain ⟨versions, -, h⟩ := Result.bind_eq_ok.mp h
  obtain rfl := Result.pure_eq_ok.mp h
  constructor
  · rfl
  · intro id hid
    simp only [hid, Option.getD_some]
  · intro key hkey
    simp only [hkey, Option.getD_some]
  · intro key hkey
    simp only [hkey, Option.getD_some]

theorem lease_of_build (h : f.build digest args = .ok request) :
    ∃ fresh, f.freshRun args.runId = .ok fresh ∧
      (request.leaseOwner, request.leaseGeneration) =
        presentedLease fresh args.leaseOwner args.leaseGeneration := by
  unfold build at h
  obtain ⟨contract, -, h⟩ := Result.bind_eq_ok.mp h
  obtain ⟨requested, -, h⟩ := Result.bind_eq_ok.mp h
  obtain ⟨minimum, -, h⟩ := Result.bind_eq_ok.mp h
  obtain ⟨fresh, hfresh, h⟩ := Result.bind_eq_ok.mp h
  obtain ⟨profile, -, h⟩ := Result.bind_eq_ok.mp h
  obtain ⟨actorRef, -, h⟩ := Result.bind_eq_ok.mp h
  obtain ⟨resourceRef, -, h⟩ := Result.bind_eq_ok.mp h
  obtain ⟨versions, -, h⟩ := Result.bind_eq_ok.mp h
  obtain rfl := Result.pure_eq_ok.mp h
  exact ⟨fresh, hfresh, rfl⟩

end InvocationFactory
end PortableRuntime
