import PortableRuntime.Core.Policies
import PortableRuntime.Core.Reliability
import PortableRuntime.Governance.DispatchCommit

/-!
# The reality exit

`execute` takes a request through its gates to one provider call.  The collaborators are
whatever they answer: for each of their calls there is one answer, a value or an exception.
Transition events are evidence of what happened and decide nothing, so none is kept.
-/

namespace PortableRuntime

/-! ## What the collaborators answer -/

structure ProviderDescriptor where
  id : String
  effectSemantics : SideEffectClass := .pure
  sideEffectClass : SideEffectClass := .pure
  reversibility : Reversibility := .unknown
deriving Repr, DecidableEq, Inhabited

/-- A qualification snapshot.  The buckets that no gate of the boundary reads itself are
`otherProofs`. -/
structure Assessment (ρ : Type) where
  work : Option Work := none
  run : Option Run := none
  proofs : QualificationProofs := {}
  otherProofs : ρ
  digest : String

/-- What a procedure checker returns. -/
inductive ProcedureStatuses where
  | assessment (executable : Bool)
  /-- Each obligation with its status. -/
  | statuses (entries : List (String × String))
  | malformed
deriving Repr, DecidableEq

/-- What a procedure checker is asked about. -/
structure ProcedureInput (ρ : Type) where
  work : Work
  run : Run
  profile : ProcedureProfile
  proofs : QualificationProofs
  otherProofs : ρ
  grants : Option (List AuthorizationGrant)
  now : Time

/-- The end of `await provider.invoke(...)`: a result, an exception, or a cancellation or
malformed result, which leaves `execute` as an exception. -/
inductive ProviderAnswer where
  | answered (result : CapabilityResult)
  | raised (e : PyError)
  | escaped
deriving Repr, Inhabited

open Governance in
/-- The committer that `execute` makes for its store.  A governed permit is never answered
with "not applicable". -/
structure Committer where
  commit : InvocationRequest → DispatchPermit → Option String → Result DispatchCommit
  governed : ∀ request permit attemptId decision, permit.governanceApplicable = true →
    commit request permit attemptId = .ok decision → decision.status ≠ .notApplicable

/-- The committer of a store: each commit is `call` with its own arguments. -/
def Committer.dispatching {σ π : Type} [DecidableEq π] (ops : DispatchStore σ)
    (digest : Json → String) (admission : DispatchStore.UseAdmission σ) (st : σ)
    (call : Governance.DispatchCall π) : Committer where
  commit request permit attemptId := .ok (ops.commitDispatch digest admission st
    { call with request := request.toCapabilityRequest, permit, attemptId }).1
  governed request permit attemptId decision hgoverned h := by
    obtain rfl := Except.ok.inj h
    exact ops.commitDispatch_governed digest admission st hgoverned

/-- A boundary after it has looked for its collaborators. -/
structure RealityBoundary (σ : Type) where
  authority : EffectAuthority
  ops : ExecutionStore σ
  hasStore : Bool := true
  hasRegistry : Bool := true
  hasPolicyEngine : Bool := true
  notApplicableDigest : String

/-- One answer for each call, and the time at each of the gates that read the clock. -/
structure Answers (σ ρ π : Type) where
  descriptorsFor : Result (List ProviderDescriptor) := .ok []
  getRun : Result (Option Run) := .ok none
  fencedAt : Time := 0
  assessment : Result (Assessment ρ)
  admission : Result GovernanceUseAdmissionDecision
  /-- The decision of the policy engine; `none` for an object without its fields. -/
  policyDecision : PolicyContext → Result (Option PolicyDecision) := fun _ => .ok (some {})
  policyListing : GrantListing := .ok []
  decidedAt : Time := 0
  authorizationListing : GrantListing := .ok []
  authorizedAt : Time := 0
  procedureListing : Result (Option (List AuthorizationGrant)) := .ok none
  procedureAt : Time := 0
  checkProcedure : ProcedureInput ρ → Result ProcedureStatuses := fun _ => .ok (.assessment true)
  /-- The judgment of the reliability controls on a stage input and a recovery timing. -/
  assess : ReliabilityStageInput → Json → Result (Bool × Option String) := fun _ _ =>
    .ok (true, none)
  health : String → Result Bool := fun _ => .ok true
  circuitAllows : String → Bool := fun _ => true
  select : List ProviderDescriptor → Result (Option ProviderDescriptor)
  refreshed : Result Bool := .ok true
  readmission : Result GovernanceUseAdmissionDecision
  requestDigest : String := "digest"
  /-- The store at the precommit, and how its reads end there. -/
  stored : σ
  storedAt : Time := 0
  precommitRead : Result Unit := .ok ()
  freshStep : String := "step"
  freshAttempt : String := "attempt"
  freshAction : String := "action"
  recordAction : Result Unit := .ok ()
  provider : Result π
  finallyRefreshed : Result Bool := .ok true
  finalAdmission : Result GovernanceUseAdmissionDecision
  committer : Committer
  answer : ProviderAnswer := .answered default
  completeAction : Option (Result Unit) := some (.ok ())
  runAfter : Result (Option Run) := .ok none
  /-- The store after the provider call, and how its reads end there. -/
  storedAfter : σ
  answeredAt : Time := 0
  projectionRead : Result Unit := .ok ()
  projectedAction : String := "projected"

/-- How an execution ends before the provider call. -/
inductive Stop where
  | returned (code reason : String)
  | raised (e : PyError)
deriving Repr, DecidableEq

abbrev Stage := Except Stop

namespace Stage

def stop {α : Type} (code reason : String) : Stage α := .error (.returned code reason)

/-- A call without a handler. -/
def unhandled {α : Type} (x : Result α) : Stage α := x.mapError .raised

/-- A call whose exceptions become a refusal. -/
def handled {α : Type} (x : Result α) (code : String) (reason : PyError → String) : Stage α :=
  x.mapError (fun e => .returned code (reason e))

def require (holds : Bool) (code reason : String) : Stage Unit :=
  if holds then .ok () else stop code reason

theorem bind_eq_ok {α β : Type} {x : Stage α} {f : α → Stage β} {b : β} :
    (x >>= f) = .ok b ↔ ∃ a, x = .ok a ∧ f a = .ok b := by
  cases x with
  | error e => simp [bind, Except.bind]
  | ok a => simp [bind, Except.bind]

theorem require_eq_ok {holds : Bool} {code reason : String} {u : Unit} :
    require holds code reason = .ok u ↔ holds = true := by
  cases holds <;> simp [require, stop]

theorem handled_eq_ok {α : Type} {x : Result α} {code : String} {reason : PyError → String}
    {a : α} : handled x code reason = .ok a ↔ x = .ok a := mapError_eq_ok

theorem unhandled_eq_ok {α : Type} {x : Result α} {a : α} : unhandled x = .ok a ↔ x = .ok a :=
  mapError_eq_ok

end Stage
/-! ## The stages -/

def codeEffectContractMissing : String := "EffectContractMissing"
def codeNoEligibleProvider : String := "NoEligibleProvider"
def codeRoutingUnavailable : String := "RoutingUnavailable"
def codeQualificationUnavailable : String := "QualificationUnavailable"
def codeGovernanceBlocked : String := "GovernanceBlocked"
def codeProcedureUnavailable : String := "ProcedureUnavailable"
def codeProcedureIncomplete : String := "ProcedureIncomplete"
def codeReliabilityBlocked : String := "ReliabilityBlocked"
def codeReliabilityUnavailable : String := "ReliabilityUnavailable"
def codePrecommitFailed : String := "PrecommitFailed"

/-- The code of a refused authorization: the first known code that its reason names. -/
def authorizationCode (reason : String) : String :=
  (["EffectContractMissing", "EffectContractInvalid", "AuthorizationRequired",
      "AuthorizationUnavailable", "ResourceRequired", "SubjectVersionRequired",
      "AuthorizationDenied"].find? (fun code =>
        Text.startsWith reason code || Text.hasInfix reason (code ++ ":"))).getD
    "AuthorizationDenied"

namespace ProcedureProfile

def text : ProcedureProfile → String
  | .minimal => "minimal"
  | .standard => "standard"
  | .enhanced => "enhanced"

def ofJson? (j : Json) : Option ProcedureProfile :=
  [.minimal, .standard, .enhanced].find? (fun p => j.eqStr p.text)

/-- Position in `_PROCEDURE_ORDER`. -/
def level : ProcedureProfile → Nat
  | .minimal => 0
  | .standard => 1
  | .enhanced => 2

end ProcedureProfile

/-- The strictest of a minimum and the profiles that are asked for.  An unknown one raises. -/
def effectiveProcedureProfile (minimum : ProcedureProfile) (requested : List Json) :
    Result ProcedureProfile :=
  let requested := requested.filter (fun j => !j.isNone)
  let values := (Json.arr (.str minimum.text :: requested)).pyRepr
  requested.foldlM (fun strictest j => do
    let profile ← orRaise (ProcedureProfile.ofJson? j)
      s!"unknown procedure profile in {values}; refusing to downgrade governance"
    return if strictest.level < profile.level then profile else strictest) minimum

/-- Unresolved obligations block; a verdict of its own kind decides itself. -/
def procedureBlocked : ProcedureStatuses → Bool × String
  | .assessment true => (false, "procedure executable")
  | .assessment false =>
    (true, s!"{codeProcedureIncomplete}: procedure assessment is not executable")
  | .malformed =>
    (true, s!"{codeProcedureUnavailable}: procedure checker returned malformed assessment")
  | .statuses entries =>
    let bad := entries.filter (fun e =>
      ["open", "required", "blocked", "expired", "invalidated"].contains e.2)
    if bad.isEmpty then (false, "procedure executable")
    else (true, s!"{codeProcedureIncomplete}: unresolved procedure obligations: " ++
      Text.join ", " (bad.map Prod.fst))

/-- Only an explicit typed proof for a pure read makes the procedure not applicable. -/
def procedureNotApplicable (request : InvocationRequest) (effective : EffectClass) : Bool :=
  match effective, request.metadata.get "procedure_applicability" with
  | .read, .obj proof =>
    (Fields.get proof "status").eqStr "not-applicable" &&
      (Fields.get proof "authority").eqStr "capability-effect-rule" &&
      (Fields.get proof "capability").eqStr request.capability &&
      (Fields.get proof "impact_class").eqStr "read"
  | _, _ => false

/-- The refusal of a judgment that is not the admitted one. -/
def governanceRecheckFailure (reference current : GovernanceUseAdmissionDecision) :
    Option (String × String) :=
  match current.status with
  | .unavailable => some (codeGovernanceUnavailable, current.reason)
  | .stale => some (codeGovernanceStale, current.reason)
  | .blocked => some (codeGovernanceChanged,
      s!"governance use judgment changed after admission: {current.reason}")
  | status =>
    if status ≠ reference.status || current.requirementDigest ≠ reference.requirementDigest ||
        current.snapshotDigest ≠ reference.snapshotDigest then
      some (codeGovernanceChanged,
        "governance use judgment no longer matches the admitted snapshot")
    else none

/-- `_int_or_none`: a positive number. -/
def intOrNone : Json → Option Int
  | .bool _ => none
  | j => j.int?.filter (1 ≤ ·)

/-- What the gates let through. -/
structure Admitted (ρ : Type) where
  classification : EffectAuthority.Classification
  request : InvocationRequest
  assessment : Option (Assessment ρ)
  governance : GovernanceUseAdmissionDecision
  selected : ProviderDescriptor
  permit : Governance.DispatchPermit

namespace RealityBoundary

open ExecutionStore Governance

variable {σ ρ π : Type} (b : RealityBoundary σ) (r : Answers σ ρ π)

/-- The request as the later stages see it: with its effective class. -/
def classifiedRequest (request : InvocationRequest) (c : EffectAuthority.Classification) :
    InvocationRequest :=
  let metadata := request.metadata.put "effective_impact" (.str c.effective.text)
  { request with
    effectClass :=
      if request.effectClass.level < c.effective.level then c.effective else request.effectClass
    metadata :=
      if metadata.has "effect_semantics" then metadata
      else metadata.put "effect_semantics" (.str c.contract.effectSemantics.text) }

/-- The contract, the providers that might serve, and the effective impact. -/
def contractStage (request : InvocationRequest) :
    Stage (EffectAuthority.Classification × List ProviderDescriptor) :=
  match b.authority.classify request with
  | none => Stage.stop codeEffectContractMissing
      ("EffectContractMissing: no authoritative effect rule for capability " ++
        Text.pyRepr request.capability)
  | some classification => do
    Stage.require b.hasRegistry codeNoEligibleProvider "provider registry unavailable"
    let descriptors ← Stage.handled r.descriptorsFor codeRoutingUnavailable
      (fun e => s!"provider discovery failed: {e.message}")
    Stage.require (!descriptors.any (fun d => d.sideEffectClass ≠ .pure) ||
        b.authority.effectRegistry.hasRule request.capability) codeEffectContractMissing
      (s!"{codeEffectContractMissing}: non-pure provider exposes unregistered capability " ++
        Text.pyRepr request.capability)
    return (classification, descriptors)

/-- The fencing read on the run that the store returns. -/
def fencing (read : Result (Option Run)) (now : Time) (request : CapabilityRequest) :
    Except (String × String) Unit :=
  match request.runId with
  | none => .ok ()
  | some runId =>
    if !b.hasStore then
      .error (codeFencingUnavailable, s!"{codeFencingUnavailable}: fencing store unavailable")
    else match read with
      | .error e => .error (codeFencingUnavailable,
          s!"{codeFencingUnavailable}: fencing read failed: {e.message}")
      | .ok none => .error (codeFencingUnavailable,
          s!"{codeFencingUnavailable}: run {Text.pyRepr runId} not found")
      | .ok (some run) => match validateFencing request (some run) now with
        | (true, _) => .ok ()
        | (false, reason) => .error (codeFencingRejected, s!"{codeFencingRejected}: {reason}")

/-- Qualification facts are resolved where there is a store. -/
def qualificationStage : Stage (Option (Assessment ρ)) :=
  if b.hasStore then
    match r.assessment with
    | .ok assessment => .ok (some assessment)
    | .error (.qualificationResolutionError message) =>
      Stage.stop codeQualificationUnavailable message
    | .error e => Stage.stop codeQualificationUnavailable
        s!"qualification resolution failed: {e.message}"
  else .ok none

def governanceStage : Stage GovernanceUseAdmissionDecision := do
  let governance ← Stage.unhandled r.admission
  match governance.status with
  | .blocked => Stage.stop codeGovernanceBlocked governance.reason
  | .unavailable => Stage.stop codeGovernanceUnavailable governance.reason
  | .stale => Stage.stop codeGovernanceStale governance.reason
  | _ => return governance

/-- What the policy gate decides on. -/
def policyFacts (request : InvocationRequest) (contract : CapabilityContract)
    (assessment : Option (Assessment ρ)) : PolicyFacts where
  authority := b.authority
  request := request
  contract := contract
  snapshot := assessment.map Assessment.proofs
  listing := r.policyListing
  now := r.decidedAt

def policyStage (facts : PolicyFacts) : Stage Unit :=
  if b.hasPolicyEngine then
    match r.policyDecision facts.context with
    | .ok none => Stage.stop codePolicyUnavailable "policy engine returned malformed decision"
    | evaluated =>
      (facts.decisionGate (evaluated.map (fun d => d.getD {}))).mapError
        (fun refusal => .returned refusal.1 refusal.2)
  else .ok ()

def authorization (request : InvocationRequest) (contract : CapabilityContract)
    (assessment : Option (Assessment ρ)) : Bool × String :=
  b.authority.checkAuthorization request contract
    (snapshotGrants (assessment.map Assessment.proofs)) r.authorizationListing r.authorizedAt

def authorizationStage (request : InvocationRequest) (contract : CapabilityContract)
    (assessment : Option (Assessment ρ)) : Stage Unit :=
  match b.authorization r request contract assessment with
  | (true, _) => .ok ()
  | (false, reason) => Stage.stop (authorizationCode reason) reason

/-- The profile of the contract; a rule that needs an authorization asks for more than the
least. -/
def contractProfile (request : InvocationRequest) (contract : CapabilityContract) :
    ProcedureProfile :=
  if (b.authority.effectRegistry.resolve request.capability).any
      CapabilityEffectRule.authorizationRequired && contract.minimumProcedureProfile = .minimal then
    .standard
  else contract.minimumProcedureProfile

/-- What the procedure gate finds. -/
def procedure (request : InvocationRequest) (contract : CapabilityContract)
    (assessment : Option (Assessment ρ)) : Result (Bool × String) :=
  match assessment with
  | none => .error (.runtimeError "procedure store unavailable")
  | some assessment => match assessment.work, assessment.run with
    | some work, some run => do
      let profile ← effectiveProcedureProfile (b.contractProfile request contract)
        [work.metadata.get "procedure_profile", run.metadata.get "procedure_profile",
         request.metadata.get "procedure_profile"]
      let grants ← (snapshotGrants (some assessment.proofs)).elim r.procedureListing
        (fun grants => .ok (some grants))
      let statuses ← r.checkProcedure
        { work, run, profile, proofs := assessment.proofs, otherProofs := assessment.otherProofs,
          grants, now := r.procedureAt }
      return procedureBlocked statuses
    | _, _ => .error (.runtimeError "work/run not found for procedure assessment")

/-- Whether the procedure gate is asked at all. -/
def procedureApplies (request : InvocationRequest) (effective : EffectClass) : Bool :=
  (given request.workId).isSome && (given request.runId).isSome &&
    !procedureNotApplicable request effective

def procedureStage (request : InvocationRequest) (c : EffectAuthority.Classification)
    (assessment : Option (Assessment ρ)) : Stage Unit :=
  if procedureApplies request c.effective then do
    let (blocked, reason) ← Stage.handled (b.procedure r request c.contract assessment)
      codeProcedureUnavailable (fun e => s!"procedure evaluation failed: {e.message}")
    Stage.require (!blocked) codeProcedureIncomplete reason
  else .ok ()

/-- The blast radius that is declared, by the request, the rule or the contract. -/
def requestedBlastRadius (request : InvocationRequest) (contract : CapabilityContract) :
    Option Int :=
  let rule := b.authority.effectRegistry.resolve request.capability
  (intOrNone (request.metadata.get "blast_radius")).or
    (((rule.bind CapabilityEffectRule.blastRadius).filter (1 ≤ ·)).or
      (contract.blastRadius.filter (1 ≤ ·)))

def requestedExposure (request : InvocationRequest) (contract : CapabilityContract) :
    Option Int :=
  let rule := b.authority.effectRegistry.resolve request.capability
  (intOrNone (request.metadata.get "exposure")).or
    (((rule.bind CapabilityEffectRule.exposure).filter (1 ≤ ·)).or
      (contract.exposure.filter (1 ≤ ·)))

/-- What the reliability controls are asked about. -/
def reliabilityInput (request : InvocationRequest) (c : EffectAuthority.Classification)
    (profile : ProcedureProfile) : ReliabilityStageInput where
  sideEffect := c.sideEffect
  actionBlastRadius := (b.requestedBlastRadius request c.contract).getD 1
  exposure := b.requestedExposure request c.contract
  irreversible := c.effective = .admin || c.effective = .irreversible
  procedureProfile := profile.text

/-- An unknown profile raises here, outside every handler. -/
def reliabilityStage (request : InvocationRequest) (c : EffectAuthority.Classification) :
    Stage Unit := do
  let profile ← Stage.unhandled (effectiveProcedureProfile c.contract.minimumProcedureProfile
    [request.metadata.get "procedure_profile"])
  let highImpact := c.effective = .deploy || c.effective = .admin || c.effective = .irreversible
  Stage.require (!(c.sideEffect && highImpact && (b.requestedBlastRadius request c.contract).isNone))
    codeReliabilityBlocked "high-impact capability has no declared blast_radius"
  let (allowed, reason) ← Stage.handled
    (r.assess (b.reliabilityInput request c profile) (request.metadata.get "recovery_timing"))
    codeReliabilityUnavailable (fun e => s!"reliability evaluation failed: {e.message}")
  Stage.require allowed codeReliabilityBlocked
    ((given reason).getD "reliability budget exhausted")

/-- The providers that are available and whose circuit allows a call. -/
def healthyProviders : List ProviderDescriptor → Result (List ProviderDescriptor)
  | [] => .ok []
  | d :: rest => do
    let available ← r.health d.id
    let others ← healthyProviders rest
    return if available && r.circuitAllows d.id then d :: others else others

def routingStage (request : InvocationRequest) (descriptors : List ProviderDescriptor) :
    Stage ProviderDescriptor := do
  let healthy ← Stage.handled (healthyProviders r descriptors) codeRoutingUnavailable
    (fun e => s!"provider eligibility evaluation failed: {e.message}")
  let selected ← Stage.handled (if healthy.isEmpty then .ok none else r.select healthy)
    codeRoutingUnavailable (fun e => s!"routing evaluation failed: {e.message}")
  match selected with
  | none => Stage.stop codeNoEligibleProvider s!"no eligible provider for {request.capability}"
  | some selected => return selected

/-- The qualification facts once more, where there are some: after routing, and before the
exit. -/
def refreshStage (assessment : Option (Assessment ρ)) (refreshed : Result Bool)
    (changed failed : String) : Stage Unit :=
  match assessment, refreshed with
  | none, _ => .ok ()
  | some _, .ok true => .ok ()
  | some _, .ok false => Stage.stop codeQualificationChanged changed
  | some _, .error (.qualificationResolutionError message) =>
    Stage.stop codeQualificationChanged message
  | some _, .error e => Stage.stop codeQualificationChanged s!"{failed}: {e.message}"

def readmissionStage (admitted : GovernanceUseAdmissionDecision) :
    Stage GovernanceUseAdmissionDecision := do
  let current ← Stage.unhandled r.readmission
  match governanceRecheckFailure admitted current with
  | some (code, reason) => Stage.stop code reason
  | none => return current

/-- The permit of a request and a provider.  A governed one needs both digests. -/
def issuePermit (request : InvocationRequest) (providerId qualificationDigest : String)
    (governance : GovernanceUseAdmissionDecision) : Result DispatchPermit :=
  let given (digest : String) := if digest = "" then b.notApplicableDigest else digest
  if governance.status = .allowed &&
      (governance.requirementDigest = "" || governance.snapshotDigest = "") then
    .error (.qualificationResolutionError
      "governed invocation permit requires governance requirement and snapshot digests")
  else .ok
    { governanceApplicable := governance.status = .allowed
      governanceRequirementDigest := given governance.requirementDigest
      governanceSnapshotDigest := given governance.snapshotDigest
      requestDigest := r.requestDigest
      qualificationDigest
      providerId
      leaseGeneration := (extractLeaseGeneration request.toCapabilityRequest).getD 0 }

/-- Every gate before the first write. -/
def gates (request : InvocationRequest) : Stage (Admitted ρ) := do
  let (classification, descriptors) ← b.contractStage r request
  let request := classifiedRequest request classification
  (b.fencing r.getRun r.fencedAt request.toCapabilityRequest).mapError
    (fun refusal => .returned refusal.1 refusal.2)
  let assessment ← b.qualificationStage r
  let admitted ← governanceStage r
  b.policyStage r (b.policyFacts r request classification.contract assessment)
  b.authorizationStage r request classification.contract assessment
  b.procedureStage r request classification assessment
  b.reliabilityStage r request classification
  let selected ← routingStage r request descriptors
  refreshStage assessment r.refreshed
    "authoritative qualification facts changed during assessment"
    "qualification revalidation failed"
  let governance ← readmissionStage r admitted
  let permit ← Stage.unhandled (b.issuePermit r request selected.id
    (assessment.elim "" Assessment.digest) governance)
  return { classification, request, assessment, governance, selected, permit }

def precommit (a : Admitted ρ) : Precommit where
  providerId := a.selected.id
  permitDigest := a.permit.requestDigest
  sideEffect := a.classification.sideEffect
  sideEffectClass := a.selected.sideEffectClass
  effectSemantics := a.selected.effectSemantics
  reversibility := a.selected.reversibility
  freshStep := r.freshStep
  freshAttempt := r.freshAttempt
  freshAction := r.freshAction

/-- The records before the call.  Without a store, or with reads that fail, a side effect is
refused and a pure request goes on without records. -/
def precommitStage (a : Admitted ρ) : Stage (ExecutionRecordIds × σ) :=
  let readable : Result Unit :=
    if b.hasStore then r.precommitRead
    else .error (.runtimeError "side-effect invocation requires durable work/run precommit")
  if a.classification.sideEffect then
    Stage.handled (readable.bind (fun _ => b.ops.precommitExecutionRecords r.storedAt r.stored
        a.request.toCapabilityRequest (precommit r a)))
      codePrecommitFailed (fun e => s!"precommit failed: {e.message}")
  else match readable with
    | .error _ => .ok ({}, r.stored)
    | .ok () => Stage.handled (b.ops.precommitExecutionRecords r.storedAt r.stored
        a.request.toCapabilityRequest (precommit r a)) codePrecommitFailed PyError.message

/-- The accounting and the provider object.  A failed lookup first gives the slot back. -/
def lookupStage (a : Admitted ρ) : Stage π := do
  Stage.handled r.recordAction codeReliabilityUnavailable
    (fun e => s!"reliability accounting failed: {e.message}")
  match r.provider, a.classification.sideEffect, r.completeAction with
  | .ok provider, _, _ => return provider
  | .error _, true, some (.error e) => .error (.raised e)
  | .error e, _, _ => Stage.stop codeRoutingUnavailable s!"provider lookup failed: {e.message}"

/-- The last reading of the facts, of the judgment and of the dispatch. -/
def dispatchStage (a : Admitted ρ) (records : ExecutionRecordIds) : Stage DispatchCommit := do
  refreshStage a.assessment r.finallyRefreshed
    "authoritative qualification facts changed before reality exit"
    "qualification final revalidation failed"
  let current ← Stage.unhandled r.finalAdmission
  match governancePermitFailure a.permit.toInvocationPermit current with
  | some (code, reason) => Stage.stop code reason
  | none => do
    let decision ← Stage.unhandled (r.committer.commit a.request a.permit records.attemptId)
    match dispatchFailure decision.toDispatchCommitDecision with
    | some (code, reason) => Stage.stop code reason
    | none => return decision

/-- How the answer of the provider counts: an exception is a failed result. -/
def invocationResult (request : InvocationRequest) : Option CapabilityResult :=
  match r.answer with
  | .answered result => some result
  | .raised e => some
      { requestId := request.id, status := .failed, error := some [("message", .str e.message)] }
  | .escaped => none

/-- The projection of a result onto the records. -/
def projection (a : Admitted ρ) (records : ExecutionRecordIds) (result : CapabilityResult) :
    Result σ :=
  if !b.hasStore || records.stepId.isNone then .ok r.storedAfter
  else do
    r.projectionRead
    b.ops.commitExecutionProjection r.answeredAt r.storedAfter a.request.toCapabilityRequest result
      a.selected.id records r.projectedAction

/-- The status that is returned, `none` where an exception leaves, and the store after the
projection. -/
def conclude (a : Admitted ρ) (records : ExecutionRecordIds) :
    Option CapabilityResultStatus × σ :=
  match invocationResult r a.request, a.classification.sideEffect, r.completeAction with
  | none, _, _ => (none, r.storedAfter)
  | some _, true, some (.error _) => (none, r.storedAfter)
  | some result, _, _ =>
    let after := if (given a.request.runId).isSome then
        b.fencing r.runAfter r.answeredAt a.request.toCapabilityRequest else .ok ()
    match after with
    | .error refusal => (some .unknown,
        b.ops.demote r.answeredAt r.storedAfter records
          (postFencingError refusal.2 refusal.1))
    | .ok () => match b.projection r a records result with
      | .error _ => (some .unknown, r.storedAfter)
      | .ok st => (some result.status, st)

/-- What one execution did: the provider objects it invoked, the records it left, the status
it returned, if it returned, and the store at its end. -/
structure Execution (σ π : Type) where
  invocations : List π := []
  records : ExecutionRecordIds := {}
  returned : Option CapabilityResultStatus
  store : σ

/-- A refusal is returned as an unavailable result. -/
def stopped (stop : Stop) (records : ExecutionRecordIds) (st : σ) : Execution σ π :=
  match stop with
  | .returned _ _ => { records, returned := some .unavailable, store := st }
  | .raised _ => { records, returned := none, store := st }

/-- The store after a refused dispatch: a refusal cancels the precommitted records. -/
def aborted (a : Admitted ρ) (records : ExecutionRecordIds) (st : σ) : Stop → σ
  | .returned code reason =>
    (b.ops.abortPreinvocationRecords r.storedAt st a.request.toCapabilityRequest a.selected.id
      records code reason).toOption.getD st
  | .raised _ => st

/-- Single fail-closed reality exit for provider side effects. -/
def execute (request : InvocationRequest) : Execution σ π :=
  match b.gates r request with
  | .error stop => stopped stop {} r.stored
  | .ok a => match b.precommitStage r a with
    | .error stop => stopped stop {} r.stored
    | .ok (records, st) => match lookupStage r a with
      | .error stop => stopped stop records st
      | .ok provider => match dispatchStage r a records with
        | .error stop => stopped stop records (b.aborted r a records st stop)
        | .ok _ =>
          let concluded := b.conclude r a records
          { invocations := [provider], records, returned := concluded.1, store := concluded.2 }

/-! ## What an invocation has passed -/

/-- Step, attempt and Action are stored. -/
structure Precommitted (ops : ExecutionStore σ) (st : σ) (records : ExecutionRecordIds) :
    Prop where
  step : ∃ id, records.stepId = some id ∧ (ops.getStep st id).isSome
  attempt : ∃ id, records.attemptId = some id ∧ (ops.getAttempt st id).isSome
  action : ∃ id, records.actionId = some id ∧ (ops.get st .action id).isSome

/-- Each gate has let the request pass, as far as it was there to ask. -/
structure Gated (request : InvocationRequest) (a : Admitted ρ) : Prop where
  contract : b.authority.classify request = some a.classification
  classified : a.request = classifiedRequest request a.classification
  registry : b.hasRegistry = true
  fencing : b.fencing r.getRun r.fencedAt a.request.toCapabilityRequest = .ok ()
  qualification : if b.hasStore then ∃ assessment, r.assessment = .ok assessment ∧
    a.assessment = some assessment else a.assessment = none
  governance : ∃ admitted, r.admission = .ok admitted ∧
    (admitted.status = .allowed ∨ admitted.status = .notApplicable) ∧
    r.readmission = .ok a.governance ∧ governanceRecheckFailure admitted a.governance = none
  policy : b.hasPolicyEngine = true → ∃ decision,
    r.policyDecision (b.policyFacts r a.request a.classification.contract a.assessment).context =
      .ok (some decision) ∧
    (b.policyFacts r a.request a.classification.contract a.assessment).decisionGate
      (.ok decision) = .ok ()
  authorization :
    (b.authorization r a.request a.classification.contract a.assessment).1 = true
  procedure : procedureApplies a.request a.classification.effective = true →
    ∃ reason, b.procedure r a.request a.classification.contract a.assessment = .ok (false, reason)
  reliability : ∃ profile reason, r.assess
    (b.reliabilityInput a.request a.classification profile)
      (a.request.metadata.get "recovery_timing") = .ok (true, reason)
  routing : ∃ descriptors healthy, r.descriptorsFor = .ok descriptors ∧
    healthyProviders r descriptors = .ok healthy ∧ r.select healthy = .ok (some a.selected)
  unchanged : a.assessment.isSome = true → r.refreshed = .ok true
  permit : b.issuePermit r a.request a.selected.id (a.assessment.elim "" Assessment.digest)
    a.governance = .ok a.permit

/-- What stands between the gates and the provider call. -/
structure Dispatched (a : Admitted ρ) (records : ExecutionRecordIds) (st : σ) (provider : π) :
    Prop where
  precommitted : a.classification.sideEffect = true → Precommitted b.ops st records
  accounted : r.recordAction = .ok ()
  provider : r.provider = .ok provider
  unchanged : a.assessment.isSome = true → r.finallyRefreshed = .ok true
  admitted : ∃ current, r.finalAdmission = .ok current ∧
    governancePermitFailure a.permit.toInvocationPermit current = none
  committed : a.permit.governanceApplicable = true → ∃ decision,
    r.committer.commit a.request a.permit records.attemptId = .ok decision ∧
      decision.status = .committed

/-- Step, attempt and Action of a call are stored as succeeded. -/
structure Projected (ops : ExecutionStore σ) (before after : σ) (records : ExecutionRecordIds) :
    Prop where
  step : ∃ id step, records.stepId = some id ∧ ops.getStep before id = some step ∧
    (ops.getStep after step.id).map Step.status = some .succeeded
  attempt : ∃ id attempt, records.attemptId = some id ∧ ops.getAttempt before id = some attempt ∧
    (ops.getAttempt after attempt.id).map StepAttempt.status = some .succeeded
  action : ∃ id, (ops.get after .action id : Option Action).map Action.status = some "succeeded"

/-! ### One lemma for each stage -/

variable {b r}

theorem contractStage_eq_ok {request : InvocationRequest} {c : EffectAuthority.Classification}
    {descriptors : List ProviderDescriptor} (h : b.contractStage r request = .ok (c, descriptors)) :
    b.authority.classify request = some c ∧ b.hasRegistry = true ∧
      r.descriptorsFor = .ok descriptors := by
  unfold contractStage at h
  cases hclassify : b.authority.classify request with
  | none =>
    rw [hclassify] at h
    cases h
  | some classification =>
    simp only [hclassify] at h
    obtain ⟨_, hregistry, h⟩ := Stage.bind_eq_ok.mp h
    obtain ⟨found, hfound, h⟩ := Stage.bind_eq_ok.mp h
    obtain ⟨_, -, h⟩ := Stage.bind_eq_ok.mp h
    obtain ⟨rfl, rfl⟩ := Prod.mk.inj (Except.ok.inj h)
    exact ⟨rfl, Stage.require_eq_ok.mp hregistry, Stage.handled_eq_ok.mp hfound⟩

theorem qualificationStage_eq_ok {assessment : Option (Assessment ρ)}
    (h : b.qualificationStage r = .ok assessment) :
    if b.hasStore then ∃ resolved, r.assessment = .ok resolved ∧ assessment = some resolved
      else assessment = none := by
  unfold qualificationStage at h
  cases hstore : b.hasStore with
  | false =>
    rw [hstore, if_neg Bool.false_ne_true] at h
    simpa using (Except.ok.inj h).symm
  | true =>
    rw [hstore, if_pos rfl] at h
    cases hassessment : r.assessment with
    | ok resolved =>
      rw [hassessment] at h
      simpa using (Except.ok.inj h).symm
    | error e =>
      rw [hassessment] at h
      cases e <;> cases h

theorem governanceStage_eq_ok {admitted : GovernanceUseAdmissionDecision}
    (h : governanceStage r = .ok admitted) :
    r.admission = .ok admitted ∧
      (admitted.status = .allowed ∨ admitted.status = .notApplicable) := by
  unfold governanceStage at h
  obtain ⟨governance, hgovernance, h⟩ := Stage.bind_eq_ok.mp h
  cases hstatus : governance.status <;> rw [hstatus] at h <;> cases h
  · exact ⟨Stage.unhandled_eq_ok.mp hgovernance, Or.inr hstatus⟩
  · exact ⟨Stage.unhandled_eq_ok.mp hgovernance, Or.inl hstatus⟩

theorem policyStage_eq_ok {facts : PolicyFacts} (h : b.policyStage r facts = .ok ())
    (hengine : b.hasPolicyEngine = true) :
    ∃ decision, r.policyDecision facts.context = .ok (some decision) ∧
      facts.decisionGate (.ok decision) = .ok () := by
  rw [policyStage, if_pos hengine] at h
  cases hdecision : r.policyDecision facts.context with
  | error e =>
    rw [hdecision] at h
    cases h
  | ok decision =>
    cases decision with
    | none =>
      rw [hdecision] at h
      cases h
    | some decision =>
      refine ⟨decision, rfl, ?_⟩
      simp only [hdecision, Except.map, Option.getD_some] at h
      cases hgate : facts.decisionGate (.ok decision) with
      | ok _ => rfl
      | error refusal =>
        rw [hgate] at h
        cases h

theorem authorizationStage_eq_ok {request : InvocationRequest} {contract : CapabilityContract}
    {assessment : Option (Assessment ρ)}
    (h : b.authorizationStage r request contract assessment = .ok ()) :
    (b.authorization r request contract assessment).1 = true := by
  unfold authorizationStage at h
  cases hverdict : b.authorization r request contract assessment with
  | mk allowed reason =>
    cases allowed with
    | true => rfl
    | false =>
      rw [hverdict] at h
      cases h

theorem procedureStage_eq_ok {request : InvocationRequest} {c : EffectAuthority.Classification}
    {assessment : Option (Assessment ρ)} (h : b.procedureStage r request c assessment = .ok ())
    (happlies : procedureApplies request c.effective = true) :
    ∃ reason, b.procedure r request c.contract assessment = .ok (false, reason) := by
  rw [procedureStage, if_pos happlies] at h
  obtain ⟨⟨blocked, reason⟩, hverdict, h⟩ := Stage.bind_eq_ok.mp h
  have hblocked : blocked = false := by simpa using Stage.require_eq_ok.mp h
  subst hblocked
  exact ⟨reason, Stage.handled_eq_ok.mp hverdict⟩

theorem reliabilityStage_eq_ok {request : InvocationRequest} {c : EffectAuthority.Classification}
    (h : b.reliabilityStage r request c = .ok ()) :
    ∃ profile reason, r.assess (b.reliabilityInput request c profile)
      (request.metadata.get "recovery_timing") = .ok (true, reason) := by
  unfold reliabilityStage at h
  obtain ⟨profile, -, h⟩ := Stage.bind_eq_ok.mp h
  obtain ⟨_, -, h⟩ := Stage.bind_eq_ok.mp h
  obtain ⟨⟨allowed, reason⟩, hassess, h⟩ := Stage.bind_eq_ok.mp h
  have hallowed : allowed = true := Stage.require_eq_ok.mp h
  subst hallowed
  exact ⟨profile, reason, Stage.handled_eq_ok.mp hassess⟩

theorem routingStage_eq_ok {request : InvocationRequest} {descriptors : List ProviderDescriptor}
    {selected : ProviderDescriptor} (h : routingStage r request descriptors = .ok selected) :
    ∃ healthy, healthyProviders r descriptors = .ok healthy ∧
      r.select healthy = .ok (some selected) := by
  unfold routingStage at h
  obtain ⟨healthy, hhealthy, h⟩ := Stage.bind_eq_ok.mp h
  obtain ⟨found, hfound, h⟩ := Stage.bind_eq_ok.mp h
  cases found with
  | none => cases h
  | some found =>
    obtain rfl := Except.ok.inj h
    have hselect := Stage.handled_eq_ok.mp hfound
    refine ⟨healthy, Stage.handled_eq_ok.mp hhealthy, ?_⟩
    cases hempty : healthy.isEmpty with
    | true =>
      rw [hempty, if_pos rfl] at hselect
      cases hselect
    | false => simpa [hempty] using hselect

theorem refreshStage_eq_ok {assessment : Option (Assessment ρ)} {refreshed : Result Bool}
    {changed failed : String} (h : refreshStage assessment refreshed changed failed = .ok ())
    (hsome : assessment.isSome = true) : refreshed = .ok true := by
  obtain ⟨resolved, rfl⟩ := Option.isSome_iff_exists.mp hsome
  cases refreshed with
  | ok same =>
    cases same with
    | true => rfl
    | false => cases h
  | error e => cases e <;> cases h

theorem readmissionStage_eq_ok {admitted current : GovernanceUseAdmissionDecision}
    (h : readmissionStage r admitted = .ok current) :
    r.readmission = .ok current ∧ governanceRecheckFailure admitted current = none := by
  unfold readmissionStage at h
  obtain ⟨judged, hjudged, h⟩ := Stage.bind_eq_ok.mp h
  cases hfailure : governanceRecheckFailure admitted judged with
  | some failure =>
    rw [hfailure] at h
    cases h
  | none =>
    rw [hfailure] at h
    obtain rfl := Except.ok.inj h
    exact ⟨Stage.unhandled_eq_ok.mp hjudged, hfailure⟩

/-- Whatever passes the gates has passed each of them. -/
theorem gates_eq_ok {request : InvocationRequest} {a : Admitted ρ}
    (h : b.gates r request = .ok a) : b.Gated r request a := by
  unfold gates at h
  obtain ⟨⟨classification, descriptors⟩, hcontract, h⟩ := Stage.bind_eq_ok.mp h
  obtain ⟨_, hfencing, h⟩ := Stage.bind_eq_ok.mp h
  obtain ⟨assessment, hqualification, h⟩ := Stage.bind_eq_ok.mp h
  obtain ⟨admitted, hgovernance, h⟩ := Stage.bind_eq_ok.mp h
  obtain ⟨_, hpolicy, h⟩ := Stage.bind_eq_ok.mp h
  obtain ⟨_, hauthorization, h⟩ := Stage.bind_eq_ok.mp h
  obtain ⟨_, hprocedure, h⟩ := Stage.bind_eq_ok.mp h
  obtain ⟨_, hreliability, h⟩ := Stage.bind_eq_ok.mp h
  obtain ⟨selected, hrouting, h⟩ := Stage.bind_eq_ok.mp h
  obtain ⟨_, hrefresh, h⟩ := Stage.bind_eq_ok.mp h
  obtain ⟨governance, hreadmission, h⟩ := Stage.bind_eq_ok.mp h
  obtain ⟨permit, hpermit, h⟩ := Stage.bind_eq_ok.mp h
  obtain rfl := Except.ok.inj h
  obtain ⟨hclassify, hregistry, hdescriptors⟩ := contractStage_eq_ok hcontract
  obtain ⟨healthy, hhealthy, hselect⟩ := routingStage_eq_ok hrouting
  obtain ⟨hadmission, hstatus⟩ := governanceStage_eq_ok hgovernance
  obtain ⟨hjudged, hrecheck⟩ := readmissionStage_eq_ok hreadmission
  exact
    { contract := hclassify
      classified := rfl
      registry := hregistry
      fencing := mapError_eq_ok.mp hfencing
      qualification := qualificationStage_eq_ok hqualification
      governance := ⟨admitted, hadmission, hstatus, hjudged, hrecheck⟩
      policy := policyStage_eq_ok hpolicy
      authorization := authorizationStage_eq_ok hauthorization
      procedure := procedureStage_eq_ok hprocedure
      reliability := reliabilityStage_eq_ok hreliability
      routing := ⟨descriptors, healthy, hdescriptors, hhealthy, hselect⟩
      unchanged := refreshStage_eq_ok hrefresh
      permit := Stage.unhandled_eq_ok.mp hpermit }

theorem action_of_precommit {ops : ExecutionStore σ} {now : Time} {st st' : σ}
    {request : CapabilityRequest} {p : Precommit} {records : ExecutionRecordIds}
    (h : ops.precommitSideEffect now st request p = .ok (records, st')) :
    ∃ id, records.actionId = some id ∧ (ops.get st' .action id).isSome := by
  unfold precommitSideEffect at h
  split at h
  · obtain ⟨s₁, -, h⟩ := Result.bind_eq_ok.mp h
    obtain ⟨s₂, -, h⟩ := Result.bind_eq_ok.mp h
    obtain ⟨s₃, -, h⟩ := Result.bind_eq_ok.mp h
    obtain ⟨s₄, hsaved, h⟩ := Result.bind_eq_ok.mp h
    obtain ⟨rfl, rfl⟩ := Prod.mk.inj (Result.pure_eq_ok.mp h)
    exact ⟨_, rfl, by rw [get_saveAction hsaved]; rfl⟩
  · cases h

theorem precommitted_of_side {st : σ} {request : CapabilityRequest} {p : Precommit} {now : Time}
    {st₀ : σ} {records : ExecutionRecordIds} (hside : p.sideEffect = true)
    (h : b.ops.precommitExecutionRecords now st₀ request p = .ok (records, st)) :
    Precommitted b.ops st records := by
  rw [precommitExecutionRecords, if_pos hside] at h
  obtain ⟨sid, aid, action, hrunning⟩ := running_of_precommit h
  obtain ⟨step, hstep, -⟩ := hrunning.step
  obtain ⟨attempt, hattempt, -⟩ := hrunning.attempt
  refine ⟨⟨sid, ?_, by rw [hstep]; rfl⟩, ⟨aid, ?_, by rw [hattempt]; rfl⟩, action_of_precommit h⟩
  · rw [hrunning.records_eq]
  · rw [hrunning.records_eq]

theorem precommitStage_eq_ok {a : Admitted ρ} {records : ExecutionRecordIds} {st : σ}
    (h : b.precommitStage r a = .ok (records, st)) (hside : a.classification.sideEffect = true) :
    Precommitted b.ops st records := by
  rw [precommitStage, if_pos hside] at h
  have h := Stage.handled_eq_ok.mp h
  obtain ⟨_, -, h⟩ := Result.bind_eq_ok.mp h
  exact precommitted_of_side hside h

theorem lookupStage_eq_ok {a : Admitted ρ} {provider : π} :
    lookupStage r a = .ok provider ↔ r.recordAction = .ok () ∧ r.provider = .ok provider := by
  unfold lookupStage
  constructor
  · intro h
    obtain ⟨_, haccounted, h⟩ := Stage.bind_eq_ok.mp h
    refine ⟨Stage.handled_eq_ok.mp haccounted, ?_⟩
    cases hprovider : r.provider with
    | ok found =>
      rw [hprovider] at h
      exact congrArg Except.ok (Except.ok.inj h)
    | error e =>
      rw [hprovider] at h
      split at h
      · rename_i hfound
        cases hfound
      · cases h
      · cases h
  · rintro ⟨haccounted, hprovider⟩
    refine Stage.bind_eq_ok.mpr ⟨(), Stage.handled_eq_ok.mpr haccounted, ?_⟩
    rw [hprovider]
    rfl

theorem dispatchStage_eq_ok {a : Admitted ρ} {records : ExecutionRecordIds}
    {decision : DispatchCommit} :
    dispatchStage r a records = .ok decision ↔
      refreshStage a.assessment r.finallyRefreshed
          "authoritative qualification facts changed before reality exit"
          "qualification final revalidation failed" = .ok () ∧
        (∃ current, r.finalAdmission = .ok current ∧
          governancePermitFailure a.permit.toInvocationPermit current = none) ∧
        r.committer.commit a.request a.permit records.attemptId = .ok decision ∧
        dispatchFailure decision.toDispatchCommitDecision = none := by
  unfold dispatchStage
  constructor
  · intro h
    obtain ⟨_, hrefresh, h⟩ := Stage.bind_eq_ok.mp h
    obtain ⟨current, hcurrent, h⟩ := Stage.bind_eq_ok.mp h
    cases hpermit : governancePermitFailure a.permit.toInvocationPermit current with
    | some failure =>
      rw [hpermit] at h
      cases h
    | none =>
      rw [hpermit] at h
      obtain ⟨committed, hcommitted, h⟩ := Stage.bind_eq_ok.mp h
      cases hdispatch : dispatchFailure committed.toDispatchCommitDecision with
      | some failure =>
        rw [hdispatch] at h
        cases h
      | none =>
        rw [hdispatch] at h
        obtain rfl := Except.ok.inj h
        exact ⟨hrefresh, ⟨current, Stage.unhandled_eq_ok.mp hcurrent, hpermit⟩,
          Stage.unhandled_eq_ok.mp hcommitted, hdispatch⟩
  · rintro ⟨hrefresh, ⟨current, hcurrent, hpermit⟩, hcommit, hdispatch⟩
    refine Stage.bind_eq_ok.mpr ⟨(), hrefresh, ?_⟩
    refine Stage.bind_eq_ok.mpr ⟨current, Stage.unhandled_eq_ok.mpr hcurrent, ?_⟩
    rw [hpermit]
    refine Stage.bind_eq_ok.mpr ⟨decision, Stage.unhandled_eq_ok.mpr hcommit, ?_⟩
    rw [hdispatch]
    rfl

/-- A dispatch that is let through and was applicable is committed. -/
theorem committed_of_dispatchFailure {decision : DispatchCommitDecision}
    (h : dispatchFailure decision = none) (happlicable : decision.status ≠ .notApplicable) :
    decision.status = .committed := by
  unfold dispatchFailure at h
  cases hstatus : decision.status with
  | committed => rfl
  | notApplicable => exact absurd hstatus happlicable
  | _ =>
    rw [hstatus] at h
    cases h

/-! ### The whole execution -/

/-- The stages of an execution that comes to the provider call. -/
theorem execute_cases (request : InvocationRequest) :
    (∃ a records st provider decision, b.gates r request = .ok a ∧
      b.precommitStage r a = .ok (records, st) ∧ lookupStage r a = .ok provider ∧
      dispatchStage r a records = .ok decision ∧
      b.execute r request =
        { invocations := [provider], records, returned := (b.conclude r a records).1,
          store := (b.conclude r a records).2 }) ∨
    ((b.execute r request).invocations = [] ∧
      (b.execute r request).returned ≠ some .succeeded) := by
  have hstopped : ∀ stop (records : ExecutionRecordIds) (st : σ),
      (stopped (π := π) stop records st).invocations = [] ∧
        (stopped (π := π) stop records st).returned ≠ some .succeeded := by
    intro stop records st
    cases stop <;> simp [stopped]
  cases hgates : b.gates r request with
  | error stop =>
    right
    rw [execute, hgates]
    exact hstopped stop {} r.stored
  | ok a =>
    cases hprecommit : b.precommitStage r a with
    | error stop =>
      right
      simp only [execute, hgates, hprecommit]
      exact hstopped stop {} r.stored
    | ok recorded =>
      obtain ⟨records, st⟩ := recorded
      cases hlookup : lookupStage r a with
      | error stop =>
        right
        simp only [execute, hgates, hprecommit, hlookup]
        exact hstopped stop records st
      | ok provider =>
        cases hdispatch : dispatchStage r a records with
        | error stop =>
          right
          simp only [execute, hgates, hprecommit, hlookup, hdispatch]
          exact hstopped stop records (b.aborted r a records st stop)
        | ok decision =>
          left
          refine ⟨a, records, st, provider, decision, rfl, hprecommit, hlookup, hdispatch, ?_⟩
          simp only [execute, hgates, hprecommit, hlookup, hdispatch]

theorem dispatched_of_stages {a : Admitted ρ} {records : ExecutionRecordIds} {st : σ}
    {provider : π} {decision : DispatchCommit} (hprecommit : b.precommitStage r a = .ok (records, st))
    (hlookup : lookupStage r a = .ok provider)
    (hdispatch : dispatchStage r a records = .ok decision) :
    b.Dispatched r a records st provider := by
  obtain ⟨haccounted, hprovider⟩ := lookupStage_eq_ok.mp hlookup
  obtain ⟨hrefresh, hadmitted, hcommit, hfailure⟩ := dispatchStage_eq_ok.mp hdispatch
  refine ⟨precommitStage_eq_ok hprecommit, haccounted, hprovider, refreshStage_eq_ok hrefresh,
    hadmitted, ?_⟩
  intro hgoverned
  have happlicable := r.committer.governed a.request a.permit records.attemptId decision hgoverned
    hcommit
  exact ⟨decision, hcommit, committed_of_dispatchFailure hfailure happlicable⟩

theorem projected_of_commit {ops : ExecutionStore σ} {now : Time} {st st' : σ}
    {request : CapabilityRequest} {result : CapabilityResult} {providerId freshAction : String}
    {records : ExecutionRecordIds}
    (h : ops.commitExecutionProjection now st request result providerId records freshAction = .ok st')
    (hrecords : records.stepId.isSome = true) (hstatus : result.status = .succeeded) :
    Projected ops st st' records := by
  obtain ⟨stepId, hstepId⟩ := Option.isSome_iff_exists.mp hrecords
  simp only [commitExecutionProjection, hstepId] at h
  split at h
  · rename_i step attempt hstep hattempt
    obtain ⟨s₁, h₁, h⟩ := Result.bind_eq_ok.mp h
    obtain ⟨s₂, h₂, h₃⟩ := Result.bind_eq_ok.mp h
    obtain ⟨attemptId, hgiven, hattempt⟩ := Option.bind_eq_some_iff.mp hattempt
    have hsavedStep := getStep_saveStep h₁
    have hsavedAttempt := getAttempt_saveAttempt h₂
    rw [← getStep_saveAttempt h₂, ← getStep_saveAction h₃] at hsavedStep
    rw [← getAttempt_saveAction h₃] at hsavedAttempt
    refine ⟨⟨stepId, step, hstepId, hstep, ?_⟩, ⟨attemptId, attempt, given_eq_some hgiven, hattempt,
      ?_⟩, ⟨(given records.actionId).getD freshAction, ?_⟩⟩
    · rw [hsavedStep, Option.map_some, hstatus]
      rfl
    · rw [hsavedAttempt, Option.map_some, hstatus]
      rfl
    · have hsavedAction := get_saveAction h₃
      rw [hstatus] at hsavedAction
      exact congrArg (Option.map Action.status) hsavedAction
  · cases h

/-- Without a store a precommit leaves no records. -/
theorem hasStore_of_records {a : Admitted ρ} {records : ExecutionRecordIds} {st : σ}
    (h : b.precommitStage r a = .ok (records, st)) (hrecords : records.stepId.isSome = true) :
    b.hasStore = true := by
  by_contra hstore
  rw [Bool.not_eq_true] at hstore
  simp only [precommitStage, hstore, Bool.false_eq_true, if_false] at h
  split at h
  · cases h
  · obtain ⟨rfl, -⟩ := Prod.mk.inj (Except.ok.inj h)
    cases hrecords

/-- A run-bound success has passed the fencing read after the call, and its records, if
there are some, are projected. -/
theorem conclude_succeeded {a : Admitted ρ} {records : ExecutionRecordIds} {st : σ}
    (hprecommit : b.precommitStage r a = .ok (records, st))
    (h : (b.conclude r a records).1 = some .succeeded)
    (hrun : (given a.request.runId).isSome = true) :
    b.fencing r.runAfter r.answeredAt a.request.toCapabilityRequest = .ok () ∧
      (records.stepId.isSome = true →
        Projected b.ops r.storedAfter (b.conclude r a records).2 records) := by
  unfold conclude at h ⊢
  split at h
  · cases h
  · cases h
  · rename_i result _ _
    simp only [hrun, if_true] at h ⊢
    cases hfencing : b.fencing r.runAfter r.answeredAt a.request.toCapabilityRequest with
    | error refusal =>
      rw [hfencing] at h
      cases h
    | ok _ =>
      refine ⟨rfl, fun hrecords => ?_⟩
      rw [hfencing] at h
      simp only at h ⊢
      cases hprojection : b.projection r a records result with
      | error e =>
        rw [hprojection] at h
        cases h
      | ok after =>
        rw [hprojection] at h
        have hstatus : result.status = .succeeded := Option.some.inj h
        have hstore := hasStore_of_records hprecommit hrecords
        have hnone : records.stepId.isNone = false := by
          rw [Option.isNone_eq_false_iff]
          exact hrecords
        simp only [projection, hstore, hnone, Bool.not_true, Bool.or_self, Bool.false_eq_true,
          if_false] at hprojection
        obtain ⟨_, -, hcommit⟩ := Result.bind_eq_ok.mp hprojection
        exact projected_of_commit hcommit hrecords hstatus

/-- The provider is invoked at most once, and only after every gate; a run-bound success has
passed the fencing read after the call and the projection of its records, which a side effect
always has. -/
theorem execute_gated (b : RealityBoundary σ) (r : Answers σ ρ π) (request : InvocationRequest) :
    (b.execute r request).invocations.length ≤ 1 ∧
    (∀ provider ∈ (b.execute r request).invocations,
      ∃ a records st, b.Gated r request a ∧ b.Dispatched r a records st provider) ∧
    ((b.execute r request).returned = some .succeeded → (given request.runId).isSome = true →
      ∃ a, b.Gated r request a ∧
        b.fencing r.runAfter r.answeredAt a.request.toCapabilityRequest = .ok () ∧
        (a.classification.sideEffect = true →
          (b.execute r request).records.stepId.isSome = true) ∧
        ((b.execute r request).records.stepId.isSome = true →
          Projected b.ops r.storedAfter (b.execute r request).store
            (b.execute r request).records)) := by
  rcases execute_cases (b := b) (r := r) request with
    ⟨a, records, st, provider, decision, hgates, hprecommit, hlookup, hdispatch, hexecute⟩ |
      ⟨hnone, hfailed⟩
  · have hgated := gates_eq_ok hgates
    rw [hexecute]
    refine ⟨le_rfl, ?_, ?_⟩
    · intro invoked hinvoked
      obtain rfl := List.mem_singleton.mp hinvoked
      exact ⟨a, records, st, hgated, dispatched_of_stages hprecommit hlookup hdispatch⟩
    · intro hsucceeded hrun
      have hrun' : (given a.request.runId).isSome = true := by
        rw [hgated.classified]
        exact hrun
      obtain ⟨hfencing, hprojected⟩ := conclude_succeeded hprecommit hsucceeded hrun'
      refine ⟨a, hgated, hfencing, fun hside => ?_, hprojected⟩
      obtain ⟨id, hid, -⟩ := (precommitStage_eq_ok hprecommit hside).step
      exact Option.isSome_iff_exists.mpr ⟨id, hid⟩
  · rw [hnone]
    refine ⟨Nat.zero_le 1, fun _ h => absurd h List.not_mem_nil, fun h _ => absurd h hfailed⟩

/-! ### The part after the precommit -/

/-- The same collaborators as the precommitted execution sees them. -/
def collaborators (r : Answers σ ρ π) (a : Admitted ρ) (decision : DispatchCommit) :
    Collaborators where
  recordAction := r.recordAction
  registryGet := r.provider.map (fun _ => ())
  refreshMatches := a.assessment.map (fun _ => r.finallyRefreshed)
  evaluateGovernance := r.finalAdmission
  commitDispatch := decision.toDispatchCommitDecision
  invoke := match r.answer with
    | .answered _ => .answered
    | .raised _ => .failed
    | .escaped => .cancelled
  completeAction := r.completeAction

theorem executePrecommitted_invoked {ops : ExecutionStore σ} {now : Time} {st : σ}
    {request : CapabilityRequest} {providerId : String} {records : ExecutionRecordIds}
    {sideEffect : Bool} {permit : InvocationPermit} {c : Collaborators} :
    (ops.executePrecommitted now st request providerId records sideEffect permit c).invoked = true ↔
      c.recordAction = .ok () ∧ c.registryGet = .ok () ∧ c.refusal permit = .ok none := by
  unfold executePrecommitted
  cases hrecord : c.recordAction with
  | error e => simp
  | ok _ =>
    cases hget : c.registryGet with
    | error e => cases c.releaseSlot sideEffect <;> simp
    | ok _ =>
      cases hrefusal : c.refusal permit with
      | error e => simp
      | ok failure =>
        cases failure with
        | none => cases c.releaseSlot sideEffect <;> simp
        | some failure =>
          simp only
          cases ops.abortPreinvocationRecords now st request providerId records failure.1
            failure.2 <;> simp

theorem refusal_eq_none {permit : InvocationPermit} {c : Collaborators} :
    c.refusal permit = .ok none ↔ c.qualificationFailure = none ∧
      ∃ current, c.evaluateGovernance = .ok current ∧
        governancePermitFailure permit current = none ∧ dispatchFailure c.commitDispatch = none := by
  unfold Collaborators.refusal
  cases hqualification : c.qualificationFailure with
  | some failure => simp
  | none =>
    simp only [Result.bind_eq_ok, Result.pure_eq_ok, Option.or_eq_none_iff, true_and]

theorem refreshStage_iff {a : Admitted ρ} {decision : DispatchCommit} {changed failed : String} :
    refreshStage a.assessment r.finallyRefreshed changed failed = .ok () ↔
      (collaborators r a decision).qualificationFailure = none := by
  unfold refreshStage Collaborators.qualificationFailure
  cases hassessment : a.assessment with
  | none => simp [collaborators, hassessment]
  | some assessment =>
    simp only [collaborators, hassessment, Option.map_some]
    cases r.finallyRefreshed with
    | ok same => cases same <;> simp [Stage.stop]
    | error e => cases e <;> simp [Stage.stop]

/-- An execution that has precommitted its records comes to the provider call just where the
precommitted execution of the same collaborators does. -/
theorem executePrecommitted_iff {a : Admitted ρ} {records : ExecutionRecordIds} {st : σ} {now : Time}
    {decision : DispatchCommit}
    (hcommit : r.committer.commit a.request a.permit records.attemptId = .ok decision) :
    (b.ops.executePrecommitted now st a.request.toCapabilityRequest a.selected.id records
        a.classification.sideEffect a.permit.toInvocationPermit
        (collaborators r a decision)).invoked = true ↔
      (∃ provider, lookupStage r a = .ok provider) ∧ dispatchStage r a records = .ok decision := by
  have hprovider : (collaborators r a decision).registryGet = .ok () ↔
      ∃ provider, r.provider = .ok provider := by
    cases hfound : r.provider <;> simp [collaborators, hfound, Except.map]
  rw [executePrecommitted_invoked, refusal_eq_none, hprovider, dispatchStage_eq_ok,
    ← refreshStage_iff]
  constructor
  · rintro ⟨haccounted, ⟨provider, hfound⟩, hrefresh, current, hcurrent, hpermit, hdispatch⟩
    exact ⟨⟨provider, lookupStage_eq_ok.mpr ⟨haccounted, hfound⟩⟩, hrefresh,
      ⟨current, hcurrent, hpermit⟩, hcommit, hdispatch⟩
  · rintro ⟨⟨provider, hlookup⟩, hrefresh, ⟨current, hcurrent, hpermit⟩, -, hdispatch⟩
    obtain ⟨haccounted, hfound⟩ := lookupStage_eq_ok.mp hlookup
    exact ⟨haccounted, ⟨provider, hfound⟩, hrefresh, current, hcurrent, hpermit, hdispatch⟩

/-! ### A success without a projection -/

def observing : RealityBoundary MemoryStore where
  authority := .create none none
  ops := ExecutionStore.memory
  hasPolicyEngine := false
  notApplicableDigest := "not-applicable"

def unleasedRun : Run := { id := "run_1", createdAt := 0, workId := "work_1" }

def notGoverned : GovernanceUseAdmissionDecision :=
  { status := .notApplicable, requirementDigest := "not-applicable",
    snapshotDigest := "not-applicable" }

/-- Every collaborator agrees to an observation. -/
def agreeing : Answers MemoryStore Unit Unit where
  descriptorsFor := .ok [{ id := "provider_1" }]
  getRun := .ok (some unleasedRun)
  assessment := .ok { otherProofs := (), digest := "facts" }
  admission := .ok notGoverned
  select := fun healthy => .ok healthy.head?
  readmission := .ok notGoverned
  stored := .empty
  provider := .ok ()
  finalAdmission := .ok notGoverned
  committer := .dispatching DispatchStore.memory (fun _ => "digest") DispatchStore.admitted .empty
    { DispatchStore.governedWrite with lookup := none }
  runAfter := .ok (some unleasedRun)
  storedAfter := .empty

/-- An observation that names a run and no work. -/
def observation : InvocationRequest :=
  { id := "q1", capability := "observe.logs", runId := some "run_1" }

/-- The best-effort precommit leaves no records, and the success is returned all the same. -/
theorem observation_not_projected :
    (observing.execute agreeing observation).invocations = [()] ∧
      (observing.execute agreeing observation).returned = some .succeeded ∧
      ¬ Projected observing.ops agreeing.storedAfter (observing.execute agreeing observation).store
        (observing.execute agreeing observation).records := by
  refine ⟨by decide, by decide, fun h => ?_⟩
  obtain ⟨id, -, hid, -⟩ := h.step
  have hnone : (observing.execute agreeing observation).records = {} := by decide
  rw [hnone] at hid
  cases hid

end RealityBoundary
end PortableRuntime
