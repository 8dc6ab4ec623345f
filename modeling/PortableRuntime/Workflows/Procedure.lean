import PortableRuntime.Core.EffectRules
import PortableRuntime.Core.Models
import PortableRuntime.Library.Dict
import PortableRuntime.Records.Authorization

/-!
# Procedure gates

A profile asks for gates.  What the metadata of Work and Run say of a gate comes first, then
waivers and hand-offs, and then the gate itself, which reads the proofs of a call.  The proofs of
a gate stand under one of several names, as dictionaries or as objects with attributes.
-/

namespace PortableRuntime
namespace Procedure

/-! ## Gates and statuses -/

inductive Gate where
  | purposeIdentified | executionBoundary | resultConfirmation | failureStop
  | candidateConsidered | evidence | authorization | verification | rollback | review
  | independentVerification | roleSeparation | challengePath | exposureLimit | takeover
  | recovery | exit | reauthorization
deriving Repr, DecidableEq

def Gate.text : Gate → String
  | purposeIdentified => "purpose-identified"
  | executionBoundary => "execution-boundary"
  | resultConfirmation => "result-confirmation"
  | failureStop => "failure-stop"
  | candidateConsidered => "candidate-considered"
  | evidence => "evidence"
  | authorization => "authorization"
  | verification => "verification"
  | rollback => "rollback"
  | review => "review"
  | independentVerification => "independent-verification"
  | roleSeparation => "role-separation"
  | challengePath => "challenge-path"
  | exposureLimit => "exposure-limit"
  | takeover => "takeover"
  | recovery => "recovery"
  | exit => "exit"
  | reauthorization => "reauthorization"

def minimalGates : List Gate :=
  [.purposeIdentified, .executionBoundary, .resultConfirmation, .failureStop]

def standardExtra : List Gate :=
  [.candidateConsidered, .evidence, .authorization, .verification, .rollback, .review]

def enhancedExtra : List Gate :=
  [.independentVerification, .roleSeparation, .challengePath, .exposureLimit, .takeover,
   .recovery, .exit, .reauthorization]

/-- `gates_for_profile`, of the text of a profile. -/
def gatesForProfile (profile : String) : Result (List Gate) :=
  if profile = "minimal" then .ok minimalGates
  else if profile = "standard" then .ok (minimalGates ++ standardExtra)
  else if profile = "enhanced" then .ok (minimalGates ++ standardExtra ++ enhancedExtra)
  else raiseValue (s!"unknown ProcedureProfile {Text.pyRepr profile} " ++
    "-> configuration error / blocked (fail-closed)")

inductive GateStatus where
  | required | satisfied | notApplicable | handedOff | waived | blocked | open | expired
  | invalidated
deriving Repr, DecidableEq

structure ObligationStatus where
  obligation : Gate
  status : GateStatus
  waiverAuthorityRef : Option String := none
  reason : String
  checkedAt : Time
  waiver_authorized : (status != .waived || waiverAuthorityRef.any (· ≠ "")) = true := by decide
deriving Repr, DecidableEq

/-! ## Proofs -/

inductive ProcedureItem where
  | mapping (fields : Fields)
  | grant (g : AuthorizationGrant)
  /-- Any other object, by its attributes; it lacks one of a grant's. -/
  | object (attributes : Fields)
  | value (j : Json)

namespace ProcedureItem

def attributes : ProcedureItem → Fields
  | grant g => g.dump
  | object attributes => attributes
  | _ => []

/-- `getattr(item, name, None)`. -/
def getattr (item : ProcedureItem) (name : String) : Json := item.attributes.get name

def hasattr (item : ProcedureItem) (name : String) : Bool := item.attributes.has name

/-- `item.get(name)` of a dictionary. -/
def key (item : ProcedureItem) (name : String) : Json :=
  match item with
  | mapping fields => fields.get name
  | _ => .null

def isMapping : ProcedureItem → Bool
  | mapping _ => true
  | _ => false

/-- `getattr(item, name, None) or item.get(name)`. -/
def attrOrKey (item : ProcedureItem) (name : String) : Json :=
  (item.getattr name).pyOr (item.key name)

end ProcedureItem

/-- A list of proofs, or any value that is no list. -/
inductive ProofValue where
  | items (l : List ProcedureItem)
  | value (j : Json)

def ProofValue.truthy : ProofValue → Bool
  | items l => !l.isEmpty
  | value j => j.truthy

abbrev Proofs := Dict String ProofValue

/-- `value is None`. -/
def isNone : Option ProofValue → Bool
  | none => true
  | some (.value .null) => true
  | _ => false

/-- `proofs.get(a) or proofs.get(b) or …`. -/
def firstOf (proofs : Proofs) : List String → Option ProofValue
  | [] => none
  | [name] => proofs.get? name
  | name :: rest =>
    match proofs.get? name with
    | some v => if v.truthy then some v else firstOf proofs rest
    | none => firstOf proofs rest

/-- The items of a list that is not empty. -/
def pool : Option ProofValue → List ProcedureItem
  | some (.items l) => l
  | _ => []

def anyPool (proofs : Proofs) (names : List String) : Bool :=
  names.any (fun name => !(pool (proofs.get? name)).isEmpty)

def hashable : Json → Bool
  | .arr _ => false
  | .obj _ => false
  | _ => true

/-- `len({…})`. -/
def distinctCount (values : List Json) : Result Nat :=
  if values.all hashable then
    .ok (values.foldl (fun (kept : List Json) j =>
      if kept.any j.pyEq then kept else kept ++ [j]) []).length
  else .error (.typeError "unhashable type")

/-! ## What a gate needs -/

/-- The grant id that the metadata hints at.  It is read only where `authorization_refs` is a
list. -/
def hintId (combined : Fields) : Json :=
  match combined.get "authorization_refs" with
  | .arr refs => (combined.get "authorization_grant_id").pyOr (refs.head?.getD .null)
  | _ => .null

/-- The item as a grant that `is_grant_valid` accepts; where an attribute of a grant is missing, it
raises. -/
def validGrant? (clock : Time) : ProcedureItem → Option AuthorizationGrant
  | .grant g => if (validateGrant g clock).isEmpty then some g else none
  | _ => none

def grantNames : List String := ["grants", "authorization_grants", "authorizations"]

def validGrants (proofs : Proofs) (clock : Time) : List AuthorizationGrant :=
  (pool (firstOf proofs grantNames)).filterMap (validGrant? clock)

/-- A hinted grant counts only once it is found valid, so the answer `hinted grant not valid` is
never reached. -/
def hasAuthorizationTyped (combined : Fields) (proofs : Proofs) (clock : Time) : Bool × String :=
  let grants := firstOf proofs grantNames
  let hint := hintId combined
  if isNone grants then
    (false, "authorization requires valid AuthorizationGrant typed record (hint alone " ++
      "insufficient)")
  else if (pool grants).isEmpty then
    (false, "authorization requires AuthorizationGrant list non-empty")
  else if hint.truthy then
    if (validGrants proofs clock).any (fun g => hint.eqStr g.id) then
      (true, "valid AuthorizationGrant matching hint")
    else
      (false, "authorization hint present but no matching valid grant in proofs (hint cannot " ++
        "satisfy alone)")
  else if (validGrants proofs clock).isEmpty then (false, "no valid AuthorizationGrant")
  else (true, "valid AuthorizationGrant present")

def evidenceTypes : List String := ["EvidenceArtifact", "Observation"]

def evidenceRelations : List String :=
  ["supports", "derived-from", "records", "measured-by", "validated-under", "depends-on"]

def evidenceKinds : List String :=
  ["container-observation", "promql-observation", "evidence", "observation"]

/-- An artifact by its record type, else by its kind, else by the record type of a dictionary. -/
def hasArtifact (items : List ProcedureItem) : Result Bool := do
  if ← items.anyM (fun a =>
      if a.hasattr "record_type" then (a.getattr "record_type").inSet evidenceTypes
      else .ok false) then
    return true
  if items.any (fun a => evidenceKinds.any (a.getattr "kind").eqStr) then return true
  items.anyM (fun a =>
    if a.isMapping then (a.key "record_type").inSet evidenceTypes else .ok false)

def hasEvidenceTyped (proofs : Proofs) : Result (Bool × String) := do
  let arts := firstOf proofs ["evidence_artifacts", "evidences", "records"]
  let rels := firstOf proofs ["relations", "record_relations"]
  if isNone arts || isNone rels then
    return (false, "evidence requires EvidenceArtifact/Observation + typed relation " ++
      "(metadata artifact_refs hint insufficient)")
  if (pool arts).isEmpty then return (false, "evidence requires EvidenceArtifact list")
  if (pool rels).isEmpty then return (false, "evidence requires typed relations")
  let artifact ← hasArtifact (pool arts)
  let relation ← (pool rels).anyM (fun r => (r.getattr "relation_type").inSet evidenceRelations)
  if artifact && relation then
    return (true, "EvidenceArtifact/Observation + typed relation present")
  if !artifact then return (false, "missing EvidenceArtifact/Observation typed record")
  return (false, "missing typed evidence relation")

def hasVerificationTyped (proofs : Proofs) : Bool × String :=
  let vers := firstOf proofs ["verification_results", "verifications", "closed_verifications"]
  if !isNone vers then
    if (pool vers).isEmpty then
      (false, "verification requires VerificationResult typed record (metadata verified hint " ++
        "insufficient)")
    else if (pool vers).any (fun v => (v.attrOrKey "result").eqStr "pass") then
      (true, "VerificationResult pass present")
    else (false, "verification requires at least one passing VerificationResult")
  else if (pool (proofs.get? "relations")).any (fun r =>
      ["validated-under", "tests", "evaluated-by"].any (r.attrOrKey "relation_type").eqStr) then
    (true, "verification typed relation present")
  else
    (false, "verification requires VerificationResult or typed relation (metadata hint " ++
      "insufficient)")

/-- The answer of one proof of independence. -/
def independenceProof : ProcedureItem → Option String
  | .mapping p =>
    if ["proof", "independent", "failure_domain_ok"].any (fun name => (p.get name).truthy) then
      some "failure-domain independence proven"
    else if p.has "verifier_domain" && p.has "executor_domain" &&
        !(p.get "verifier_domain").pyEq (p.get "executor_domain") then
      some "verifier/executor failure domains distinct"
    else none
  | item =>
    if ((item.getattr "independent").pyOr (item.getattr "proof")).truthy then
      some "failure-domain proof present"
    else none

def hasIndependentVerificationTyped (proofs : Proofs) : Bool × String :=
  let indie := firstOf proofs
    ["independence_proofs", "independent_verification_proofs", "failure_domain_proofs"]
  if isNone indie then
    (false, "independent-verification requires failure-domain proof (metadata " ++
      "independent_verification hint insufficient)")
  else if (pool indie).isEmpty then
    (false, "independent-verification requires failure-domain proof list")
  else match (pool indie).findSome? independenceProof with
    | some message => (true, message)
    | none => (false, "no valid failure-domain independence proof")

def hasRollbackTyped (proofs : Proofs) : Bool × String :=
  if [firstOf proofs ["checkpoints", "rollback_proofs"],
      firstOf proofs ["compensations", "compensation_plans"],
      proofs.get? "recovery_procedures"].any (fun v => !(pool v).isEmpty) then
    (true, "Checkpoint/CompensationPlan/RecoveryProcedure present")
  else
    (false, "rollback requires Checkpoint/CompensationPlan/RecoveryProcedure typed record " ++
      "(metadata rollback hint insufficient)")

/-- The items of a pool are looked at, but any of them is accepted. -/
def hasFailureStopTyped (proofs : Proofs) : Bool × String :=
  if anyPool proofs ["failure_stop_proofs", "stop_conditions", "failure_policies",
      "circuit_breaker_policies", "human_stop_authorities", "recovery_abort_paths",
      "stop_authorities"] then (true, "failure-stop typed proof present")
  else
    (false, "failure-stop requires typed " ++
      "StopCondition/FailurePolicy/CircuitBreaker/HumanStopAuthority/RecoveryAbortPath " ++
      "(metadata boolean insufficient)")

/-- Three actors that are there and differ. -/
def distinctActors (actors : List Json) : Result Bool :=
  if actors.all Json.truthy then (distinctCount actors).map (· == 3) else .ok false

/-- The answer of one proof of role separation. -/
def roleProof : ProcedureItem → Result (Option String)
  | .mapping entry => do
    if ← distinctActors [(entry.get "decision_actor").pyOr (entry.get "decision"),
        (entry.get "execution_actor").pyOr (entry.get "execution"),
        (entry.get "verification_actor").pyOr (entry.get "verification")] then
      let dim := (entry.get "dimension").pyOr (entry.get "separation_dimension")
      return some (if dim.truthy then s!"role-separation proven in dimension {dim.pyStr}"
        else "role-separation three actors distinct")
    match entry.get "actors" with
    | .arr actors =>
      if 3 ≤ actors.length then
        if 3 ≤ (← distinctCount actors) then return some "role-separation actors distinct"
      return none
    | _ => return none
  | item => do
    if ← distinctActors [item.getattr "decision_actor", item.getattr "execution_actor",
        item.getattr "verification_actor"] then
      return some "role-separation three actors distinct"
    return none

def firstRoleProof : List ProcedureItem → Result (Option String)
  | [] => .ok none
  | item :: rest => do
    if let some message ← roleProof item then return some message
    firstRoleProof rest

def hasRoleSeparationTyped (proofs : Proofs) : Result (Bool × String) := do
  let pools := pool (firstOf proofs ["role_proofs", "role_separation_proofs", "separation_proofs"])
  if pools.isEmpty then
    return (false, "role-separation requires typed proof with three distinct actors " ++
      "(decision/execution/verification) in separate dimensions")
  match ← firstRoleProof pools with
  | some message => return (true, message)
  | none =>
    return (false, "role-separation requires three distinct actors " ++
      "(decision/execution/verification) proof")

def hasChallengePathTyped (proofs : Proofs) : Bool × String :=
  if anyPool proofs ["challenge_proofs", "challenge_capabilities", "escalation_routes",
      "dissent_channels", "challenge_paths"] then (true, "challenge-path typed proof present")
  else
    (false, "challenge-path requires ChallengeCapability/EscalationRoute/DissentChannel " ++
      "typed proof (metadata boolean insufficient)")

def hasExposureLimitTyped (proofs : Proofs) : Bool × String :=
  let limit := match firstOf proofs ["exposure_limit", "blast_radius"] with
    | some (.value (.obj fields)) => !fields.isEmpty
    | _ => false
  if !(pool (firstOf proofs ["exposure_proofs", "blast_radius_proofs",
      "exposure_limits"])).isEmpty || limit then (true, "exposure-limit typed proof present")
  else
    (false, "exposure-limit requires typed BlastRadius/ExposureLimit proof (metadata boolean " ++
      "insufficient)")

def hasTakeoverTyped (proofs : Proofs) : Bool × String :=
  if anyPool proofs ["takeover_proofs", "takeover_procedures", "recovery_authorities",
      "alternative_operators", "takeover_ready_proofs"] then
    (true, "takeover typed proof present")
  else
    (false, "takeover requires TakeoverProcedure/RecoveryAuthority/AlternativeOperator typed " ++
      "proof (metadata boolean insufficient)")

def hasExitTyped (proofs : Proofs) : Bool × String :=
  if anyPool proofs ["exit_proofs", "stop_procedures", "migration_paths",
      "shutdown_capabilities", "orderly_exit_proofs"] then (true, "exit typed proof present")
  else
    (false, "exit requires StopProcedure/MigrationPath/ShutdownCapability typed proof " ++
      "(metadata boolean insufficient)")

def hasReauthorizationTyped (proofs : Proofs) : Bool × String :=
  if !(pool (firstOf proofs ["reauthorization_proofs", "reauthorization_grants",
      "reapproved_grants"])).isEmpty then (true, "reauthorization typed proof present")
  else (false, "reauthorization requires typed Reauthorization proof (metadata boolean " ++
    "insufficient)")

/-! ## Work and Run -/

/-- A Work or a Run as the caller has it. -/
inductive Subject where
  | mapping (fields : Fields)
  | work (w : Work)
  | run (r : Run)
  | absent

/-- `_extract_work_fields` and `_extract_run_fields`. -/
def Subject.fields : Subject → Fields
  | mapping fields => fields
  | work w => w.dump
  | run r => r.dump
  | absent => []

def Subject.metadata (s : Subject) : Fields := (s.fields.get "metadata").asFields?.getD []

/-- `{**work_meta, **run_meta}`, read by name: an entry of the Run hides one of the Work. -/
def combinedMeta (work run : Subject) : Fields := run.metadata ++ work.metadata

def hasPurposeTyped (work : Subject) (combined : Fields) : Bool :=
  (combined.get "purpose_ref").truthy || (combined.get "goal_ref").truthy ||
    ["purpose", "goal", "canonical_purpose"].any (fun name => (combined.get name).isNonBlankStr) ||
    ["goal", "purpose"].any (work.fields.get "kind").eqStr

def anyTruthy (fields : Fields) (names : List String) : Bool :=
  names.any (fun name => (fields.get name).truthy)

/-- The purpose, boundary, result and candidates of a task, by its metadata. -/
def hasBoundary (work : Subject) (combined : Fields) : Bool :=
  anyTruthy combined ["execution_boundary", "resource_scope"] ||
    anyTruthy work.fields ["inputs", "artifact_refs"]

def hasResult (run : Subject) (combined : Fields) : Bool :=
  ["succeeded", "failed", "blocked", "waiting"].any (run.fields.get "status").eqStr ||
    anyTruthy combined ["result_confirmed", "outcome_refs"]

/-- `_check_gate`: whether the gate is satisfied or else open, and why. -/
def checkGate (gate : Gate) (work run : Subject) (proofs : Proofs) (clock : Time) :
    Result (Bool × String) :=
  let combined := combinedMeta work run
  let either (found : Bool) (yes no : String) : Result (Bool × String) :=
    .ok (found, if found then yes else no)
  match gate with
  | .purposeIdentified => either (hasPurposeTyped work combined)
      "typed purpose/goal record present"
      "missing typed Goal/purpose record (title alone insufficient)"
  | .executionBoundary => either (hasBoundary work combined)
      "boundary present" "missing execution_boundary/resource_scope/inputs"
  | .resultConfirmation => either (hasResult run combined)
      "result present" "missing result confirmation"
  | .failureStop => .ok (hasFailureStopTyped proofs)
  | .candidateConsidered => either (anyTruthy combined ["candidate", "candidates", "options"])
      "candidates present" "missing candidates/options"
  | .evidence => hasEvidenceTyped proofs
  | .authorization => .ok (hasAuthorizationTyped combined proofs clock)
  | .verification => .ok (hasVerificationTyped proofs)
  | .rollback => .ok (hasRollbackTyped proofs)
  | .review => either (!(pool (firstOf proofs ["decisions", "decision_records"])).isEmpty)
      "decision record present"
      (if anyTruthy combined ["reviewed", "human_review", "decision_refs"] then
        "review hint present but no Decision typed record"
      else "review requires Decision typed record (metadata reviewed hint insufficient)")
  | .independentVerification => .ok (hasIndependentVerificationTyped proofs)
  | .roleSeparation => hasRoleSeparationTyped proofs
  | .challengePath => .ok (hasChallengePathTyped proofs)
  | .exposureLimit => .ok (hasExposureLimitTyped proofs)
  | .takeover => .ok (hasTakeoverTyped proofs)
  | .recovery => .ok (hasRollbackTyped proofs)
  | .exit => .ok (hasExitTyped proofs)
  | .reauthorization => .ok (hasReauthorizationTyped proofs)

/-! ## The procedure -/

/-- The arguments of `check_procedure`. -/
structure ProcedureCall where
  work : Subject
  run : Subject
  profile : String
  waivers : Dict String String := .empty
  handedOff : List String := []
  proofs : Proofs := .empty
  /-- The proofs that are given by name. -/
  namedProofs : Proofs := .empty
  now : Time
  /-- What the clock says when grants are validated. -/
  clock : Time
  /-- The text of the error that the library raises for the message of a validator. -/
  validationText : String → String := id

namespace ProcedureCall

def combined (call : ProcedureCall) : Fields := combinedMeta call.work call.run

def mergedProofs (call : ProcedureCall) : Proofs := call.proofs.update call.namedProofs

end ProcedureCall

/-- `set(combined["invalidated_gates"])` of a list. -/
def invalidatedGates (combined : Fields) : Result (List Json) :=
  match combined.get "invalidated_gates" with
  | .arr items => if items.all hashable then .ok items else .error (.typeError "unhashable type")
  | _ => .ok []

def expired (combined : Fields) : Bool := (combined.get "authorization_expired").truthy

def blocked (combined : Fields) (gate : Gate) : Bool :=
  (combined.get s!"{gate.text}_blocked").truthy

/-- One turn of the loop. -/
def gateStatus (call : ProcedureCall) (invalidated : List Json) (gate : Gate) :
    Result ObligationStatus :=
  if invalidated.any (fun j => j.eqStr gate.text) then
    .ok { obligation := gate, status := .invalidated,
          reason := "gate invalidated by revalidation", checkedAt := call.now }
  else if gate = .authorization && expired call.combined then
    .ok { obligation := gate, status := .expired, reason := "authorization expired",
          checkedAt := call.now }
  else match call.waivers.get? gate.text with
    | some authority =>
      -- a waiver needs an authority
      if hauthority : authority ≠ "" then
        .ok { obligation := gate, status := .waived, waiverAuthorityRef := some authority,
              reason := "waived per authority", checkedAt := call.now,
              waiver_authorized := by simp [hauthority] }
      else
        .ok { obligation := gate, status := .blocked,
              reason := call.validationText "waived status must carry waiver_authority_ref",
              checkedAt := call.now }
    | none =>
      if call.handedOff.contains gate.text then
        .ok { obligation := gate, status := .handedOff, reason := "responsibility delegated",
              checkedAt := call.now }
      else if blocked call.combined gate then
        .ok { obligation := gate, status := .blocked,
              reason := s!"{gate.text} blocked by policy", checkedAt := call.now }
      else do
        let (found, reason) ← checkGate gate call.work call.run call.mergedProofs call.clock
        return { obligation := gate, status := if found then .satisfied else .open,
                 reason := reason, checkedAt := call.now,
                 waiver_authorized := by cases found <;> rfl }

/-- `check_procedure`. -/
def checkProcedure (call : ProcedureCall) : Result (List ObligationStatus) := do
  let gates ← gatesForProfile call.profile
  let invalidated ← invalidatedGates call.combined
  gates.mapM (gateStatus call invalidated)

end Procedure
end PortableRuntime
