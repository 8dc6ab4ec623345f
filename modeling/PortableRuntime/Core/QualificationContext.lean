import PortableRuntime.Core.Boundary
import PortableRuntime.Core.EffectRules
import PortableRuntime.Library.Pooling
import PortableRuntime.Protocol.State
import PortableRuntime.Python.JsonText

/-!
# The qualification context of a request

Work, Run and request name qualification references in their metadata.  Each is looked up in the
store and checked against the request, and what it proves goes under a bucket.  The buckets are
visited in the order of a Python set, which a process is free to choose; here it is an argument.
-/

namespace PortableRuntime

/-! ## References -/

inductive RefVersion where
  | number (n : Int)
  | text (s : String)
deriving Repr, DecidableEq

def RefVersion.pyStr : RefVersion → String
  | number n => toString n
  | text s => s

def RefVersion.json : RefVersion → Json
  | number n => .int n
  | text s => .str s

structure QualificationRef where
  refId : String
  kind : Option String := none
  version : Option RefVersion := none
  id_nonBlank : Text.nonBlank refId = true
  kind_nonBlank : kind.all Text.nonBlank = true
deriving Repr, DecidableEq

namespace QualificationRef

/-- `QualificationRef(id=…, kind=…, version=…)`. -/
def create (refId : String) (kind : Option String) (version : Option RefVersion) :
    Result QualificationRef :=
  if hid : Text.nonBlank refId = true then
    if hkind : kind.all Text.nonBlank = true then
      .ok { refId, kind, version, id_nonBlank := hid, kind_nonBlank := hkind }
    else raiseValue "qualification reference kind must be non-empty"
  else raiseValue "qualification reference id must be non-empty"

/-- The value moves to the key `id`, unless it is taken. -/
def renameToId (raw : Fields) (name : String) : Fields :=
  if raw.has name && !raw.has "id" then (raw.pop name).put "id" (raw.get name) else raw

def modelValidate (raw : Fields) : Result QualificationRef := do
  guardValue (raw.names.all (["id", "kind", "version"].contains ·))
    "Extra inputs are not permitted"
  let refId ← orRaise (raw.get "id").asStr? "Input should be a valid string"
  let kind ← match raw.get "kind" with
    | .null => .ok none
    | .str s => .ok (some s)
    | _ => raiseValue "Input should be a valid string"
  let version ← match raw.get "version" with
    | .null => .ok none
    | .int n => .ok (some (RefVersion.number n))
    | .bool b => .ok (some (RefVersion.number (if b then 1 else 0)))
    | .str s => .ok (some (RefVersion.text s))
    | _ => raiseValue "Input should be a valid integer or string"
  create refId kind version

def parse : Json → Result QualificationRef
  | .str s => create s none none
  | .obj raw => (modelValidate (["ref_id", "ref", "record_id"].foldl renameToId raw)).mapError
      (fun e => .qualificationResolutionError s!"invalid qualification reference: {e.message}")
  | _ => .error (.qualificationResolutionError
      "qualification metadata must contain string refs or \x7bid, kind?, version?\x7d descriptors")

def dump (ref : QualificationRef) : Json :=
  .obj [("id", .str ref.refId), ("kind", .ofOption ref.kind),
    ("version", ref.version.elim .null RefVersion.json)]

/-- `dedupe_key`. -/
def dedupeKey (ref : QualificationRef) : String × Option String × Option String :=
  (ref.refId, ref.kind, ref.version.map RefVersion.pyStr)

end QualificationRef

/-! ## Buckets -/

inductive ProofBucket where
  | grants | evidenceArtifacts | verificationResults | relations | checkpoints | decisions
  | obligationProofs | procedureProofs | failureStopProofs | recoveryProcedures
  | independenceProofs | roleSeparationProofs | challengePaths | exposureProofs | takeoverProofs
  | exitProofs | reauthorizationProofs
deriving Repr, DecidableEq

namespace ProofBucket

def text : ProofBucket → String
  | grants => "grants"
  | evidenceArtifacts => "evidence_artifacts"
  | verificationResults => "verification_results"
  | relations => "relations"
  | checkpoints => "checkpoints"
  | decisions => "decisions"
  | obligationProofs => "obligation_proofs"
  | procedureProofs => "procedure_proofs"
  | failureStopProofs => "failure_stop_proofs"
  | recoveryProcedures => "recovery_procedures"
  | independenceProofs => "independence_proofs"
  | roleSeparationProofs => "role_separation_proofs"
  | challengePaths => "challenge_paths"
  | exposureProofs => "exposure_proofs"
  | takeoverProofs => "takeover_proofs"
  | exitProofs => "exit_proofs"
  | reauthorizationProofs => "reauthorization_proofs"

def all : List ProofBucket :=
  [grants, evidenceArtifacts, verificationResults, relations, checkpoints, decisions,
   obligationProofs, procedureProofs, failureStopProofs, recoveryProcedures, independenceProofs,
   roleSeparationProofs, challengePaths, exposureProofs, takeoverProofs, exitProofs,
   reauthorizationProofs]

end ProofBucket

open ProofBucket

/-- `_REF_KEYS`. -/
def refKeys : List (String × ProofBucket) :=
  [("authorization_refs", grants), ("authorization_grant_refs", grants),
   ("evidence_refs", evidenceArtifacts), ("evidence_artifact_refs", evidenceArtifacts),
   ("verification_refs", verificationResults), ("verification_result_refs", verificationResults),
   ("relation_refs", relations), ("record_relation_refs", relations),
   ("checkpoint_refs", checkpoints), ("decision_refs", decisions),
   ("obligation_refs", .obligationProofs), ("policy_obligation_refs", .obligationProofs),
   ("procedure_proof_refs", procedureProofs), ("qualification_refs", procedureProofs)]

/-- `set(_REF_KEYS.values())`, in one of its orders. -/
def refBuckets : List ProofBucket := (refKeys.map Prod.snd).dedup

/-- `_KIND_TO_PROOF`. -/
def kindToProof : List (String × ProofBucket) :=
  [("authorization", grants), ("authorizationgrant", grants), ("grant", grants),
   ("evidence", evidenceArtifacts), ("evidenceartifact", evidenceArtifacts),
   ("observation", evidenceArtifacts), ("verification", verificationResults),
   ("verificationresult", verificationResults), ("closedverification", verificationResults),
   ("relation", relations), ("recordrelation", relations), ("checkpoint", checkpoints),
   ("decision", decisions), ("decisionrecord", decisions), ("obligation", .obligationProofs),
   ("policyobligation", .obligationProofs), ("failurestop", failureStopProofs),
   ("stopcondition", failureStopProofs), ("failurepolicy", failureStopProofs),
   ("circuitbreaker", failureStopProofs), ("humanstopauthority", failureStopProofs),
   ("recoveryabortpath", failureStopProofs), ("rollback", checkpoints),
   ("recovery", recoveryProcedures), ("independence", independenceProofs),
   ("independentverification", independenceProofs), ("failuredomain", independenceProofs),
   ("roleseparation", roleSeparationProofs), ("role", roleSeparationProofs),
   ("challenge", challengePaths), ("challengepath", challengePaths), ("exposure", exposureProofs),
   ("exposurelimit", exposureProofs), ("takeover", takeoverProofs), ("exit", exitProofs),
   ("reauthorization", reauthorizationProofs)]

/-- `kind.replace("_", "").replace("-", "").lower()`. -/
def normalKind (kind : String) : String :=
  Text.lower (String.ofList (kind.toList.filter (fun c => c ≠ '_' && c ≠ '-')))

def proofOfKind (kind : String) : Option ProofBucket :=
  (kindToProof.find? (fun e => e.1 = kind)).map Prod.snd

/-- `_INLINE_FACT_KEYS`. -/
def inlineFactKeys : List String :=
  ["procedure_proofs", "obligation_proofs", "policy_obligations", "obligations",
   "verification_results", "verifications", "closed_verifications", "evidence_artifacts",
   "evidences", "records", "relations", "record_relations", "grants", "authorization_grants",
   "authorizations", "checkpoints", "rollback_proofs", "compensations", "compensation_plans",
   "failure_stop_proofs", "stop_conditions", "failure_policies", "circuit_breaker_policies",
   "human_stop_authorities", "recovery_abort_paths", "stop_authorities", "independence_proofs",
   "independent_verification_proofs", "failure_domain_proofs", "role_proofs",
   "role_separation_proofs", "separation_proofs", "challenge_proofs", "challenge_capabilities",
   "escalation_routes", "dissent_channels", "challenge_paths", "exposure_proofs",
   "blast_radius_proofs", "exposure_limits", "takeover_proofs", "takeover_procedures",
   "recovery_authorities", "alternative_operators", "takeover_ready_proofs", "exit_proofs",
   "stop_procedures", "migration_paths", "shutdown_capabilities", "orderly_exit_proofs",
   "reauthorization_proofs", "reauthorization_grants", "reapproved_grants", "decisions",
   "decision_records"]

/-! ## What the store holds -/

structure StoredObject where
  kind : Kind
  value : Model kind

namespace StoredObject

/-- `getattr(value, name, None)`. -/
def getattr (o : StoredObject) (name : String) : Json := (o.kind.dump o.value).get name

/-- `_metadata`. -/
def metadata (o : StoredObject) : Fields := (o.getattr "metadata").asFields?.getD []

/-- `_version`. -/
def version (o : StoredObject) : Json :=
  [o.getattr "version", o.metadata.get "version", o.metadata.get "record_version",
    o.metadata.get "qualification_version"].find? (fun j => !j.isNone) |>.getD .null

/-- `_record_kind`: three classes are named before the record type is read. -/
def recordKind (o : StoredObject) : String :=
  if [Kind.authorization, .relation, .checkpoint].contains o.kind then o.kind.text
  else (o.getattr "record_type").asStr?.getD o.kind.text

end StoredObject

/-- The getters of a store, as far as it has them. -/
structure QualificationStore where
  getWork : Option (String → Result (Option Work)) := none
  getRun : Option (String → Result (Option Run)) := none
  getter : (k : Kind) → Option (String → Result (Option (Model k))) := fun _ => none

def staleLifecycles : List String :=
  ["superseded", "archived", "deprecated", "rejected", "rolled-back"]

/-- What a reference proves, in the shape that the procedure helper reads. -/
inductive ProofItem where
  | object (o : StoredObject)
  | simpleNamespace (fields : Fields)
  | mapping (fields : Fields)

/-- `_dump`, and `str` on what has no dump. -/
def ProofItem.dump : ProofItem → Json
  | object o => .obj (o.kind.dump o.value)
  | simpleNamespace fields =>
    .str ("namespace(" ++ Text.join ", " (fields.map (fun f => f.1 ++ "=" ++ f.2.pyRepr)) ++ ")")
  | mapping fields => .obj fields

namespace AssessmentContext

def fail {α : Type} (message : String) : Result α := .error (.qualificationResolutionError message)

def check (holds : Bool) (message : String) : Result Unit := if holds then .ok () else fail message

/-! ## One reference -/

/-- The getters that are asked for a reference of some kind. -/
def gettersFor (kind : String) : List Kind :=
  if ["authorization", "authorizationgrant", "grant"].contains kind then [.authorization]
  else if ["decision", "decisionrecord"].contains kind then [.decision, .record]
  else if ["relation", "recordrelation"].contains kind then [.relation]
  else if kind = "checkpoint" then [.checkpoint]
  else if ["evidence", "evidenceartifact", "observation"].contains kind then [.record, .evidence]
  else [.record, .decision, .authorization, .relation, .checkpoint, .evidence]

def lookupIn (store : QualificationStore) (refId : String) :
    List Kind → Result (Option StoredObject)
  | [] => .ok none
  | kind :: rest => match store.getter kind with
    | none => lookupIn store refId rest
    | some get => match get refId with
      | .error e =>
        fail s!"authoritative store lookup failed for {Text.pyRepr refId}: {e.message}"
      | .ok (some value) => .ok (some ⟨kind, value⟩)
      | .ok none => lookupIn store refId rest

/-- `_lookup`. -/
def lookup (store : QualificationStore) (ref : QualificationRef) : Result (Option StoredObject) :=
  lookupIn store ref.refId (gettersFor (normalKind (ref.kind.getD "")))

section Resolve

variable (sha256 : String → String) (fromisoformat : String → Option Time)

/-- The instant of an expiry, a naive one being in UTC. -/
def expiry (refId : String) : Json → Result (Option Time)
  | .datetime t => .ok (some t)
  | .str s => match fromisoformat s with
    | some t => .ok (some t)
    | none => fail s!"qualification reference {Text.pyRepr refId} has malformed expiry"
  | _ => .ok none

/-- The version that a reference asks for is the one that is there. -/
def assertRefVersion (ref : QualificationRef) (o : StoredObject) : Result Unit :=
  match ref.version with
  | none => .ok ()
  | some version => do
    let name := Text.pyRepr ref.refId
    let requested := version.json.pyRepr
    check (!o.version.isNone) (s!"qualification reference {name} requires version {requested}, " ++
      "but record is not versioned")
    check (o.version.pyStr = version.pyStr)
      (s!"qualification reference {name} version mismatch: requested {requested}, " ++
        s!"current {o.version.pyRepr}")

/-- `_assert_ref_valid` on a value that is there. -/
def assertRefValid (ref : QualificationRef) (o : StoredObject) (now : Time) : Result Unit := do
  assertRefVersion ref o
  let name := Text.pyRepr ref.refId
  let lifecycle := o.getattr "lifecycle_status"
  check (!(lifecycle.asStr?.any staleLifecycles.contains))
    s!"qualification reference {name} points to stale lifecycle {lifecycle.pyRepr}"
  if (o.getattr "record_type").eqStr "Assertion" then
    let epistemic := o.getattr "epistemic_status"
    check (lifecycle.eqStr "current" && epistemic.eqStr "supported")
      (s!"qualification Assertion {name} must be current and currently supported; " ++
        s!"got lifecycle={lifecycle.pyRepr}, epistemic_status={epistemic.pyRepr}")
  let expiresAt ← expiry fromisoformat ref.refId
    ((o.getattr "expires_at").pyOr (o.metadata.get "expires_at"))
  check (!(expiresAt.any (· ≤ now))) s!"qualification reference {name} is expired"

/-- The type that a reference names is authoritative, unless it is a procedure category. -/
def assertKind (ref : QualificationRef) (o : StoredObject) : Result Unit :=
  match ref.kind with
  | none => .ok ()
  | some kind =>
    let expected := normalKind kind
    let actual := normalKind o.recordKind
    let categoryRef := (proofOfKind expected).isSome
    let aliases := [expected, ((proofOfKind expected).map ProofBucket.text).getD "",
      if categoryRef then "procedureproof" else ""]
    check (aliases.contains actual ||
        (expected = "evidence" && ["evidenceartifact", "observation"].contains actual) ||
        categoryRef) (s!"qualification reference {Text.pyRepr ref.refId} type mismatch: " ++
      s!"expected {Text.pyRepr kind}, got {Text.pyRepr actual}")

/-- A string stands for the list of itself. -/
def listed : Json → Json
  | .str s => .arr [.str s]
  | j => j

def assertTarget (request : InvocationRequest) (ref : QualificationRef) (o : StoredObject) :
    Result Unit := do
  let targets := listed ((o.metadata.get "target_refs").pyOr ((o.metadata.get "subject_refs").pyOr
    ((o.getattr "target_refs").pyOr (.arr []))))
  if targets.truthy && (given request.workId).isSome then
    let bound ← targets.iterate
    let requestTargets := [request.workId.getD "None", request.runId.getD "None"]
    check (bound.any (fun target => requestTargets.contains target.pyStr))
      s!"qualification reference {Text.pyRepr ref.refId} is bound to a different target"

def assertVersions (request : InvocationRequest) (ref : QualificationRef) (o : StoredObject) :
    Result Unit := do
  let proofVersions := listed ((o.metadata.get "subject_version_refs").pyOr
    ((o.getattr "subject_version_refs").pyOr (.arr [])))
  let message := s!"qualification reference {Text.pyRepr ref.refId} version binding " ++
    "does not match request"
  if proofVersions.truthy then
    check (!request.subjectVersionRefs.isEmpty) message
    let bound ← proofVersions.iterate
    check (bound.any (fun version => request.subjectVersionRefs.contains version.pyStr)) message

/-- The stored object that a reference may rely on for this request. -/
def resolveRef (store : QualificationStore) (request : InvocationRequest) (now : Time)
    (ref : QualificationRef) : Result StoredObject := do
  match ← lookup store ref with
  | none => fail s!"qualification reference {Text.pyRepr ref.refId} not found"
  | some o =>
    assertRefValid fromisoformat ref o now
    assertKind ref o
    assertTarget request ref o
    assertVersions request ref o
    return o

/-! ## Where a proof goes -/

/-- `raw.setdefault(name, value)`. -/
def setdefault (raw : Fields) (name : String) (value : Json) : Fields :=
  if raw.has name then raw else raw.put name value

/-- `_verification_from_record`. -/
def verificationFromRecord (o : StoredObject) : Result ProofItem := do
  if ← (o.getattr "result").inSet ["pass", "fail"] then return .object o
  let md := o.metadata
  let result := (md.get "result").pyOr (md.get "verification_result")
  if !(← result.inSet ["pass", "fail"]) then return .object o
  return .simpleNamespace [("id", o.getattr "id"), ("result", result),
    ("target_refs", (md.get "target_refs").pyOr ((md.get "subject_refs").pyOr (.arr []))),
    ("subject_version_refs", (md.get "subject_version_refs").pyOr (.arr [])),
    ("version", o.version)]

/-- `_as_procedure_item`. -/
def asProcedureItem (o : StoredObject) : ProofBucket → Result ProofItem
  | .verificationResults => verificationFromRecord o
  | .obligationProofs =>
    let md := o.metadata
    let payload := setdefault md "id" (o.getattr "id")
    .ok (.mapping (setdefault payload "kind"
      ((md.get "obligation").pyOr (md.get "qualification_kind"))))
  | .procedureProofs =>
    let md := o.metadata
    .ok (if (md.get "qualification_kind").isStr then .mapping (setdefault md "id" (o.getattr "id"))
      else .object o)
  | _ => .ok (.object o)

/-- The bucket of a category, where it is given and known. -/
def categoryBucket (category : Json) : Option ProofBucket :=
  if category.truthy then proofOfKind (normalKind category.pyStr) else none

/-- The bucket under which a reference of some bucket is filed, and what is filed. -/
def file (bucket : ProofBucket) (ref : QualificationRef) (o : StoredObject) :
    Result (ProofBucket × ProofItem) := do
  if bucket = .procedureProofs then
    let category := (o.metadata.get "qualification_kind").pyOr (.ofOption ref.kind)
    if let some target := categoryBucket category then
      if target = .verificationResults then return (target, ← verificationFromRecord o)
      else if [evidenceArtifacts, decisions, relations, checkpoints, grants].contains target then
        return (target, .object o)
      else return (target, ← asProcedureItem o bucket)
  let item ← asProcedureItem o bucket
  if bucket = .procedureProofs then
    if let .mapping fields := item then
      return ((categoryBucket (fields.get "qualification_kind")).getD bucket, item)
  return (bucket, item)

/-- What a reference of some bucket contributes. -/
def place (store : QualificationStore) (request : InvocationRequest) (now : Time)
    (bucket : ProofBucket) (ref : QualificationRef) : Result (ProofBucket × ProofItem) := do
  let o ← resolveRef fromisoformat store request now ref
  file bucket ref o

/-! ## All references -/

/-- The metadata of Work, Run and request, later entries over earlier ones. -/
def mergeMetadata (sources : List Fields) : Result Fields :=
  sources.flatten.foldlM (fun merged f =>
    if inlineFactKeys.contains f.1 then
      fail (s!"inline qualification facts are forbidden in metadata: {Text.pyRepr f.1}; " ++
        "use authoritative refs")
    else .ok (merged.put f.1 f.2)) []

/-- The references under one key. -/
def refsUnder (merged : Fields) (key : String) : Result (List QualificationRef) :=
  match merged.get key with
  | .null => .ok []
  | .arr items => items.mapM QualificationRef.parse
  | .str s => [Json.str s].mapM QualificationRef.parse
  | .obj fields => [Json.obj fields].mapM QualificationRef.parse
  | _ => fail s!"qualification refs {Text.pyRepr key} must be a list or a single ref"

/-- `refs_by_bucket`. -/
def refsByBucket (merged : Fields) : Result (ProofBucket → List QualificationRef) := do
  let parsed ← refKeys.mapM (fun e => (refsUnder merged e.1).map (fun refs => (e.2, refs)))
  -- a single grant id is still a reference
  let legacy ← match merged.get "authorization_grant_id" with
    | .str refId =>
      (QualificationRef.create refId (some "authorization") none).map
        (fun ref => [(grants, [ref])])
    | _ => .ok []
  return fun bucket => ((parsed ++ legacy).filter (fun e => e.1 = bucket)).flatMap Prod.snd

/-- What the loop over the buckets has gathered. -/
structure Gathered where
  seen : List (String × Option String × Option String) := []
  refs : List QualificationRef := []
  placed : List (ProofBucket × ProofItem) := []

namespace Gathered

/-- `proofs[bucket]`. -/
def proofs (g : Gathered) (bucket : ProofBucket) : List ProofItem :=
  (g.placed.filter (fun e => e.1 = bucket)).map Prod.snd

/-- The keys of `proofs`, sorted. -/
def proofKeys (g : Gathered) : List ProofBucket :=
  (ProofBucket.all.filter (fun bucket =>
    refBuckets.contains bucket || !(g.proofs bucket).isEmpty)).insertionSort
      (fun a b => a.text ≤ b.text)

def payload (g : Gathered) : Json :=
  .obj [("refs", .arr (g.refs.map QualificationRef.dump)),
    ("proofs", .obj (g.proofKeys.map (fun bucket =>
      (bucket.text, .arr ((g.proofs bucket).map ProofItem.dump)))))]

def text (g : Gathered) : String :=
  g.payload.dumps { itemSeparator := ",", keySeparator := ":", sortKeys := true }

end Gathered

section Gather

variable (store : QualificationStore) (request : InvocationRequest) (now : Time)

def gather (g : Gathered) (e : ProofBucket × QualificationRef) : Result Gathered :=
  if e.2.dedupeKey ∈ g.seen then .ok g
  else do
    let placed ← place fromisoformat store request now e.1 e.2
    return { seen := e.2.dedupeKey :: g.seen, refs := g.refs ++ [e.2],
             placed := g.placed ++ [placed] }

/-- The loop over the buckets in some order. -/
def gatherAll (listed : ProofBucket → List QualificationRef) (order : List ProofBucket) :
    Result Gathered :=
  (order.flatMap (fun bucket => (listed bucket).map (fun ref => (bucket, ref)))).foldlM
    (gather fromisoformat store request now) {}

end Gather

/-- The answer of `AssessmentContext.resolve`. -/
structure Resolved where
  work : Option Work
  run : Option Run
  proofs : ProofBucket → List ProofItem
  refs : List QualificationRef
  digest : String

/-- A given object, or else the one that the store has under an id. -/
def orStored {α : Type} (value : Option α) (refId : Option String)
    (get : Option (String → Result (Option α))) : Result (Option α) :=
  match value, given refId, get with
  | none, some refId, some get => get refId
  | _, _, _ => .ok value

/-- What is resolved before the loop: Work, Run and the references of each bucket. -/
def sources (store : QualificationStore) (request : InvocationRequest) (work : Option Work)
    (run : Option Run) :
    Result (Option Work × Option Run × (ProofBucket → List QualificationRef)) := do
  let work ← orStored work request.workId store.getWork
  let run ← orStored run request.runId store.getRun
  let merged ← mergeMetadata ((work.map (·.metadata)).toList ++ (run.map (·.metadata)).toList ++
    [request.metadata])
  let listed ← refsByBucket merged
  return (work, run, listed)

/-- `AssessmentContext.resolve`, in a process that visits the buckets in some order. -/
def resolve (store : QualificationStore) (request : InvocationRequest) (work : Option Work)
    (run : Option Run) (now : Time) (order : List ProofBucket) : Result Resolved := do
  let (work, run, listed) ← sources store request work run
  let g ← gatherAll fromisoformat store request now listed order
  return { work := work, run := run, proofs := g.proofs, refs := g.refs,
           digest := sha256 g.text }

end Resolve
end AssessmentContext
end PortableRuntime
