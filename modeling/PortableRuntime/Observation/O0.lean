import PortableRuntime.Library.Tally
import PortableRuntime.Records.Authorization
import PortableRuntime.Records.Relations
import PortableRuntime.Records.Reopen
import PortableRuntime.Records.Revalidation

/-!
# The observational bridge

The runtime and the formal side keep their own semantics, and each projects a finite bundle of what
it has into snapshots of one neutral shape.  An observation says how much it loses; one that carries
a bridge key and value may be compared with one of the other side.
-/

namespace PortableRuntime

inductive ObservationOrigin where
  | runtime | formal
deriving Repr, DecidableEq, Inhabited

inductive ObservationQuality where
  | exactShape | abstraction | partialView | semanticMismatch | notRepresented
deriving Repr, DecidableEq, Inhabited

inductive ObservationFamily where
  | historicalTrace | historicalDependency | operativeStatus | activationUse | impactObservation
  | reviewInvalidation | dischargeRequirement | dischargeEvidence | regimeReference
deriving Repr, DecidableEq, Inhabited

def ObservationFamily.text : ObservationFamily → String
  | .historicalTrace => "historicalTrace"
  | .historicalDependency => "historicalDependency"
  | .operativeStatus => "operativeStatus"
  | .activationUse => "activationUse"
  | .impactObservation => "impactObservation"
  | .reviewInvalidation => "reviewInvalidation"
  | .dischargeRequirement => "dischargeRequirement"
  | .dischargeEvidence => "dischargeEvidence"
  | .regimeReference => "regimeReference"

structure O0Observation where
  origin : ObservationOrigin
  family : ObservationFamily
  subjectRef : String
  semanticsTag : String
  quality : ObservationQuality
  bridgeKey : Option String := none
  bridgeValue : Option String := none
  sourceRefs : List String := []
  coordinates : Dict String String := .empty

structure O0Snapshot where
  origin : ObservationOrigin
  observedAt : Time
  observations : List O0Observation := []

/-! ## The runtime side -/

def RevisionScope.text : RevisionScope → String
  | .execution => "execution"
  | .decision => "decision"
  | .representation => "representation"
  | .inputs => "inputs"
  | .goal => "goal"
  | .authorization => "authorization"
  | .evidenceAcquisition => "evidence-acquisition"
  | .verification => "verification"
  | .problemDefinition => "problem-definition"
  | .other => "other"

/-- A reopen assessment and its `reason_refs`. -/
structure ReasonedReopen extends ReopenAssessment where
  reasonRefs : List String := []

structure RuntimeObservationBundle0 where
  observedAt : Time
  records : List BaseRecord := []
  relations : List RecordRelation := []
  authorizationGrants : List AuthorizationGrant := []
  authorizationUses : List AuthorizationUse := []
  impacts : List DependencyImpact := []
  assessments : List AffectedAssessment := []
  reopenAssessments : List ReasonedReopen := []

def runtimeAssertionBridgeValue : EpistemicStatus → Option String
  | .supported => some "qualified"
  | .revalidationRequired | .refuted => some "withdrawn"
  | _ => none

/-- The trace that something of an id is there. -/
def traceObservation (id tag : String) (sourceRefs : List String)
    (coordinates : List (String × String)) : O0Observation where
  origin := .runtime
  family := .historicalTrace
  subjectRef := id
  semanticsTag := tag
  quality := .abstraction
  bridgeKey := some "trace.referent-present"
  bridgeValue := some "present"
  sourceRefs := sourceRefs
  coordinates := .ofPairs coordinates

def observeRecord (record : BaseRecord) : List O0Observation :=
  [traceObservation record.id ("runtime.record." ++ record.recordType.text) [record.id]
    [("record_type", record.recordType.text), ("version", toString record.version),
     ("lifecycle", record.lifecycleStatus.text)]] ++
  (if record.cls = .assertion then
    match record.epistemicStatus with
    | none => []
    | some status =>
      let bridgeValue := runtimeAssertionBridgeValue status
      [{ origin := .runtime, family := .operativeStatus, subjectRef := record.id,
         semanticsTag := "runtime.assertion-epistemic-status", quality := .abstraction,
         bridgeKey := if bridgeValue.isSome then some "qualification.current" else none,
         bridgeValue, sourceRefs := [record.id],
         coordinates := .ofPairs [("layer", "assertion.epistemic_status"),
           ("status", status.text)] }]
  else []) ++
  record.environmentVersions.map (fun e =>
    { origin := .runtime, family := .regimeReference, subjectRef := record.id,
      semanticsTag := "runtime.environment-version", quality := .abstraction,
      sourceRefs := [record.id], coordinates := .ofPairs [("name", e.1), ("version", e.2)] }) ++
  (if record.cls = .revisionRecord ∧
      [LifecycleStatus.applied, .verified, .accepted].contains record.lifecycleStatus then
    [{ origin := .runtime, family := .dischargeEvidence,
       subjectRef := (record.getattr "subject_ref").asStr?.getD "",
       semanticsTag := "runtime.revision-lifecycle-evidence", quality := .partialView,
       sourceRefs := [record.id],
       coordinates := .ofPairs [("status", record.lifecycleStatus.text)] }]
  else [])

def observeRelation (relation : RecordRelation) : O0Observation where
  origin := .runtime
  family := .historicalDependency
  subjectRef := relation.subjectRef
  semanticsTag := "runtime.relation." ++ relation.relationType.text
  quality := .abstraction
  sourceRefs := [relation.id]
  coordinates := .ofPairs
    [("object_ref", relation.objectRef), ("relation_type", relation.relationType.text)]

def isGrantValid (grant : AuthorizationGrant) (now : Time) : Bool :=
  (validateGrant grant now).isEmpty

def observeGrant (observedAt : Time) (grant : AuthorizationGrant) : List O0Observation :=
  [traceObservation grant.id "runtime.authorization-grant-record" [grant.id]
    [("grantee_ref", grant.granteeRef)],
   { origin := .runtime, family := .operativeStatus, subjectRef := grant.id,
     semanticsTag := "runtime.authorization-current-at-observedAt", quality := .partialView,
     sourceRefs := [grant.id],
     coordinates := .ofPairs [("layer", "authorization"),
       ("status", if isGrantValid grant observedAt then "current" else "not-current")] }]

def observeUse (use : AuthorizationUse) : List O0Observation :=
  [traceObservation use.id "runtime.authorization-use-at-time" [use.id, use.authorizationRef]
    [("authorized_at", Text.isoformat use.authorizedAt)],
   { origin := .runtime, family := .activationUse, subjectRef := use.id,
     semanticsTag := "runtime.authorization-use-at-time", quality := .partialView,
     sourceRefs := [use.id, use.authorizationRef],
     coordinates := .ofPairs [("actor_ref", use.actorRef), ("resource_ref", use.resourceRef),
       ("capability", use.capability)] }]

def observeImpact (impact : DependencyImpact) : O0Observation where
  origin := .runtime
  family := .impactObservation
  subjectRef := impact.affectedRef
  semanticsTag := "runtime.direct-typed-impact"
  quality := .semanticMismatch
  sourceRefs := impact.reasonRefs
  coordinates := .ofPairs
    [("change_ref", impact.changeRef), ("relation_type", impact.relationType)]

def observeAssessment (assessment : AffectedAssessment) : List O0Observation :=
  match assessment.revalidationDisposition with
  | none => []
  | some disposition =>
    [{ origin := .runtime, family := .dischargeRequirement, subjectRef := assessment.affectedRef,
       semanticsTag := "runtime.policy-disposition", quality := .semanticMismatch,
       sourceRefs := disposition.rationaleRefs,
       coordinates := .ofPairs [("action", disposition.action.text),
         ("policy_ref", disposition.policyRef)] }] ++
    if [ImpactType.blockNextUse, .requireHumanReview, .reopen].contains disposition.action then
      [{ origin := .runtime, family := .reviewInvalidation, subjectRef := assessment.affectedRef,
         semanticsTag := "runtime.review-or-block-disposition", quality := .partialView,
         sourceRefs := disposition.rationaleRefs,
         coordinates := .ofPairs [("action", disposition.action.text)] }]
    else []

def observeReopen (reopen : ReasonedReopen) : List O0Observation :=
  let observed := fun family tag =>
    ({ origin := .runtime, family, subjectRef := reopen.recordRef, semanticsTag := tag,
       quality := .partialView, sourceRefs := reopen.reasonRefs,
       coordinates := .ofPairs [("revision_scope", reopen.revisionScope.text)] } : O0Observation)
  [observed .reviewInvalidation "runtime.reopen-assessment",
   observed .dischargeRequirement "runtime.reopen-scope"]

def alphaR0 (bundle : RuntimeObservationBundle0) : O0Snapshot where
  origin := .runtime
  observedAt := bundle.observedAt
  observations :=
    bundle.records.flatMap observeRecord ++ bundle.relations.map observeRelation ++
    bundle.authorizationGrants.flatMap (observeGrant bundle.observedAt) ++
    bundle.authorizationUses.flatMap observeUse ++ bundle.impacts.map observeImpact ++
    bundle.assessments.flatMap observeAssessment ++ bundle.reopenAssessments.flatMap observeReopen

/-! ## The formal side -/

/-- What the inputs of the formal side have in common. -/
structure FormalInput where
  subjectRef : String
  sourceRefs : List String := []
  coordinates : Dict String String := .empty

structure FormalHistoricalTraceInput extends FormalInput where
  traceKind : String

structure FormalDependencyInput extends FormalInput where
  relationTag : String
  objectRef : String

structure FormalOperativeStatusInput extends FormalInput where
  layer : String
  status : String

structure FormalActivationInput extends FormalInput where
  activationKind : String

structure FormalImpactInput extends FormalInput where
  targetRef : String
  propagation : String

structure FormalReviewInput extends FormalInput where
  reviewState : String

structure FormalRequirementInput extends FormalInput where
  requirement : String

structure FormalEvidenceInput extends FormalInput where
  evidenceKind : String

structure FormalRegimeInput extends FormalInput where
  regimeKind : String
  regimeRef : String

structure FormalObservationBundle0 where
  observedAt : Time
  historicalTraces : List FormalHistoricalTraceInput := []
  dependencies : List FormalDependencyInput := []
  operativeStatuses : List FormalOperativeStatusInput := []
  activations : List FormalActivationInput := []
  impacts : List FormalImpactInput := []
  reviews : List FormalReviewInput := []
  requirements : List FormalRequirementInput := []
  evidence : List FormalEvidenceInput := []
  regimes : List FormalRegimeInput := []

/-- An observation of the formal side: the coordinates of its input, with some of its own. -/
def FormalInput.observed (input : FormalInput) (family : ObservationFamily) (tag : String)
    (quality : ObservationQuality) (own : List (String × String)) : O0Observation where
  origin := .formal
  family := family
  subjectRef := input.subjectRef
  semanticsTag := tag
  quality := quality
  sourceRefs := input.sourceRefs
  coordinates := own.foldl (fun d e => d.set e.1 e.2) input.coordinates

def observeStatus (status : FormalOperativeStatusInput) : O0Observation :=
  let bridgeValue :=
    if ["qualified", "withdrawn"].contains status.status then some status.status else none
  let bridgeKey :=
    if status.layer = "warrant.usable" ∧ bridgeValue.isSome then some "qualification.current"
    else none
  { status.observed .operativeStatus ("formal.status." ++ status.layer)
      (if bridgeKey.isSome then .abstraction else .partialView)
      [("layer", status.layer), ("status", status.status)] with bridgeKey, bridgeValue }

def alphaF0 (bundle : FormalObservationBundle0) : O0Snapshot where
  origin := .formal
  observedAt := bundle.observedAt
  observations :=
    bundle.historicalTraces.map (fun trace =>
      { trace.observed .historicalTrace ("formal.trace." ++ trace.traceKind) .abstraction [] with
        bridgeKey := some "trace.referent-present", bridgeValue := some "present" }) ++
    bundle.dependencies.map (fun dependency =>
      dependency.observed .historicalDependency ("formal.dependency." ++ dependency.relationTag)
        .abstraction
        [("object_ref", dependency.objectRef), ("relation_tag", dependency.relationTag)]) ++
    bundle.operativeStatuses.map observeStatus ++
    bundle.activations.map (fun activation =>
      activation.observed .activationUse ("formal.activation." ++ activation.activationKind)
        .partialView []) ++
    bundle.impacts.map (fun impact =>
      impact.observed .impactObservation "formal.transitive-historical-challenge-impact"
        .semanticMismatch
        [("target_ref", impact.targetRef), ("propagation", impact.propagation)]) ++
    bundle.reviews.map (fun review =>
      review.observed .reviewInvalidation "formal.challenge-review-currentness" .partialView
        [("review_state", review.reviewState)]) ++
    bundle.requirements.map (fun requirement =>
      requirement.observed .dischargeRequirement "formal.repair-requirement" .semanticMismatch
        [("requirement", requirement.requirement)]) ++
    bundle.evidence.map (fun evidence =>
      evidence.observed .dischargeEvidence "formal.repair-realization-evidence" .partialView
        [("evidence_kind", evidence.evidenceKind)]) ++
    bundle.regimes.map (fun regime =>
      regime.observed .regimeReference "formal.regime-reference" .abstraction
        [("regime_kind", regime.regimeKind), ("regime_ref", regime.regimeRef)])

/-! ## Discovery -/

structure B0Coordinate where
  key : String
  family : ObservationFamily
  bridgeKey : String
  witnesses : Nat
deriving DecidableEq

structure O0ComparisonCase where
  runtime : O0Snapshot
  formal : O0Snapshot
  runtimeToFormalIds : Dict String String

/-- The bridge key and value of an observation that may be compared. -/
def O0Observation.bridged (o : O0Observation) : Option (String × String) :=
  match o.bridgeKey, o.bridgeValue with
  | some key, some value =>
    if [ObservationQuality.semanticMismatch, .notRepresented].contains o.quality then none
    else some (key, value)
  | _, _ => none

abbrev FormalIndex := Dict (ObservationFamily × String × String × String) O0Observation

def FormalIndex.add (index : FormalIndex) (o : O0Observation) : FormalIndex :=
  match o.bridged with
  | none => index
  | some (key, value) => index.set (o.family, o.subjectRef, key, value) o

def O0ComparisonCase.formalIndex (c : O0ComparisonCase) : FormalIndex :=
  c.formal.observations.foldl FormalIndex.add .empty

/-- The coordinate that a runtime observation is a witness for. -/
def O0ComparisonCase.witnessed (c : O0ComparisonCase) (o : O0Observation) :
    Option (ObservationFamily × String) :=
  match o.bridged with
  | none => none
  | some (key, value) =>
    match c.runtimeToFormalIds.get? o.subjectRef with
    | none => none
    | some subject =>
      if (c.formalIndex.get? (o.family, subject, key, value)).isSome then some (o.family, key)
      else none

abbrev WitnessCounts := Dict (ObservationFamily × String) Nat

def O0ComparisonCase.count (c : O0ComparisonCase) (counts : WitnessCounts) (o : O0Observation) :
    WitnessCounts :=
  match c.witnessed o with
  | none => counts
  | some key => counts.increment key

def witnessCounts (cases : List O0ComparisonCase) : WitnessCounts :=
  cases.foldl (fun counts c => c.runtime.observations.foldl c.count counts) .empty

/-- The order of `sorted(counts.items())`. -/
def coordinatePrecedes (a b : (ObservationFamily × String) × Nat) : Prop :=
  a.1.1.text < b.1.1.text ∨ (a.1.1.text = b.1.1.text ∧ a.1.2 ≤ b.1.2)

instance : DecidableRel coordinatePrecedes := fun a b =>
  inferInstanceAs (Decidable (a.1.1.text < b.1.1.text ∨
    (a.1.1.text = b.1.1.text ∧ a.1.2 ≤ b.1.2)))

def discoverB0 (cases : List O0ComparisonCase) : List B0Coordinate :=
  ((witnessCounts cases).entries.insertionSort coordinatePrecedes).map (fun e =>
    { key := e.1.1.text ++ ":" ++ e.1.2, family := e.1.1, bridgeKey := e.1.2, witnesses := e.2 })

end PortableRuntime
