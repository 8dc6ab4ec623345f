import PortableRuntime.Responsibility.Journal
import PortableRuntime.Responsibility.Resources

/-!
# The responsibility kernel

The kernel reads the journal afresh in every call and writes at most one object, or one
Work; `register` writes an identity with its admission in one transaction.  A call that
raises leaves the store as it was.
-/

namespace PortableRuntime

/-- `_stable_id`: a prefix and a digest of the parts. -/
structure StableId where
  text : String → List String → String
  nonBlank : ∀ kind parts, Text.nonBlank (text kind parts) = true

structure ResponsibilityDefinition where
  version : Int
  statement : String
  scope : Dict String String

namespace ResponsibilityStore

/-! ## Reading the journal -/

def get {α : Type} (s : ResponsibilityStore) (as : ResponsibilityObject → Option α)
    (expected : String) (objectId : String) : Result α := do
  let value ← orRaise (s.journalGet objectId) s!"unknown responsibility object: {objectId}"
  orRaise (as value)
    s!"responsibility object {Text.pyRepr objectId} must be {expected}, got {value.typeName}"

def getResponsibility (s : ResponsibilityStore) : String → Result StandingResponsibility :=
  s.get (·.asResponsibility) "StandingResponsibility"

def getExpectation (s : ResponsibilityStore) : String → Result ResponsibilityExpectation :=
  s.get (·.asExpectation) "ResponsibilityExpectation"

def getAssessment (s : ResponsibilityStore) : String → Result ResponsibilityAssessment :=
  s.get (·.asAssessment) "ResponsibilityAssessment"

def getProposal (s : ResponsibilityStore) : String → Result WorkProposal :=
  s.get (·.asProposal) "WorkProposal"

def getPriority (s : ResponsibilityStore) : String → Result PriorityJudgment :=
  s.get (·.asPriority) "PriorityJudgment"

def getPool (s : ResponsibilityStore) : String → Result ResourcePool :=
  s.get (·.asPool) "ResourcePool"

def getPortfolio (s : ResponsibilityStore) : String → Result PortfolioAdmissionDecision :=
  s.get (·.asPortfolio) "PortfolioAdmissionDecision"

def getReservation (s : ResponsibilityStore) : String → Result ResourceReservation :=
  s.get (·.asReservation) "ResourceReservation"

def getCommitment (s : ResponsibilityStore) : String → Result Commitment :=
  s.get (·.asCommitment) "Commitment"

def getBinding (s : ResponsibilityStore) : String → Result ReasoningSessionBinding :=
  s.get (·.asBinding) "ReasoningSessionBinding"

def getSnapshot (s : ResponsibilityStore) : String → Result ResponsibilityContextSnapshot :=
  s.get (·.asSnapshot) "ResponsibilityContextSnapshot"

def getHandoff (s : ResponsibilityStore) : String → Result ResponsibilityHandoff :=
  s.get (·.asHandoff) "ResponsibilityHandoff"

def saveAppendOnly (s : ResponsibilityStore) (value : ResponsibilityObject) :
    Result (ResponsibilityObject × ResponsibilityStore) :=
  match s.journalGet value.id with
  | some existing =>
    if existing.sameSemantics value then .ok (existing, s)
    else raiseValue s!"responsibility object {Text.pyRepr value.id} is append-only"
  | none => s.journalSave value

/-- The revisions of a responsibility, by the version they lead to. -/
def revisions (s : ResponsibilityStore) (responsibilityId : String) :
    List ResponsibilityRevision :=
  (s.listed (·.asRevision) "ResponsibilityRevision" responsibilityId).insertionSort
    (fun a b => a.toVersion ≤ b.toVersion)

def applyRevision (d : ResponsibilityDefinition) (revision : ResponsibilityRevision) :
    Result ResponsibilityDefinition := do
  guardValue (revision.fromVersion = d.version) "responsibility revision history is not contiguous"
  return { version := revision.toVersion, statement := revision.statement, scope := revision.scope }

def currentDefinition (s : ResponsibilityStore) (responsibilityId : String) :
    Result ResponsibilityDefinition := do
  let identity ← s.getResponsibility responsibilityId
  (s.revisions responsibilityId).foldlM applyRevision
    { version := 1, statement := identity.statement, scope := identity.scope }

/-- The key `(applied_at, id)`. -/
def appliedBefore (a b : ResponsibilityLifecycleTransition) : Prop :=
  a.appliedAt < b.appliedAt ∨ (a.appliedAt = b.appliedAt ∧ a.id ≤ b.id)

instance : DecidableRel appliedBefore := fun a b => by
  unfold appliedBefore
  infer_instance

def transitions (s : ResponsibilityStore) (responsibilityId : String) :
    List ResponsibilityLifecycleTransition :=
  (s.listed (·.asTransition) "ResponsibilityLifecycleTransition" responsibilityId).insertionSort
    appliedBefore

def applyTransition (status : ResponsibilityStatus)
    (transition : ResponsibilityLifecycleTransition) : Result ResponsibilityStatus := do
  guardValue (transition.fromStatus = status) "responsibility lifecycle history is not contiguous"
  return transition.toStatus

def admissions (s : ResponsibilityStore) (responsibilityId : String) :
    List ResponsibilityAdmission :=
  s.listed (·.asAdmission) "ResponsibilityAdmission" responsibilityId

def currentStatus (s : ResponsibilityStore) (responsibilityId : String) :
    Result ResponsibilityStatus := do
  let _ ← s.getResponsibility responsibilityId
  guardValue (!(s.admissions responsibilityId).isEmpty) "standing responsibility is not admitted"
  (s.transitions responsibilityId).foldlM applyTransition .active

def requireActive (s : ResponsibilityStore) (responsibilityId message : String) : Result Unit := do
  let status ← s.currentStatus responsibilityId
  guardValue (status = .active) message

def resolutions (s : ResponsibilityStore) (expectation : ResponsibilityExpectation) :
    List ResponsibilityExpectationResolution :=
  (s.listed (·.asResolution) "ResponsibilityExpectationResolution"
    expectation.responsibilityRef).filter (fun v => v.expectationRef = expectation.id)

def expectationOpen (s : ResponsibilityStore) (expectationId : String) : Result Bool := do
  let expectation ← s.getExpectation expectationId
  return (s.resolutions expectation).isEmpty

/-- A freshness bound has passed. -/
def stale (freshUntil : Option Time) (now : Time) : Bool := freshUntil.any (· < now)

/-- The releases recorded of a reservation. -/
def releases (s : ResponsibilityStore) (reservation : ResourceReservation) :
    List ResourceReservationRelease :=
  (s.listed (·.asRelease) "ResourceReservationRelease" reservation.responsibilityRef).filter
    (fun v => v.reservationRef = reservation.id)

def reservationReleased (s : ResponsibilityStore) (reservation : ResourceReservation)
    (now : Time) : Bool :=
  !(s.releases reservation).isEmpty || reservation.expiresAt.any (· ≤ now)

/-- The reservations on a pool that are neither released nor expired. -/
def heldReservations (s : ResponsibilityStore) (poolId : String) (now : Time) :
    List ResourceReservation :=
  (s.listed (·.asReservation) "ResourceReservation" none).filter
    (fun v => v.resourcePoolRef = poolId && !s.reservationReleased v now)

def availableResources (s : ResponsibilityStore) (resourcePoolRef : String) (now : Time) :
    Result ResourceVector := do
  let pool ← s.getPool resourcePoolRef
  let used := ((s.heldReservations pool.id now).map (·.resources)).foldl ResourceVector.plus {}
  return pool.capacity.remaining used

/-! ## Operations -/

abbrev Saved := Result (ResponsibilityObject × ResponsibilityStore)

def register (s : ResponsibilityStore) (identity : StandingResponsibility)
    (admission : ResponsibilityAdmission) : Saved := do
  guardValue (admission.responsibilityRef = identity.id)
    "admission must bind the standing responsibility identity"
  guardValue (admission.responsibilityVersion = 1)
    "initial responsibility admission must bind version 1"
  guardValue (Text.nonBlank admission.principalRef)
    "responsibility admission requires principal_ref"
  guardValue (s.journalGet identity.id).isNone
    s!"standing responsibility already exists: {identity.id}"
  let (saved, s) ← s.journalSave (.responsibility identity)
  let (_, s) ← s.saveAppendOnly (.admission admission)
  return (saved, s)

def revise (s : ResponsibilityStore) (revision : ResponsibilityRevision) : Saved := do
  let current ← s.currentDefinition revision.responsibilityRef
  guardValue (revision.fromVersion = current.version) "responsibility revision is stale"
  let status ← s.currentStatus revision.responsibilityRef
  guardValue (status ≠ .discharged)
    "discharged responsibility must be explicitly reopened before revision"
  s.saveAppendOnly (.revision revision)

def transition (s : ResponsibilityStore) (transition : ResponsibilityLifecycleTransition) :
    Saved := do
  let current ← s.currentDefinition transition.responsibilityRef
  guardValue (transition.responsibilityVersion = current.version)
    "responsibility lifecycle transition is stale"
  let status ← s.currentStatus transition.responsibilityRef
  guardValue (transition.fromStatus = status)
    "responsibility lifecycle transition has stale from_status"
  s.saveAppendOnly (.transition transition)

def createExpectation (s : ResponsibilityStore) (expectation : ResponsibilityExpectation) :
    Saved := do
  let current ← s.currentDefinition expectation.responsibilityRef
  s.requireActive expectation.responsibilityRef
    "expectation requires an active standing responsibility"
  guardValue (expectation.responsibilityVersion = current.version)
    "expectation is bound to a stale responsibility version"
  s.saveAppendOnly (.expectation expectation)

def resolveExpectation (s : ResponsibilityStore)
    (resolution : ResponsibilityExpectationResolution) : Saved := do
  let expectation ← s.getExpectation resolution.expectationRef
  guardValue (expectation.responsibilityRef = resolution.responsibilityRef)
    "expectation resolution responsibility mismatch"
  match s.resolutions expectation with
  | [] => s.saveAppendOnly (.resolution resolution)
  | [existing] =>
    if (ResponsibilityObject.resolution existing).sameSemantics (.resolution resolution) then
      return (.resolution existing, s)
    else raiseValue "expectation is already resolved"
  | _ => raiseValue "expectation is already resolved"

/-- Evidence resolves an expectation; without it, one that is due gives one assessment. -/
def assessDueExpectation (ids : StableId) (s : ResponsibilityStore) (expectationId : String)
    (now clock : Time) (observedEvidenceRefs : List String) :
    Result (Option ResponsibilityObject × ResponsibilityStore) := do
  let expectation ← s.getExpectation expectationId
  if !(← s.expectationOpen expectation.id) then
    return (none, s)
  let current ← s.currentDefinition expectation.responsibilityRef
  guardValue (expectation.responsibilityVersion = current.version)
    "stale expectation requires revalidation before assessment"
  let status ← s.currentStatus expectation.responsibilityRef
  if status ≠ .active then
    return (none, s)
  let observed := observedEvidenceRefs.filter (fun ref => Text.nonBlank ref)
  if !observed.isEmpty then
    let (_, s) ← s.resolveExpectation
      { id := ids.text "expectation_resolution" [expectation.id, "satisfied"], createdAt := clock,
        idNonblank := ids.nonBlank _ _, expectationRef := expectation.id,
        responsibilityRef := expectation.responsibilityRef, resolution := .satisfied,
        basisRefs := observed, resolvedAt := now }
    return (none, s)
  if now < expectation.dueAt then
    return (none, s)
  let assessmentId :=
    ids.text "assessment" [expectation.id, Text.dateTime expectation.dueAt, "missing"]
  match s.journalGet assessmentId with
  | some existing =>
    guardValue existing.asAssessment.isSome "deterministic assessment identity rebound"
    return (some existing, s)
  | none =>
    let (saved, s) ← s.saveAppendOnly (.assessment
      { id := assessmentId, createdAt := clock, idNonblank := ids.nonBlank _ _,
        responsibilityRef := expectation.responsibilityRef,
        responsibilityVersion := current.version, subjectRef := expectation.subjectRef,
        assessmentKind := "expected-signal-missing", basisRefs := [expectation.id],
        assessedAt := now,
        freshUntil := expectation.freshnessWindowSeconds.map (fun n => now + n * 1000000),
        rationale := s!"expected {expectation.expectedSignalKind} evidence is absent after due_at" })
    return (some saved, s)

/-- `record_domain_assessment` of the domain boundary. -/
def recordDomainAssessment (s : ResponsibilityStore) (assessment : ResponsibilityAssessment)
    (now : Time) : Saved := do
  let current ← s.currentDefinition assessment.responsibilityRef
  s.requireActive assessment.responsibilityRef
    "domain assessment requires an active standing responsibility"
  guardValue (assessment.responsibilityVersion = current.version)
    "domain assessment is bound to a stale responsibility version"
  guardValue (!stale assessment.freshUntil now) "domain assessment is already stale"
  match s.journalGet assessment.id with
  | some existing =>
    if existing == .assessment assessment then return (.assessment assessment, s)
    else raiseValue s!"assessment identity rebound: {assessment.id}"
  | none => s.journalSave (.assessment assessment)

def propose (s : ResponsibilityStore) (proposal : WorkProposal) (now : Time) : Saved := do
  let current ← s.currentDefinition proposal.responsibilityRef
  s.requireActive proposal.responsibilityRef
    "work proposal requires an active standing responsibility"
  guardValue (proposal.responsibilityVersion = current.version)
    "historical proposal cannot enter current admission"
  let assessment ← s.getAssessment proposal.assessmentRef
  guardValue (assessment.responsibilityRef = proposal.responsibilityRef)
    "proposal assessment belongs to another responsibility"
  guardValue (assessment.responsibilityVersion = current.version) "proposal assessment is stale"
  guardValue (!stale assessment.freshUntil now) "proposal assessment is no longer fresh"
  guardValue (!stale proposal.freshUntil now) "proposal is already stale"
  s.saveAppendOnly (.proposal proposal)

def recordPriorityJudgment (s : ResponsibilityStore) (judgment : PriorityJudgment) : Saved := do
  let _ ← s.getProposal judgment.proposalRef
  guardValue (Text.nonBlank judgment.policyRef)
    "priority judgment requires explicit versioned policy_ref"
  s.saveAppendOnly (.priority judgment)

def createResourcePool (s : ResponsibilityStore) (pool : ResourcePool) : Saved := do
  guardValue (Text.nonBlank pool.policyRef)
    "resource pool requires explicit versioned policy_ref"
  s.saveAppendOnly (.pool pool)

def recordPortfolioAdmission (s : ResponsibilityStore) (decision : PortfolioAdmissionDecision) :
    Saved := do
  let proposal ← s.getProposal decision.proposalRef
  let pool ← s.getPool decision.resourcePoolRef
  guardValue (decision.policyRef = pool.policyRef)
    "portfolio admission policy must match resource pool policy"
  guardValue (!decision.admitted || proposal.requestedResources.fitsWithin pool.capacity)
    "portfolio admission cannot admit a request larger than pool capacity"
  s.saveAppendOnly (.portfolio decision)

def reserve (s : ResponsibilityStore) (reservation : ResourceReservation) (now : Time) :
    Saved := do
  let proposal ← s.getProposal reservation.proposalRef
  guardValue (proposal.responsibilityRef = reservation.responsibilityRef)
    "reservation/proposal responsibility mismatch"
  guardValue (proposal.requestedResources == reservation.resources)
    "reservation must exactly bind proposal resource request"
  let available ← s.availableResources reservation.resourcePoolRef now
  guardValue (reservation.resources.fitsWithin available)
    "resource reservation would overcommit the pool"
  s.saveAppendOnly (.reservation reservation)

def releaseReservation (s : ResponsibilityStore) (release : ResourceReservationRelease) :
    Saved := do
  let reservation ← s.getReservation release.reservationRef
  guardValue (reservation.responsibilityRef = release.responsibilityRef)
    "reservation release responsibility mismatch"
  match s.releases reservation with
  | [] => s.saveAppendOnly (.release release)
  | [existing] =>
    if (ResponsibilityObject.release existing).sameSemantics (.release release) then
      return (.release existing, s)
    else raiseValue "reservation already released"
  | _ => raiseValue "reservation already released"

def commit (s : ResponsibilityStore) (commitment : Commitment) (now : Time) : Saved := do
  let proposal ← s.getProposal commitment.proposalRef
  let priority ← s.getPriority commitment.priorityJudgmentRef
  let portfolio ← s.getPortfolio commitment.portfolioAdmissionRef
  let reservation ← s.getReservation commitment.reservationRef
  let current ← s.currentDefinition commitment.responsibilityRef
  s.requireActive commitment.responsibilityRef
    "commitment requires active standing responsibility"
  guardValue (commitment.responsibilityVersion = current.version)
    "commitment is bound to stale responsibility version"
  guardValue (proposal.responsibilityRef = commitment.responsibilityRef)
    "proposal/commitment responsibility mismatch"
  guardValue (proposal.responsibilityVersion = current.version)
    "historical proposal cannot be committed"
  guardValue (!stale proposal.freshUntil now) "stale proposal cannot be committed"
  let assessment ← s.getAssessment proposal.assessmentRef
  guardValue (!stale assessment.freshUntil now) "stale assessment cannot be committed"
  guardValue (priority.proposalRef = proposal.id && priority.admitted)
    "commitment requires an admitted priority judgment"
  guardValue (portfolio.proposalRef = proposal.id && portfolio.admitted)
    "commitment requires portfolio admission"
  guardValue (reservation.proposalRef = proposal.id)
    "commitment reservation must bind the proposal"
  guardValue (!s.reservationReleased reservation now) "commitment reservation is not current"
  guardValue (commitment.resources == proposal.requestedResources &&
      commitment.resources == reservation.resources)
    "commitment resources must exactly bind proposal and reservation"
  s.saveAppendOnly (.commitment commitment)

def materializedWork (workId : String) (commitment : Commitment) (proposal : WorkProposal)
    (clock : Time) : Work :=
  { id := workId, createdAt := clock, updatedAt := clock, kind := proposal.workKind,
    title := proposal.title, description := proposal.description, status := .open
    constraints :=
      [("responsibility_stop_conditions", .ofStrings proposal.stopConditions),
       ("responsibility_escalation_conditions", .ofStrings proposal.escalationConditions)]
    acceptanceCriteria := if proposal.expectedResult = "" then [] else [proposal.expectedResult]
    requestedCapabilities := proposal.requestedCapabilities
    metadata :=
      [("standing_responsibility_ref", .str commitment.responsibilityRef),
       ("standing_responsibility_version", .int commitment.responsibilityVersion),
       ("responsibility_proposal_ref", .str proposal.id),
       ("responsibility_commitment_ref", .str commitment.id),
       ("responsibility_reservation_ref", .str commitment.reservationRef),
       ("persistent_responsibility_contract", .str "persistent-responsibility-v1"),
       ("effect_class", .str proposal.effectClass.text),
       ("external_effect_authority", .str "required-separately")] }

/-- The Work of a commitment; `saveGate` is the verdict of the store's own write checks. -/
def materializeWork (ids : StableId) (s : ResponsibilityStore) (commitmentId : String)
    (clock : Time) (saveGate : Result Unit) : Result (Work × ResponsibilityStore) := do
  let commitment ← s.getCommitment commitmentId
  let proposal ← s.getProposal commitment.proposalRef
  let workId := ids.text "work" [commitment.id, proposal.id]
  let work := materializedWork workId commitment proposal clock
  match s.works.get? workId with
  | some existing =>
    guardValue ((existing.dump.pop "created_at").pyEq (work.dump.pop "created_at"))
      "deterministic responsibility Work identity rebound"
    return (existing, s)
  | none =>
    saveGate
    return (work, s.putWork work)

def bindReasoningSession (s : ResponsibilityStore) (binding : ReasoningSessionBinding) :
    Saved := do
  let current ← s.currentDefinition binding.responsibilityRef
  guardValue (binding.responsibilityVersion = current.version) "reasoning session binding is stale"
  s.saveAppendOnly (.binding binding)

/-- What the caller adds to a context snapshot. -/
structure SnapshotRefs where
  unresolvedUnknowns : List String := []
  evidenceRefs : List String := []
  qualificationDependencyRefs : List String := []
  reopenConditions : List String := []
  stopConditions : List String := []
  escalationConditions : List String := []

def createContextSnapshot (ids : StableId) (s : ResponsibilityStore) (responsibilityId : String)
    (refs : SnapshotRefs) (clock : Time) : Saved := do
  let current ← s.currentDefinition responsibilityId
  let expectations ← (s.listed (·.asExpectation) "ResponsibilityExpectation"
    responsibilityId).filterM (fun v => s.expectationOpen v.id)
  let assessments := s.listed (·.asAssessment) "ResponsibilityAssessment" responsibilityId
  let proposals := (s.listed (·.asProposal) "WorkProposal" responsibilityId).filter
    (fun v => v.responsibilityVersion = current.version)
  let commitments := (s.listed (·.asCommitment) "Commitment" responsibilityId).filter
    (fun v => v.responsibilityVersion = current.version)
  let reservations := s.listed (·.asReservation) "ResourceReservation" responsibilityId
  let workRefs := (s.listWork.filter (fun work =>
    (Fields.get work.metadata "standing_responsibility_ref").eqStr responsibilityId)).map (·.id)
  s.saveAppendOnly (.snapshot
    { id := ids.text "responsibility_context" [responsibilityId, toString current.version,
        toString expectations.length, toString assessments.length, toString proposals.length,
        toString commitments.length, toString workRefs.length],
      createdAt := clock, idNonblank := ids.nonBlank _ _, responsibilityRef := responsibilityId,
      responsibilityVersion := current.version, scope := current.scope,
      openExpectationRefs := expectations.map (·.id), openAssessmentRefs := assessments.map (·.id),
      unresolvedUnknowns := refs.unresolvedUnknowns, activeProposalRefs := proposals.map (·.id),
      commitmentRefs := commitments.map (·.id), workRefs := workRefs,
      reservationRefs := reservations.map (·.id), evidenceRefs := refs.evidenceRefs,
      qualificationDependencyRefs := refs.qualificationDependencyRefs,
      reopenConditions := refs.reopenConditions, stopConditions := refs.stopConditions,
      escalationConditions := refs.escalationConditions })

def handoff (s : ResponsibilityStore) (handoff : ResponsibilityHandoff) : Saved := do
  let snapshot ← s.getSnapshot handoff.contextSnapshotRef
  guardValue (snapshot.responsibilityRef = handoff.responsibilityRef)
    "handoff context snapshot belongs to another responsibility"
  guardValue (snapshot.responsibilityVersion = handoff.responsibilityVersion)
    "handoff context snapshot version mismatch"
  let fromBinding ← s.getBinding handoff.fromSessionRef
  let toBinding ← s.getBinding handoff.toSessionRef
  guardValue (fromBinding.responsibilityRef = handoff.responsibilityRef &&
      toBinding.responsibilityRef = handoff.responsibilityRef)
    "handoff session responsibility mismatch"
  s.saveAppendOnly (.handoff handoff)

/-- Every reference is current; the first that is not ends the reading. -/
def allCurrent (isCurrent : String → Result Bool) : List String → Result Bool
  | [] => return true
  | ref :: rest => do
    if ← isCurrent ref then allCurrent isCurrent rest else return false

def validateHandoff (ids : StableId) (s : ResponsibilityStore) (handoffId : String)
    (now clock : Time) : Saved := do
  let handoff ← s.getHandoff handoffId
  let snapshot ← s.getSnapshot handoff.contextSnapshotRef
  let current ← s.currentDefinition handoff.responsibilityRef
  let status ← s.currentStatus handoff.responsibilityRef
  let assessmentsCurrent ← allCurrent (fun ref => do
    let value ← s.getAssessment ref
    return value.responsibilityVersion = current.version && !stale value.freshUntil now)
    snapshot.openAssessmentRefs
  let expectationsCurrent ← allCurrent (fun ref => do
    let value ← s.getExpectation ref
    if value.responsibilityVersion ≠ current.version then return false
    else s.expectationOpen ref) snapshot.openExpectationRefs
  let proposalsCurrent ← allCurrent (fun ref => do
    let value ← s.getProposal ref
    return value.responsibilityVersion = current.version && !stale value.freshUntil now)
    snapshot.activeProposalRefs
  let reservationsCurrent ← allCurrent (fun ref => do
    let value ← s.getReservation ref
    return !s.reservationReleased value now) snapshot.reservationRefs
  s.saveAppendOnly (.continuity
    { id := ids.text "continuity" [handoff.id, toString current.version, Text.dateTime now],
      createdAt := clock, idNonblank := ids.nonBlank _ _,
      responsibilityRef := handoff.responsibilityRef, responsibilityVersion := current.version,
      handoffRef := handoff.id, responsibilityActive := status = .active,
      scopeCurrent := current.version = snapshot.responsibilityVersion &&
        current.scope == snapshot.scope,
      assessmentCurrent := assessmentsCurrent, expectationsCurrent := expectationsCurrent,
      proposalsCurrent := proposalsCurrent, reservationsCurrent := reservationsCurrent,
      authorizationRevalidationRequired := true, validatedAt := now,
      rationale := "handoff preserves durable responsibility history but never transfers " ++
        "or extends execution authority" })

end ResponsibilityStore

/-! ## Calls -/

/-- A call of the kernel.  `clock` is what `utcnow` answers while the call builds an object. -/
inductive KernelCall where
  | register (identity : StandingResponsibility) (admission : ResponsibilityAdmission)
  | revise (revision : ResponsibilityRevision)
  | transition (transition : ResponsibilityLifecycleTransition)
  | createExpectation (expectation : ResponsibilityExpectation)
  | resolveExpectation (resolution : ResponsibilityExpectationResolution)
  | assessDueExpectation (expectationId : String) (now clock : Time)
      (observedEvidenceRefs : List String)
  | recordDomainAssessment (assessment : ResponsibilityAssessment) (now : Time)
  | propose (proposal : WorkProposal) (now : Time)
  | recordPriorityJudgment (judgment : PriorityJudgment)
  | createResourcePool (pool : ResourcePool)
  | recordPortfolioAdmission (decision : PortfolioAdmissionDecision)
  | reserve (reservation : ResourceReservation) (now : Time)
  | releaseReservation (release : ResourceReservationRelease)
  | commit (commitment : Commitment) (now : Time)
  | materializeWork (commitmentId : String) (clock : Time) (saveGate : Result Unit)
  | bindReasoningSession (binding : ReasoningSessionBinding)
  | createContextSnapshot (responsibilityId : String) (refs : ResponsibilityStore.SnapshotRefs)
      (clock : Time)
  | handoff (handoff : ResponsibilityHandoff)
  | validateHandoff (handoffId : String) (now clock : Time)

namespace KernelCall

/-- The `now` argument of a call. -/
def now? : KernelCall → Option Time
  | assessDueExpectation _ now _ _ => now
  | recordDomainAssessment _ now => now
  | propose _ now => now
  | reserve _ now => now
  | commit _ now => now
  | validateHandoff _ now _ => now
  | _ => none

def perform (ids : StableId) (s : ResponsibilityStore) :
    KernelCall → Result ResponsibilityStore
  | register identity admission => Prod.snd <$> s.register identity admission
  | revise revision => Prod.snd <$> s.revise revision
  | transition value => Prod.snd <$> s.transition value
  | createExpectation expectation => Prod.snd <$> s.createExpectation expectation
  | resolveExpectation resolution => Prod.snd <$> s.resolveExpectation resolution
  | assessDueExpectation expectationId now clock observed =>
    Prod.snd <$> s.assessDueExpectation ids expectationId now clock observed
  | recordDomainAssessment assessment now => Prod.snd <$> s.recordDomainAssessment assessment now
  | propose proposal now => Prod.snd <$> s.propose proposal now
  | recordPriorityJudgment judgment => Prod.snd <$> s.recordPriorityJudgment judgment
  | createResourcePool pool => Prod.snd <$> s.createResourcePool pool
  | recordPortfolioAdmission decision => Prod.snd <$> s.recordPortfolioAdmission decision
  | reserve reservation now => Prod.snd <$> s.reserve reservation now
  | releaseReservation release => Prod.snd <$> s.releaseReservation release
  | commit commitment now => Prod.snd <$> s.commit commitment now
  | materializeWork commitmentId clock saveGate =>
    Prod.snd <$> s.materializeWork ids commitmentId clock saveGate
  | bindReasoningSession binding => Prod.snd <$> s.bindReasoningSession binding
  | createContextSnapshot responsibilityId refs clock =>
    Prod.snd <$> s.createContextSnapshot ids responsibilityId refs clock
  | handoff value => Prod.snd <$> s.handoff value
  | validateHandoff handoffId now clock => Prod.snd <$> s.validateHandoff ids handoffId now clock

/-- A call that raises leaves the store as it was. -/
def step (ids : StableId) (s : ResponsibilityStore) (call : KernelCall) : ResponsibilityStore :=
  match call.perform ids s with
  | .ok s' => s'
  | .error _ => s

end KernelCall

/-! ## A listing-integrity chain

One responsibility, from its registration to a commitment and the Work of it. -/

namespace Listing

/-- Ids that spell out their parts. -/
def ids : StableId where
  text kind parts := kind ++ "_" ++ Text.join "/" parts
  nonBlank kind parts := by
    rw [Text.nonBlank, String.toList_append, String.toList_append, List.any_append,
      List.any_append]
    simp [Text.isSpace]

def identity : StandingResponsibility :=
  { id := "sr_listing", createdAt := 0, responsibilityKind := "listing-integrity",
    statement := "Maintain listing integrity" }

def admission : ResponsibilityAdmission :=
  { id := "admission", createdAt := 0, responsibilityRef := "sr_listing",
    principalRef := "principal:owner", admittedAt := 0 }

def assessment : ResponsibilityAssessment :=
  { id := "assessment", createdAt := 1, responsibilityRef := "sr_listing",
    responsibilityVersion := 1, subjectRef := "shopify:product:1",
    assessmentKind := "expected-signal-missing", assessedAt := 1 }

def request : ResourceVector := { computeUnits := 1, apiCalls := 2, concurrencySlots := 1 }

def proposal : WorkProposal :=
  { id := "proposal", createdAt := 2, responsibilityRef := "sr_listing",
    responsibilityVersion := 1, assessmentRef := "assessment", subjectRef := "shopify:product:1",
    workKind := "listing-diagnosis", title := "Diagnose listing drift",
    requestedResources := request }

def priority : PriorityJudgment :=
  { id := "priority", createdAt := 3, proposalRef := "proposal",
    dimensions :=
      { urgency := 3, impact := 3, risk := 1, reversibility := 5, confidence := 4,
        resourceCost := 1, humanAttentionCost := 0 },
    policyRef := "portfolio-policy-v1", admitted := true }

def pool : ResourcePool :=
  { id := "pool", createdAt := 3, poolKey := "default", policyRef := "portfolio-policy-v1",
    capacity := { computeUnits := 1, apiCalls := 2, concurrencySlots := 1 } }

def portfolio : PortfolioAdmissionDecision :=
  { id := "portfolio", createdAt := 4, proposalRef := "proposal", resourcePoolRef := "pool",
    policyRef := "portfolio-policy-v1", admitted := true }

def reservation : ResourceReservation :=
  { id := "reservation", createdAt := 5, responsibilityRef := "sr_listing",
    proposalRef := "proposal", resourcePoolRef := "pool", resources := request, reservedAt := 5 }

def commitment : Commitment :=
  { id := "commitment", createdAt := 6, responsibilityRef := "sr_listing",
    responsibilityVersion := 1, proposalRef := "proposal", priorityJudgmentRef := "priority",
    portfolioAdmissionRef := "portfolio", reservationRef := "reservation", resources := request,
    committedAt := 6 }

/-- The chain up to the reservation. -/
def reserved : List KernelCall :=
  [.register identity admission, .recordDomainAssessment assessment 1, .propose proposal 2,
    .recordPriorityJudgment priority, .createResourcePool pool,
    .recordPortfolioAdmission portfolio, .reserve reservation 5]

def committed : List KernelCall := reserved ++ [.commit commitment 6]

end Listing
end PortableRuntime
