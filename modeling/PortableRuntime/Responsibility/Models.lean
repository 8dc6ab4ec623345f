import PortableRuntime.Library.Dict
import PortableRuntime.Python.Json

/-!
# Persistent-responsibility objects

Durable coordination facts, append-only.  What a validator of the source rejects cannot be
built here: the quantities of a resource vector are natural numbers, a revision advances
the version by one, and each other validator is a field of its object.
-/

namespace PortableRuntime

inductive ResponsibilityStatus where
  | active | suspended | discharged
deriving Repr, DecidableEq, Inhabited

/-- The `EffectClass` of a work proposal. -/
inductive ProposalEffectClass where
  | readOnly | internalReversible | externalEffect
deriving Repr, DecidableEq, Inhabited

def ProposalEffectClass.text : ProposalEffectClass → String
  | readOnly => "read-only"
  | internalReversible => "internal-reversible"
  | externalEffect => "external-effect"

inductive ReservationReleaseKind where
  | released | expired | preempted
deriving Repr, DecidableEq, Inhabited

inductive ExpectationResolutionKind where
  | satisfied | cancelled
deriving Repr, DecidableEq, Inhabited

structure ObjectBase where
  id : String
  createdAt : Time
  idNonblank : Text.nonBlank id = true := by decide
deriving Repr, BEq

instance : DecidableEq ObjectBase := fun a b =>
  decidable_of_iff (a.id = b.id ∧ a.createdAt = b.createdAt) (by cases a; cases b; simp)

structure StandingResponsibility extends ObjectBase where
  responsibilityKind : String
  statement : String
  scope : Dict String String := Dict.empty
  schemaVersion : String := "persistent-responsibility-v1"
  kindNonblank : Text.nonBlank responsibilityKind = true := by decide
  statementNonblank : Text.nonBlank statement = true := by decide
deriving BEq

structure ResponsibilityAdmission extends ObjectBase where
  responsibilityRef : String
  responsibilityVersion : Int := 1
  principalRef : String
  basisRefs : List String := []
  admittedAt : Time
deriving BEq

structure ResponsibilityRevision extends ObjectBase where
  responsibilityRef : String
  fromVersion : Int
  statement : String
  scope : Dict String String := Dict.empty
  basisRefs : List String := []
  reason : String := ""
  statementNonblank : Text.nonBlank statement = true := by decide
deriving BEq

/-- A revision advances the version by exactly one. -/
def ResponsibilityRevision.toVersion (r : ResponsibilityRevision) : Int := r.fromVersion + 1

structure ResponsibilityLifecycleTransition extends ObjectBase where
  responsibilityRef : String
  responsibilityVersion : Int
  fromStatus : ResponsibilityStatus
  toStatus : ResponsibilityStatus
  basisRefs : List String := []
  decisionRef : Option String := none
  authorityRef : Option String := none
  appliedAt : Time
  reason : String := ""
  changes : fromStatus ≠ toStatus := by decide
  dischargeDecided : toStatus = .discharged → decisionRef.getD "" ≠ "" := by decide
  reopenDecided : fromStatus = .discharged ∧ toStatus = .active →
    decisionRef.getD "" ≠ "" := by decide
deriving BEq

structure ResponsibilityExpectation extends ObjectBase where
  responsibilityRef : String
  responsibilityVersion : Int
  subjectRef : String
  expectedSignalKind : String
  dueAt : Time
  recurrenceSeconds : Option Int := none
  freshnessWindowSeconds : Option Int := none
  sourceRequirement : Option String := none
  recurrencePositive : 0 < recurrenceSeconds.getD 1 := by decide
  windowPositive : 0 < freshnessWindowSeconds.getD 1 := by decide
deriving BEq

structure ResponsibilityExpectationResolution extends ObjectBase where
  expectationRef : String
  responsibilityRef : String
  resolution : ExpectationResolutionKind
  basisRefs : List String := []
  resolvedAt : Time
deriving BEq

structure ResponsibilityAssessment extends ObjectBase where
  responsibilityRef : String
  responsibilityVersion : Int
  subjectRef : String
  assessmentKind : String
  basisRefs : List String := []
  assessedAt : Time
  freshUntil : Option Time := none
  rationale : String := ""
deriving BEq

structure ResourceVector where
  computeUnits : Nat := 0
  apiCalls : Nat := 0
  moneyMinor : Nat := 0
  humanAttentionUnits : Nat := 0
  concurrencySlots : Nat := 0
  domainQuota : Dict String Nat := Dict.empty
deriving BEq, DecidableEq

structure PriorityDimensions where
  urgency : Fin 6
  impact : Fin 6
  risk : Fin 6
  reversibility : Fin 6
  confidence : Fin 6
  resourceCost : Fin 6
  humanAttentionCost : Fin 6
deriving Repr, BEq

structure WorkProposal extends ObjectBase where
  responsibilityRef : String
  responsibilityVersion : Int
  assessmentRef : String
  subjectRef : String
  workKind : String
  title : String
  description : String := ""
  requestedResources : ResourceVector := {}
  requestedCapabilities : List String := []
  expectedResult : String := ""
  stopConditions : List String := []
  escalationConditions : List String := []
  effectClass : ProposalEffectClass := .readOnly
  freshUntil : Option Time := none
deriving BEq, DecidableEq

structure PriorityJudgment extends ObjectBase where
  proposalRef : String
  dimensions : PriorityDimensions
  policyRef : String
  admitted : Bool
  rationale : String := ""
deriving BEq

structure ResourcePool extends ObjectBase where
  poolKey : String
  capacity : ResourceVector
  policyRef : String
deriving BEq, DecidableEq

structure PortfolioAdmissionDecision extends ObjectBase where
  proposalRef : String
  resourcePoolRef : String
  policyRef : String
  admitted : Bool
  rationale : String := ""
deriving BEq

structure ResourceReservation extends ObjectBase where
  responsibilityRef : String
  proposalRef : String
  resourcePoolRef : String
  resources : ResourceVector
  reservedAt : Time
  expiresAt : Option Time := none
deriving BEq, DecidableEq

structure ResourceReservationRelease extends ObjectBase where
  reservationRef : String
  responsibilityRef : String
  releaseKind : ReservationReleaseKind
  releasedAt : Time
  reason : String := ""
deriving BEq

structure Commitment extends ObjectBase where
  responsibilityRef : String
  responsibilityVersion : Int
  proposalRef : String
  priorityJudgmentRef : String
  portfolioAdmissionRef : String
  reservationRef : String
  resources : ResourceVector
  committedAt : Time
  stopConditions : List String := []
  escalationConditions : List String := []
deriving BEq, DecidableEq

structure ReasoningSessionBinding extends ObjectBase where
  responsibilityRef : String
  responsibilityVersion : Int
  provider : String
  model : String
  sessionRef : String
  startedAt : Time
  endedAt : Option Time := none
deriving BEq

structure ResponsibilityContextSnapshot extends ObjectBase where
  responsibilityRef : String
  responsibilityVersion : Int
  scope : Dict String String := Dict.empty
  openExpectationRefs : List String := []
  openAssessmentRefs : List String := []
  unresolvedUnknowns : List String := []
  activeProposalRefs : List String := []
  commitmentRefs : List String := []
  workRefs : List String := []
  reservationRefs : List String := []
  evidenceRefs : List String := []
  qualificationDependencyRefs : List String := []
  reopenConditions : List String := []
  stopConditions : List String := []
  escalationConditions : List String := []
deriving BEq

structure ResponsibilityHandoff extends ObjectBase where
  responsibilityRef : String
  responsibilityVersion : Int
  fromSessionRef : String
  toSessionRef : String
  contextSnapshotRef : String
  handedOffAt : Time
deriving BEq

structure ContinuityValidation extends ObjectBase where
  responsibilityRef : String
  responsibilityVersion : Int
  handoffRef : String
  responsibilityActive : Bool
  scopeCurrent : Bool
  assessmentCurrent : Bool
  expectationsCurrent : Bool
  proposalsCurrent : Bool
  reservationsCurrent : Bool
  authorizationRevalidationRequired : Bool := true
  validatedAt : Time
  rationale : String := ""
deriving BEq

/-- A responsibility object, by its `object_type`. -/
inductive ResponsibilityObject where
  | responsibility (v : StandingResponsibility)
  | admission (v : ResponsibilityAdmission)
  | revision (v : ResponsibilityRevision)
  | transition (v : ResponsibilityLifecycleTransition)
  | expectation (v : ResponsibilityExpectation)
  | resolution (v : ResponsibilityExpectationResolution)
  | assessment (v : ResponsibilityAssessment)
  | proposal (v : WorkProposal)
  | priority (v : PriorityJudgment)
  | pool (v : ResourcePool)
  | portfolio (v : PortfolioAdmissionDecision)
  | reservation (v : ResourceReservation)
  | release (v : ResourceReservationRelease)
  | commitment (v : Commitment)
  | binding (v : ReasoningSessionBinding)
  | snapshot (v : ResponsibilityContextSnapshot)
  | handoff (v : ResponsibilityHandoff)
  | continuity (v : ContinuityValidation)
deriving BEq

namespace ResponsibilityObject

def base : ResponsibilityObject → ObjectBase
  | responsibility v => v.toObjectBase
  | admission v => v.toObjectBase
  | revision v => v.toObjectBase
  | transition v => v.toObjectBase
  | expectation v => v.toObjectBase
  | resolution v => v.toObjectBase
  | assessment v => v.toObjectBase
  | proposal v => v.toObjectBase
  | priority v => v.toObjectBase
  | pool v => v.toObjectBase
  | portfolio v => v.toObjectBase
  | reservation v => v.toObjectBase
  | release v => v.toObjectBase
  | commitment v => v.toObjectBase
  | binding v => v.toObjectBase
  | snapshot v => v.toObjectBase
  | handoff v => v.toObjectBase
  | continuity v => v.toObjectBase

def id (v : ResponsibilityObject) : String := v.base.id

/-- The responsibility an object names; an identity, a judgment and a pool name none. -/
def responsibilityRef : ResponsibilityObject → Option String
  | admission v => v.responsibilityRef
  | revision v => v.responsibilityRef
  | transition v => v.responsibilityRef
  | expectation v => v.responsibilityRef
  | resolution v => v.responsibilityRef
  | assessment v => v.responsibilityRef
  | proposal v => v.responsibilityRef
  | reservation v => v.responsibilityRef
  | release v => v.responsibilityRef
  | commitment v => v.responsibilityRef
  | binding v => v.responsibilityRef
  | snapshot v => v.responsibilityRef
  | handoff v => v.responsibilityRef
  | continuity v => v.responsibilityRef
  | responsibility _ | priority _ | pool _ | portfolio _ => none

/-- `responsibility_subject_ref`: the named responsibility, or the object itself. -/
def subjectRef (v : ResponsibilityObject) : String :=
  (v.responsibilityRef.filter (· ≠ "")).getD v.id

/-- The object as if it had been created at the epoch. -/
def undated : ResponsibilityObject → ResponsibilityObject
  | responsibility v => responsibility { v with createdAt := 0 }
  | admission v => admission { v with createdAt := 0 }
  | revision v => revision { v with createdAt := 0 }
  | transition v => transition { v with createdAt := 0 }
  | expectation v => expectation { v with createdAt := 0 }
  | resolution v => resolution { v with createdAt := 0 }
  | assessment v => assessment { v with createdAt := 0 }
  | proposal v => proposal { v with createdAt := 0 }
  | priority v => priority { v with createdAt := 0 }
  | pool v => pool { v with createdAt := 0 }
  | portfolio v => portfolio { v with createdAt := 0 }
  | reservation v => reservation { v with createdAt := 0 }
  | release v => release { v with createdAt := 0 }
  | commitment v => commitment { v with createdAt := 0 }
  | binding v => binding { v with createdAt := 0 }
  | snapshot v => snapshot { v with createdAt := 0 }
  | handoff v => handoff { v with createdAt := 0 }
  | continuity v => continuity { v with createdAt := 0 }

/-- Equality of the dumps without the creation time. -/
def sameSemantics (a b : ResponsibilityObject) : Bool := a.undated == b.undated

def typeName : ResponsibilityObject → String
  | responsibility _ => "StandingResponsibility"
  | admission _ => "ResponsibilityAdmission"
  | revision _ => "ResponsibilityRevision"
  | transition _ => "ResponsibilityLifecycleTransition"
  | expectation _ => "ResponsibilityExpectation"
  | resolution _ => "ResponsibilityExpectationResolution"
  | assessment _ => "ResponsibilityAssessment"
  | proposal _ => "WorkProposal"
  | priority _ => "PriorityJudgment"
  | pool _ => "ResourcePool"
  | portfolio _ => "PortfolioAdmissionDecision"
  | reservation _ => "ResourceReservation"
  | release _ => "ResourceReservationRelease"
  | commitment _ => "Commitment"
  | binding _ => "ReasoningSessionBinding"
  | snapshot _ => "ResponsibilityContextSnapshot"
  | handoff _ => "ResponsibilityHandoff"
  | continuity _ => "ContinuityValidation"

def asResponsibility : ResponsibilityObject → Option StandingResponsibility
  | responsibility v => some v
  | _ => none
def asAdmission : ResponsibilityObject → Option ResponsibilityAdmission
  | admission v => some v
  | _ => none
def asRevision : ResponsibilityObject → Option ResponsibilityRevision
  | revision v => some v
  | _ => none
def asTransition : ResponsibilityObject → Option ResponsibilityLifecycleTransition
  | transition v => some v
  | _ => none
def asExpectation : ResponsibilityObject → Option ResponsibilityExpectation
  | expectation v => some v
  | _ => none
def asResolution : ResponsibilityObject → Option ResponsibilityExpectationResolution
  | resolution v => some v
  | _ => none
def asAssessment : ResponsibilityObject → Option ResponsibilityAssessment
  | assessment v => some v
  | _ => none
def asProposal : ResponsibilityObject → Option WorkProposal
  | proposal v => some v
  | _ => none
def asPriority : ResponsibilityObject → Option PriorityJudgment
  | priority v => some v
  | _ => none
def asPool : ResponsibilityObject → Option ResourcePool
  | pool v => some v
  | _ => none
def asPortfolio : ResponsibilityObject → Option PortfolioAdmissionDecision
  | portfolio v => some v
  | _ => none
def asReservation : ResponsibilityObject → Option ResourceReservation
  | reservation v => some v
  | _ => none
def asRelease : ResponsibilityObject → Option ResourceReservationRelease
  | release v => some v
  | _ => none
def asCommitment : ResponsibilityObject → Option Commitment
  | commitment v => some v
  | _ => none
def asBinding : ResponsibilityObject → Option ReasoningSessionBinding
  | binding v => some v
  | _ => none
def asSnapshot : ResponsibilityObject → Option ResponsibilityContextSnapshot
  | snapshot v => some v
  | _ => none
def asHandoff : ResponsibilityObject → Option ResponsibilityHandoff
  | handoff v => some v
  | _ => none

/-! ## Each reading is the inverse of its constructor -/

@[simp] theorem asResponsibility_eq_some {o : ResponsibilityObject} {v : StandingResponsibility} :
    o.asResponsibility = some v ↔ o = responsibility v := by
  cases o <;> simp [asResponsibility]

@[simp] theorem asAdmission_eq_some {o : ResponsibilityObject} {v : ResponsibilityAdmission} :
    o.asAdmission = some v ↔ o = admission v := by
  cases o <;> simp [asAdmission]

@[simp] theorem asRevision_eq_some {o : ResponsibilityObject} {v : ResponsibilityRevision} :
    o.asRevision = some v ↔ o = revision v := by
  cases o <;> simp [asRevision]

@[simp] theorem asTransition_eq_some {o : ResponsibilityObject} {v : ResponsibilityLifecycleTransition} :
    o.asTransition = some v ↔ o = transition v := by
  cases o <;> simp [asTransition]

@[simp] theorem asAssessment_eq_some {o : ResponsibilityObject} {v : ResponsibilityAssessment} :
    o.asAssessment = some v ↔ o = assessment v := by
  cases o <;> simp [asAssessment]

@[simp] theorem asProposal_eq_some {o : ResponsibilityObject} {v : WorkProposal} :
    o.asProposal = some v ↔ o = proposal v := by
  cases o <;> simp [asProposal]

@[simp] theorem asPriority_eq_some {o : ResponsibilityObject} {v : PriorityJudgment} :
    o.asPriority = some v ↔ o = priority v := by
  cases o <;> simp [asPriority]

@[simp] theorem asPool_eq_some {o : ResponsibilityObject} {v : ResourcePool} :
    o.asPool = some v ↔ o = pool v := by
  cases o <;> simp [asPool]

@[simp] theorem asPortfolio_eq_some {o : ResponsibilityObject} {v : PortfolioAdmissionDecision} :
    o.asPortfolio = some v ↔ o = portfolio v := by
  cases o <;> simp [asPortfolio]

@[simp] theorem asReservation_eq_some {o : ResponsibilityObject} {v : ResourceReservation} :
    o.asReservation = some v ↔ o = reservation v := by
  cases o <;> simp [asReservation]

@[simp] theorem asRelease_eq_some {o : ResponsibilityObject} {v : ResourceReservationRelease} :
    o.asRelease = some v ↔ o = release v := by
  cases o <;> simp [asRelease]

@[simp] theorem asCommitment_eq_some {o : ResponsibilityObject} {v : Commitment} :
    o.asCommitment = some v ↔ o = commitment v := by
  cases o <;> simp [asCommitment]

end ResponsibilityObject
end PortableRuntime
