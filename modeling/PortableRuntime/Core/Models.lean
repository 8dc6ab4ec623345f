import PortableRuntime.Python.Json

/-!
# Runtime models

The execution-side objects a store holds.  Each model keeps the fields its class
declares and, in `extra`, the undeclared ones the class allows.  `dump` is
`model_dump(mode="json")`: the declared fields in order, then the undeclared ones.
-/

namespace PortableRuntime

structure RuntimeModel where
  id : String
  createdAt : Time
  metadata : Fields := []
  extra : Fields := []
deriving Repr, Inhabited

def RuntimeModel.base (m : RuntimeModel) : Fields :=
  [("id", .str m.id), ("created_at", .datetime m.createdAt), ("metadata", .obj m.metadata)]

def dumpTime (t : Option Time) : Json := t.elim .null .datetime

def dumpFields (f : Option Fields) : Json := f.elim .null .obj

inductive WorkStatus where
  | open | ready | running | blocked | waiting | completed | failed | cancelled | archived
deriving Repr, DecidableEq, Inhabited

def WorkStatus.text : WorkStatus → String
  | .open => "open"
  | .ready => "ready"
  | .running => "running"
  | .blocked => "blocked"
  | .waiting => "waiting"
  | .completed => "completed"
  | .failed => "failed"
  | .cancelled => "cancelled"
  | .archived => "archived"

/-- Canonical unit of work. -/
structure Work extends RuntimeModel where
  kind : String := "generic-task"
  title : String
  description : String := ""
  status : WorkStatus := .open
  priority : Int := 0
  inputs : List String := []
  artifactRefs : List String := []
  constraints : Fields := []
  acceptanceCriteria : List String := []
  requestedCapabilities : List String := []
  parentWorkId : Option String := none
  updatedAt : Time
deriving Repr, Inhabited

def Work.dump (w : Work) : Fields :=
  w.base ++
    [("kind", .str w.kind), ("title", .str w.title), ("description", .str w.description),
     ("status", .str w.status.text), ("priority", .int w.priority),
     ("inputs", .ofStrings w.inputs), ("artifact_refs", .ofStrings w.artifactRefs),
     ("constraints", .obj w.constraints),
     ("acceptance_criteria", .ofStrings w.acceptanceCriteria),
     ("requested_capabilities", .ofStrings w.requestedCapabilities),
     ("parent_work_id", .ofOption w.parentWorkId), ("updated_at", .datetime w.updatedAt)] ++
    w.extra

inductive RunStatus where
  | queued | running | waiting | blocked | succeeded | failed | cancelled | interrupted
deriving Repr, DecidableEq, Inhabited

def RunStatus.text : RunStatus → String
  | .queued => "queued"
  | .running => "running"
  | .waiting => "waiting"
  | .blocked => "blocked"
  | .succeeded => "succeeded"
  | .failed => "failed"
  | .cancelled => "cancelled"
  | .interrupted => "interrupted"

structure Run extends RuntimeModel where
  workId : String
  status : RunStatus := .queued
  workflowId : String := "generic-task"
  startedAt : Option Time := none
  endedAt : Option Time := none
  currentStep : Option String := none
  providerInvocationRefs : List String := []
  leaseOwner : Option String := none
  leaseGeneration : Int := 0
  leaseExpiresAt : Option Time := none
  heartbeatAt : Option Time := none
deriving Repr, Inhabited

def Run.dump (r : Run) : Fields :=
  r.base ++
    [("work_id", .str r.workId), ("status", .str r.status.text),
     ("workflow_id", .str r.workflowId), ("started_at", dumpTime r.startedAt),
     ("ended_at", dumpTime r.endedAt), ("current_step", .ofOption r.currentStep),
     ("provider_invocation_refs", .ofStrings r.providerInvocationRefs),
     ("lease_owner", .ofOption r.leaseOwner), ("lease_generation", .int r.leaseGeneration),
     ("lease_expires_at", dumpTime r.leaseExpiresAt),
     ("heartbeat_at", dumpTime r.heartbeatAt)] ++
    r.extra

structure Artifact extends RuntimeModel where
  kind : String
  mediaType : Option String := none
  uri : Option String := none
  inlineData : Json := .null
  createdByRunId : Option String := none
  createdByProviderId : Option String := none
  checksum : Option String := none
deriving Repr, Inhabited

def Artifact.dump (a : Artifact) : Fields :=
  a.base ++
    [("kind", .str a.kind), ("media_type", .ofOption a.mediaType), ("uri", .ofOption a.uri),
     ("inline_data", a.inlineData), ("created_by_run_id", .ofOption a.createdByRunId),
     ("created_by_provider_id", .ofOption a.createdByProviderId),
     ("checksum", .ofOption a.checksum)] ++
    a.extra

inductive EpistemicStatus where
  | unverified | supported | contested | refuted | unknown | revalidationRequired
deriving Repr, DecidableEq, Inhabited

def EpistemicStatus.text : EpistemicStatus → String
  | .unverified => "unverified"
  | .supported => "supported"
  | .contested => "contested"
  | .refuted => "refuted"
  | .unknown => "unknown"
  | .revalidationRequired => "revalidation-required"

structure Evidence extends RuntimeModel where
  kind : String
  subjectRefs : List String := []
  artifactRefs : List String := []
  source : String
  observedAt : Time
  status : EpistemicStatus := .unverified
deriving Repr, Inhabited

def Evidence.dump (e : Evidence) : Fields :=
  e.base ++
    [("kind", .str e.kind), ("subject_refs", .ofStrings e.subjectRefs),
     ("artifact_refs", .ofStrings e.artifactRefs), ("source", .str e.source),
     ("observed_at", .datetime e.observedAt), ("status", .str e.status.text)] ++
    e.extra

structure Decision extends RuntimeModel where
  workId : String
  decisionType : String
  selectedOption : Option String := none
  rationaleArtifactRefs : List String := []
  authorizedBy : List String := []
deriving Repr, Inhabited

def Decision.dump (d : Decision) : Fields :=
  d.base ++
    [("work_id", .str d.workId), ("decision_type", .str d.decisionType),
     ("selected_option", .ofOption d.selectedOption),
     ("rationale_artifact_refs", .ofStrings d.rationaleArtifactRefs),
     ("authorized_by", .ofStrings d.authorizedBy)] ++
    d.extra

structure Action extends RuntimeModel where
  workId : String
  runId : String
  capability : String
  providerId : String
  requestRef : String
  status : String := "queued"
deriving Repr, Inhabited

def Action.dump (a : Action) : Fields :=
  a.base ++
    [("work_id", .str a.workId), ("run_id", .str a.runId), ("capability", .str a.capability),
     ("provider_id", .str a.providerId), ("request_ref", .str a.requestRef),
     ("status", .str a.status)] ++
    a.extra

structure Outcome extends RuntimeModel where
  actionId : String
  artifactRefs : List String := []
  evidenceRefs : List String := []
  status : String
deriving Repr, Inhabited

def Outcome.dump (o : Outcome) : Fields :=
  o.base ++
    [("action_id", .str o.actionId), ("artifact_refs", .ofStrings o.artifactRefs),
     ("evidence_refs", .ofStrings o.evidenceRefs), ("status", .str o.status)] ++
    o.extra

inductive KnowledgeStatus where
  | candidate | official | deprecated | archived
deriving Repr, DecidableEq, Inhabited

def KnowledgeStatus.text : KnowledgeStatus → String
  | .candidate => "candidate"
  | .official => "official"
  | .deprecated => "deprecated"
  | .archived => "archived"

structure KnowledgeItem extends RuntimeModel where
  kind : String
  title : String
  contentRef : String
  status : KnowledgeStatus := .candidate
  sourceWorkRefs : List String := []
  evidenceRefs : List String := []
  validScope : Fields := []
  reopenConditions : List String := []
  updatedAt : Time
deriving Repr, Inhabited

def KnowledgeItem.dump (k : KnowledgeItem) : Fields :=
  k.base ++
    [("kind", .str k.kind), ("title", .str k.title), ("content_ref", .str k.contentRef),
     ("status", .str k.status.text), ("source_work_refs", .ofStrings k.sourceWorkRefs),
     ("evidence_refs", .ofStrings k.evidenceRefs), ("valid_scope", .obj k.validScope),
     ("reopen_conditions", .ofStrings k.reopenConditions),
     ("updated_at", .datetime k.updatedAt)] ++
    k.extra

structure Event extends RuntimeModel where
  type : String
  subjectRef : String
  payload : Fields := []
deriving Repr, Inhabited

def Event.dump (e : Event) : Fields :=
  e.base ++
    [("type", .str e.type), ("subject_ref", .str e.subjectRef), ("payload", .obj e.payload)] ++
    e.extra

inductive StepStatus where
  | pending | ready | running | waiting | succeeded | failed | cancelled | compensating
  | compensated | unknown
deriving Repr, DecidableEq, Inhabited

def StepStatus.text : StepStatus → String
  | .pending => "pending"
  | .ready => "ready"
  | .running => "running"
  | .waiting => "waiting"
  | .succeeded => "succeeded"
  | .failed => "failed"
  | .cancelled => "cancelled"
  | .compensating => "compensating"
  | .compensated => "compensated"
  | .unknown => "unknown"

inductive SideEffectClass where
  | pure | idempotent | deduplicatable | reconcilable | irreversibleOpaque
deriving Repr, DecidableEq, Inhabited

def SideEffectClass.text : SideEffectClass → String
  | .pure => "pure"
  | .idempotent => "idempotent"
  | .deduplicatable => "deduplicatable"
  | .reconcilable => "reconcilable"
  | .irreversibleOpaque => "irreversible-opaque"

inductive Reversibility where
  | reversible | compensatable | irreversible | unknown
deriving Repr, DecidableEq, Inhabited

def Reversibility.text : Reversibility → String
  | .reversible => "reversible"
  | .compensatable => "compensatable"
  | .irreversible => "irreversible"
  | .unknown => "unknown"

/-- Durable step within a Run. -/
structure Step extends RuntimeModel where
  runId : String
  stepKey : String
  kind : String := "generic"
  status : StepStatus := .pending
  inputDigest : Option String := none
  sideEffectClass : SideEffectClass := .pure
  effectSemantics : SideEffectClass := .pure
  reversibility : Reversibility := .unknown
  currentAttempt : Int := 0
  version : Int := 0
  updatedAt : Time
  leaseOwner : Option String := none
  leaseGeneration : Int := 0
  leaseExpiresAt : Option Time := none
deriving Repr, Inhabited

def Step.dump (s : Step) : Fields :=
  s.base ++
    [("run_id", .str s.runId), ("step_key", .str s.stepKey), ("kind", .str s.kind),
     ("status", .str s.status.text), ("input_digest", .ofOption s.inputDigest),
     ("side_effect_class", .str s.sideEffectClass.text),
     ("effect_semantics", .str s.effectSemantics.text),
     ("reversibility", .str s.reversibility.text), ("current_attempt", .int s.currentAttempt),
     ("version", .int s.version), ("updated_at", .datetime s.updatedAt),
     ("lease_owner", .ofOption s.leaseOwner), ("lease_generation", .int s.leaseGeneration),
     ("lease_expires_at", dumpTime s.leaseExpiresAt)] ++
    s.extra

inductive AttemptStatus where
  | running | succeeded | failed | cancelled | unknown
deriving Repr, DecidableEq, Inhabited

def AttemptStatus.text : AttemptStatus → String
  | .running => "running"
  | .succeeded => "succeeded"
  | .failed => "failed"
  | .cancelled => "cancelled"
  | .unknown => "unknown"

structure StepAttempt extends RuntimeModel where
  stepId : String
  attemptNo : Int := 1
  providerId : Option String := none
  requestRef : Option String := none
  idempotencyKey : Option String := none
  externalOperationRef : Option String := none
  startedAt : Option Time := none
  endedAt : Option Time := none
  status : AttemptStatus := .running
  resultRef : Option String := none
  error : Option Fields := none
  leaseGeneration : Int := 0
deriving Repr, Inhabited

def StepAttempt.dump (a : StepAttempt) : Fields :=
  a.base ++
    [("step_id", .str a.stepId), ("attempt_no", .int a.attemptNo),
     ("provider_id", .ofOption a.providerId), ("request_ref", .ofOption a.requestRef),
     ("idempotency_key", .ofOption a.idempotencyKey),
     ("external_operation_ref", .ofOption a.externalOperationRef),
     ("started_at", dumpTime a.startedAt), ("ended_at", dumpTime a.endedAt),
     ("status", .str a.status.text), ("result_ref", .ofOption a.resultRef),
     ("error", dumpFields a.error), ("lease_generation", .int a.leaseGeneration)] ++
    a.extra

structure Checkpoint extends RuntimeModel where
  runId : String
  stepId : Option String := none
  stateDigest : Option String := none
  payloadRef : Option String := none
  payload : Option Fields := none
deriving Repr, Inhabited

def Checkpoint.dump (c : Checkpoint) : Fields :=
  c.base ++
    [("run_id", .str c.runId), ("step_id", .ofOption c.stepId),
     ("state_digest", .ofOption c.stateDigest), ("payload_ref", .ofOption c.payloadRef),
     ("payload", dumpFields c.payload)] ++
    c.extra

inductive CompensationStatus where
  | pending | running | succeeded | failed | cancelled
deriving Repr, DecidableEq, Inhabited

def CompensationStatus.text : CompensationStatus → String
  | .pending => "pending"
  | .running => "running"
  | .succeeded => "succeeded"
  | .failed => "failed"
  | .cancelled => "cancelled"

structure Compensation extends RuntimeModel where
  actionRef : String
  compensationCapability : String
  status : CompensationStatus := .pending
  startedAt : Option Time := none
  endedAt : Option Time := none
  resultRef : Option String := none
deriving Repr, Inhabited

def Compensation.dump (c : Compensation) : Fields :=
  c.base ++
    [("action_ref", .str c.actionRef), ("compensation_capability", .str c.compensationCapability),
     ("status", .str c.status.text), ("started_at", dumpTime c.startedAt),
     ("ended_at", dumpTime c.endedAt), ("result_ref", .ofOption c.resultRef)] ++
    c.extra

end PortableRuntime
