import PortableRuntime.Protocol.Validation

/-!
# Authority of semantic mutations

A changed record must name an applied Revision or a durable use that consumed the
exact predecessor version.  An import is held to the same rules as a normal write.
-/

namespace PortableRuntime

/-! ## Revision proposals -/

def revisionApplyMetadataKeys : List String :=
  ["authorization_ref", "actor_ref", "resource_ref", "effect_class", "authorization_use_ref",
   "legacy_actor_identity"]

/-- The persisted proposal content of a Revision. -/
def revisionProposalPayload (record : BaseRecord) : Fields :=
  record.dump.without ["lifecycle_status", "version", "metadata"]

def proposedOrAuthorized : List LifecycleStatus := [.proposed, .authorized]

/-- The use and the grant authorize the application of the stored proposal. -/
def revisionApplyAuthorized (existing : BaseRecord) (grant : AuthorizationGrant)
    (use : AuthorizationUse) (actor subject : String) : Bool :=
  use.authorizationRef == grant.id && use.capability == "revision.apply" &&
    use.actorRef == actor && use.resourceRef == subject && use.effectClass == .writeLocal &&
    existing.expectedRefs.all use.subjectVersionRefs.contains &&
    (validateGrant grant use.authorizedAt).isEmpty &&
    isAuthorizedFor
      { capability := "revision.apply", actorRef := actor, resourceRef := some subject,
        subjectVersionRefs := existing.expectedRefs, effectClass := .writeLocal }
      grant use.authorizedAt

/-- Validate the sole allowed semantic Revision transition: authorized apply. -/
def revisionAuthorityMetadataIsValid (record existing : BaseRecord) (s : State) : Bool :=
  let next := record.metadata
  let changedKeys := existing.metadata.changedKeys next
  proposedOrAuthorized.contains existing.lifecycleStatus && record.lifecycleStatus = .applied &&
    record.version = existing.version + 1 && !changedKeys.isEmpty &&
    changedKeys.all revisionApplyMetadataKeys.contains &&
    match next.get "authorization_ref", next.get "authorization_use_ref", next.get "actor_ref",
      next.get "resource_ref", existing.getattr "subject_ref" with
    | .str authRef, .str useRef, .str actor, .str resource, .str subject =>
      [authRef, useRef, actor, resource, subject].all Text.nonBlank &&
        (next.get "effect_class").eqStr "write-local" && resource == subject &&
        match (State.byId (k := .authorization) s.authorizations).get? authRef,
          (State.byId (k := .authorizationUse) s.uses).get? useRef with
        | some grant, some use => revisionApplyAuthorized existing grant use actor subject
        | _, _ => false
    | _, _, _, _, _ => false

/-- Keep a persisted Revision proposal immutable except for real apply. -/
def assertRevisionMutationIntegrity (record existing : BaseRecord) (s : State) : Result Unit := do
  guardValue ((revisionProposalPayload record).pyEq (revisionProposalPayload existing))
    s!"persisted Revision proposal {Text.pyRepr record.id} is immutable"
  let changedKeys := existing.metadata.changedKeys record.metadata
  let valid := revisionAuthorityMetadataIsValid record existing s
  guardValue (valid || !(proposedOrAuthorized.contains existing.lifecycleStatus &&
      record.lifecycleStatus = .applied))
    "Revision authority metadata may change only during authorized apply"
  guardValue (changedKeys.isEmpty || valid)
    "Revision authority metadata may change only during authorized apply"

/-! ## Qualification transitions -/

def qualificationTransitionEventType : String := "qualification.status.changed"

def qualificationTransitionSchema : String := "qualification-transition-v1"

def qualificationTransitionSnapshot (record : BaseRecord) : Json :=
  .obj [("id", .str record.id), ("record_type", .str record.recordType.text),
    ("lifecycle_status", .str record.lifecycleStatus.text),
    ("epistemic_status", .ofOption (record.epistemicStatus.map EpistemicStatus.text)),
    ("version", .int record.version)]

/-- An audit event of exactly this transition. -/
def qualificationEventMatches (record existing : BaseRecord) (event : Event) : Bool :=
  event.type == qualificationTransitionEventType && event.subjectRef == record.id &&
    (event.payload.get "schema_version").eqStr qualificationTransitionSchema &&
    (event.payload.get "before").pyEq (qualificationTransitionSnapshot existing) &&
    (event.payload.get "after").pyEq (qualificationTransitionSnapshot record) &&
    match event.payload.get "reason_refs" with
    | .arr refs => !refs.isEmpty && refs.all Json.isNonBlankStr
    | _ => false

/-- Require an exact append-only audit event for Assertion status changes. -/
def assertQualificationTransitionJournaled (record existing : BaseRecord) (s : State) :
    Result Unit := do
  if record.recordType ≠ .assertion ∨ existing.recordType ≠ .assertion then return ()
  if record.epistemicStatus = existing.epistemicStatus then return ()
  let ignored := ["metadata", "created_at", "epistemic_status", "version"]
  guardValue (record.version = existing.version + 1)
    s!"qualification transition for {Text.pyRepr record.id} must advance version by exactly one"
  guardValue ((existing.dump.without ignored).pyEq (record.dump.without ignored))
    s!"qualification transition for {Text.pyRepr record.id} cannot bundle other semantic changes"
  guardValue ((existing.metadata.changedKeys record.metadata).all
      ["authorization_use_ref", "revision_ref"].contains)
    s!"qualification transition for {Text.pyRepr record.id} may only change authority metadata"
  guardValue ((s.events.filter (qualificationEventMatches record existing)).length = 1)
    (s!"qualification transition for {Text.pyRepr record.id} requires exactly one matching " ++
      "append-only audit event")

/-! ## Semantic mutations -/

/-- The fields whose values differ, other than the timestamp, status and version. -/
def mutableKeys (record existing : BaseRecord) : List String :=
  existing.content.changedKeys record.content

/-- An applied Revision, named by the metadata, that has the record as an endpoint. -/
def revisionAuthority (record : BaseRecord) (s : State) : Result Bool :=
  match record.metadata.get "revision_ref" with
  | .str ref => match s.parsedRecords.get? ref with
    | some revision =>
      if revision.recordType = .revision ∧ appliedStatuses.contains revision.lifecycleStatus then do
        let links ← revisionLinks.mapM (fun field => hashText (revision.getattr field))
        return links.contains (some record.id)
      else .ok false
    | none => .ok false
  | _ => .ok false

/-- The request that a semantic update of a stored record makes. -/
def recordWriteRequest (record existing : BaseRecord) (use : AuthorizationUse) :
    CanonicalAuthorizationRequest where
  capability := "record.write"
  actorRef := use.actorRef
  resourceRef := some record.id
  subjectVersionRefs := [BaseRecord.versionRef existing.id existing.version]
  effectClass := .writeLocal

/-- The use the metadata names, with its grant, covers the update. -/
def useAuthority (record existing : BaseRecord) (s : State) : Bool :=
  match record.metadata.get "authorization_use_ref" with
  | .str ref => match (State.byId (k := .authorizationUse) s.uses).get? ref with
    | some use => match (State.byId (k := .authorization) s.authorizations).get? use.authorizationRef with
      | some grant =>
        authorizationUseCoversRequest use grant (recordWriteRequest record existing use)
      | none => false
    | none => false
  | _ => false

/-- Require an existing canonical fact update to carry authority provenance. -/
def assertSemanticMutationAuthorized (record : BaseRecord) (existing : Option BaseRecord)
    (s : State) : Result Unit := do
  match existing with
  | none => return ()
  | some old =>
    if !semanticPayloadChanged record old then return ()
    assertQualificationTransitionJournaled record old s
    if record.recordType = .revision then assertRevisionMutationIntegrity record old s
    else if (mutableKeys record old).isEmpty then return ()
    else if ← revisionAuthority record s then return ()
    else
      guardValue (useAuthority record old s)
        (s!"semantic record mutation for {Text.pyRepr record.id} requires an applied Revision " ++
          "or durable AuthorizationUse authority proof")

/-! ## Imports -/

def sameDump (a b : Fields) : Bool := a.pyEq b

/-- Reject two incoming objects of one identity that differ. -/
def rejectDuplicateIds (k : Kind) : List (String × Fields) → List (Model k) → Result Unit
  | _, [] => .ok ()
  | seen, value :: rest => do
    let id := k.identifier value
    guardValue ((seen.find? (fun e => e.1 = id)).all (fun e => sameDump e.2 (k.dump value)))
      s!"import contains conflicting {k.text} id {Text.pyRepr id}"
    rejectDuplicateIds k ((id, k.dump value) :: seen) rest

def relationUnchanged (value existing : RecordRelation) : Bool :=
  (existing.dump.pop "created_at").pyEq (value.dump.pop "created_at")

def checkIncomingRecord (current candidate : State) (value : BaseRecord) : Result Unit :=
  match current.parsedRecords.get? value.id with
  | none => .ok ()
  | some existing => do
    let errors := validateRecordWrite value (some existing)
    guardValue errors.isEmpty (Text.join "; " errors)
    assertSemanticMutationAuthorized value (some existing) candidate

def checkIncomingRelation (current : State) (value : RecordRelation) : Result Unit :=
  match (State.byId (k := .relation) current.relations).get? value.id with
  | none => .ok ()
  | some existing => guardValue (relationUnchanged value existing)
      (s!"relation {Text.pyRepr value.id} is append-only; semantic edge changes require a " ++
        "Revision authority")

def checkIncomingUse (current : State) (value : AuthorizationUse) : Result Unit :=
  match (State.byId (k := .authorizationUse) current.uses).get? value.id with
  | none => .ok ()
  | some existing => guardValue (sameDump existing.dump value.dump)
      s!"authorization use {Text.pyRepr value.id} is immutable"

/-- Run a check over a list, stopping at the first that raises. -/
def checkEach {α : Type} (check : α → Result Unit) : List α → Result Unit
  | [] => .ok ()
  | a :: rest => do
    check a
    checkEach check rest

/-- Validate import collisions using the same future-write invariants. -/
def assertValidStateTransition (current candidate incoming : State) : Result Unit := do
  rejectDuplicateIds .record [] incoming.records
  rejectDuplicateIds .relation [] incoming.relations
  rejectDuplicateIds .authorizationUse [] incoming.uses
  checkEach (checkIncomingRecord current candidate) incoming.records
  checkEach (checkIncomingRelation current) incoming.relations
  checkEach (checkIncomingUse current) incoming.uses

theorem checkEach_eq_ok {α : Type} {check : α → Result Unit} {l : List α} :
    checkEach check l = .ok () ↔ ∀ a ∈ l, check a = .ok () := by
  induction l with
  | nil => simp [checkEach]
  | cons a rest ih =>
    cases h : check a with
    | error e => simp [checkEach, h, bind, Except.bind]
    | ok u => simp [checkEach, h, bind, Except.bind, ih]

end PortableRuntime
