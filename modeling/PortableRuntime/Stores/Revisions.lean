import PortableRuntime.Stores.Keyed

/-!
# Applying Revisions and superseding records

`apply_revision` makes up to three saves with no transaction around them, so a call that
raises may leave another store than the one it met.  `supersede` saves inside one.
-/

namespace PortableRuntime

/-- A `RevisionRecord` that a caller holds; it need not be stored. -/
structure RevisionRecord extends BaseRecord where
  isRevision : cls = .revisionRecord := by rfl

/-- A record with another lifecycle status, or the refusal of the status for its type. -/
def BaseRecord.withLifecycle (r : BaseRecord) (status : LifecycleStatus) : Result BaseRecord :=
  if h : validateOrthogonal r.recordType r.epistemicStatus status = true then
    .ok { r with lifecycleStatus := status, orthogonal := h }
  else raiseValue (s!"lifecycle_status {Text.pyRepr status.text} not allowed for " ++
    r.recordType.text)

theorem BaseRecord.withLifecycle_eq_ok {r r' : BaseRecord} {status : LifecycleStatus} :
    r.withLifecycle status = .ok r' ↔
      ∃ h : validateOrthogonal r.recordType r.epistemicStatus status = true,
        { r with lifecycleStatus := status, orthogonal := h } = r' := by
  unfold withLifecycle
  split
  · rename_i h
    exact ⟨fun hr => ⟨h, Except.ok.inj hr⟩, fun ⟨_, hr⟩ => congrArg Except.ok hr⟩
  · rename_i h
    exact ⟨fun hr => absurd hr (by simp [raiseValue]), fun ⟨h', _⟩ => absurd h' h⟩

/-- `create_authorization_use`. -/
def createAuthorizationUse (useId : String) (authorizedAt : Time) (grant : AuthorizationGrant)
    (request : CanonicalAuthorizationRequest) : Result AuthorizationUse := do
  guardValue (isAuthorizedFor request grant authorizedAt)
    "authorization use request is not authorized at action time"
  let resource := request.resourceRef.getD ""
  if h : (Text.nonBlank grant.id && Text.nonBlank request.capability &&
      Text.nonBlank request.actorRef && Text.nonBlank resource &&
      !request.subjectVersionRefs.isEmpty) = true then
    return { id := useId, createdAt := authorizedAt, authorizationRef := grant.id,
             capability := request.capability, actorRef := request.actorRef,
             resourceRef := resource, effectClass := request.effectClass,
             subjectVersionRefs := request.subjectVersionRefs, authorizedAt := authorizedAt,
             shape := h }
  else raiseValue "authorization use fields must be non-empty"

/-- The version, the subject and the links of two Revisions agree. -/
def sameProposal (stored revision : BaseRecord) : Bool :=
  stored.version = revision.version &&
    ("subject_ref" :: revisionLinks).all
      (fun field => (stored.getattr field).pyEq (revision.getattr field))

namespace MemoryStore

/-! ## apply_revision -/

structure ApplyRevision where
  revision : RevisionRecord
  authorizationRef : Option String := none
  actorRef : Option String := none
  resourceRef : Option String := none
  effectClass : String := "write-local"
  legacyProfile : Option String := none
  /-- The identity that the new use receives. -/
  useId : String

/-- `store.get_record(ref) if ref else None`. -/
def endpointAt (st : MemoryStore) : Json → Option BaseRecord
  | .str ref => if ref = "" then none else st.getRecord ref
  | _ => none

/-- The stored endpoints of a proposal are of one type. -/
def endpointsAgree (st : MemoryStore) (revision : BaseRecord) : Bool :=
  match st.endpointAt (revision.getattr "revises_ref"),
    st.endpointAt (revision.getattr "produces_ref") with
  | some old, some new => old.recordType = new.recordType
  | _, _ => false

/-- A proposal that is not stored yet is saved before anything is decided about it. -/
def materialize (now : Time) (st : MemoryStore) (revision : BaseRecord) : Result MemoryStore :=
  if st.getRecord revision.id = none ∧ revision.lifecycleStatus = .proposed then do
    guardValue (st.endpointsAgree revision) "apply_revision requires canonical revision endpoints"
    st.saveRecord now revision
  else .ok st

def canonicalRevision (st : MemoryStore) (revision : BaseRecord) : Result BaseRecord := do
  let stored ← orRaise (st.getRecord revision.id)
    "apply_revision requires the canonical persisted Revision"
  guardValue (stored.cls = .revisionRecord)
    "apply_revision requires the canonical persisted Revision"
  guardValue (sameProposal stored revision)
    "apply_revision revision endpoints/version do not match canonical state"
  return stored

/-- The actor of the call, and whether the legacy profile supplied it. -/
def actualActor (a : ApplyRevision) (grant : AuthorizationGrant) : Result (String × Bool) :=
  match a.actorRef.filter Text.nonBlank with
  | some actor => .ok (actor, false)
  | none => do
    guardValue (a.legacyProfile = some "grant-grantee-compat")
      "apply_revision requires explicit actual actor_ref"
    return (grant.granteeRef, true)

def applyRequest (stored : BaseRecord) (actor subject : String) : CanonicalAuthorizationRequest where
  capability := "revision.apply"
  actorRef := actor
  resourceRef := some subject
  subjectVersionRefs := stored.expectedRefs
  effectClass := .writeLocal

/-- The metadata of the applied Revision. -/
def applyMetadata (stored : BaseRecord) (grantId actor subject : String) (legacy : Bool)
    (useId : String) : Fields :=
  let metadata := ((((stored.metadata.put "authorization_ref" (.str grantId)).put
    "actor_ref" (.str actor)).put "resource_ref" (.str subject)).put
    "effect_class" (.str "write-local")).put "authorization_use_ref" (.str useId)
  if legacy then metadata.put "legacy_actor_identity" (.str "grant-grantee-compat") else metadata

/-- The use of the grant for the stored proposal, and the metadata that cites it. -/
def authorizeApply (now : Time) (st : MemoryStore) (stored : BaseRecord) (a : ApplyRevision) :
    Result (AuthorizationUse × Fields) := do
  guardValue (proposedOrAuthorized.contains stored.lifecycleStatus)
    s!"cannot apply revision from status {Text.pyRepr stored.lifecycleStatus.text}"
  let grantId := a.authorizationRef.getD ""
  let grant : AuthorizationGrant ← orRaise
    (if grantId = "" then none else st.get .authorization grantId)
    "apply_revision requires an existing AuthorizationGrant"
  let (actor, legacy) ← actualActor a grant
  let subject ← orRaise ((stored.getattr "subject_ref").asStr?.filter Text.nonBlank)
    "apply_revision requires a canonical revision subject_ref"
  guardValue (a.resourceRef.all (· == subject))
    "apply_revision resource_ref must match canonical revision subject_ref"
  guardValue (a.effectClass == "write-local")
    "apply_revision effect_class is fixed to write-local"
  let request := applyRequest stored actor subject
  guardValue ((validateGrant grant now).isEmpty && isAuthorizedFor request grant now &&
      stored.expectedRefs.any grant.subjectVersionRefs.contains)
    ("revision authorization rejected: " ++
      if (validateGrant grant now).isEmpty then "grant does not bind this revision version"
      else Text.join "; " (validateGrant grant now))
  let use ← createAuthorizationUse a.useId now grant request
  return (use, applyMetadata stored grantId actor subject legacy a.useId)

/-- The applied version of a stored proposal. -/
def appliedRevision (stored : BaseRecord) (metadata : Fields) : Result BaseRecord :=
  BaseRecord.withLifecycle { stored with version := stored.version + 1, metadata := metadata }
    .applied

/-- The last save, over the stored proposal. -/
def saveApplied (now : Time) (st : MemoryStore) (stored : BaseRecord) (metadata : Fields) :
    Result (MemoryStore × BaseRecord) := do
  let applied ← appliedRevision stored metadata
  return (← st.saveRecord now applied, applied)

/-- The two saves that follow the checks. -/
def finishApply (now : Time) (st : MemoryStore) (stored : BaseRecord) (use : AuthorizationUse)
    (metadata : Fields) : MemoryStore × Result BaseRecord :=
  match st.saveAuthorizationUse now use with
  | .error e => (st, .error e)
  | .ok st₂ =>
    match st₂.saveApplied now stored metadata with
    | .error e => (st₂, .error e)
    | .ok (st₃, applied) => (st₃, .ok applied)

/-- Advance a revision toward `applied` with an explicit grant proof.  The store is the one
that the call leaves, also when it raises. -/
def applyRevision (now : Time) (st : MemoryStore) (a : ApplyRevision) :
    MemoryStore × Result BaseRecord :=
  match st.materialize now a.revision.toBaseRecord with
  | .error e => (st, .error e)
  | .ok st₁ =>
    match st₁.canonicalRevision a.revision.toBaseRecord with
    | .error e => (st₁, .error e)
    | .ok stored =>
      if stored.lifecycleStatus = .applied then (st₁, .ok stored)
      else
        match st₁.authorizeApply now stored a with
        | .error e => (st₁, .error e)
        | .ok (use, metadata) => st₁.finishApply now stored use metadata

/-- The stores that a call can leave. -/
theorem applyRevision_store (now : Time) (st : MemoryStore) (a : ApplyRevision) :
    (st.applyRevision now a).1 = st ∨ ∃ st₁, st.materialize now a.revision.toBaseRecord = .ok st₁ ∧
      ((st.applyRevision now a).1 = st₁ ∨ ∃ stored use metadata st₂,
        st₁.canonicalRevision a.revision.toBaseRecord = .ok stored ∧
        st₁.saveAuthorizationUse now use = .ok st₂ ∧
        ((st.applyRevision now a).1 = st₂ ∨ ∃ st₃ applied,
          st₂.saveApplied now stored metadata = .ok (st₃, applied) ∧
          (st.applyRevision now a).1 = st₃)) := by
  unfold applyRevision
  split
  · exact .inl rfl
  · rename_i st₁ hmaterialize
    refine .inr ⟨st₁, hmaterialize, ?_⟩
    split
    · exact .inl rfl
    · rename_i stored hstored
      split
      · exact .inl rfl
      · split
        · exact .inl rfl
        · rename_i use metadata _
          unfold finishApply
          split
          · exact .inl rfl
          · rename_i st₂ huse
            refine .inr ⟨stored, use, metadata, st₂, hstored, huse, ?_⟩
            split
            · exact .inl rfl
            · rename_i st₃ applied happlied
              exact .inr ⟨st₃, applied, happlied, rfl⟩

theorem materialize_eq_ok {now : Time} {st st' : MemoryStore} {revision : BaseRecord}
    (h : st.materialize now revision = .ok st') :
    st' = st ∨ (st.getRecord revision.id = none ∧ revision.lifecycleStatus = .proposed ∧
      st.saveRecord now revision = .ok st') := by
  unfold materialize at h
  split at h
  · rename_i hnew
    rw [Result.check_eq_ok] at h
    exact .inr ⟨hnew.1, hnew.2, h.2⟩
  · exact .inl (Except.ok.inj h).symm

theorem canonicalRevision_eq_ok {st : MemoryStore} {revision stored : BaseRecord} :
    st.canonicalRevision revision = .ok stored ↔ st.getRecord revision.id = some stored ∧
      stored.cls = .revisionRecord ∧ sameProposal stored revision = true := by
  simp only [canonicalRevision, Result.bind_eq_ok, orRaise_eq_ok, guardValue_eq_ok,
    Result.pure_eq_ok, decide_eq_true_eq]
  constructor
  · rintro ⟨found, hget, -, hcls, -, hsame, rfl⟩
    exact ⟨hget, hcls, hsame⟩
  · rintro ⟨hget, hcls, hsame⟩
    exact ⟨stored, hget, (), hcls, (), hsame, rfl⟩

theorem saveApplied_eq_ok {now : Time} {st st' : MemoryStore} {stored applied : BaseRecord}
    {metadata : Fields} : st.saveApplied now stored metadata = .ok (st', applied) ↔
      appliedRevision stored metadata = .ok applied ∧ st.saveRecord now applied = .ok st' := by
  simp only [saveApplied, Result.bind_eq_ok, Result.pure_eq_ok, Prod.mk.injEq]
  constructor
  · rintro ⟨record, hrecord, st₁, hsave, rfl, rfl⟩
    exact ⟨hrecord, hsave⟩
  · rintro ⟨hrecord, hsave⟩
    exact ⟨applied, hrecord, st', hsave, rfl, rfl⟩

/-- The applied version keeps everything but the status, the version and the metadata. -/
theorem appliedRevision_eq_ok {stored applied : BaseRecord} {metadata : Fields}
    (h : appliedRevision stored metadata = .ok applied) :
    applied.id = stored.id ∧ applied.recordType = stored.recordType ∧
      applied.lifecycleStatus = .applied ∧ applied.version = stored.version + 1 ∧
      applied.metadata = metadata ∧ applied.fields = stored.fields := by
  obtain ⟨_, rfl⟩ := BaseRecord.withLifecycle_eq_ok.mp h
  exact ⟨rfl, rfl, rfl, rfl, rfl, rfl⟩

/-! ## supersede -/

/-- The `revision` argument of `supersede`. -/
inductive RevisionArgument where
  | record (revision : RevisionRecord)
  | ref (id : String)

def RevisionArgument.id : RevisionArgument → String
  | .record revision => revision.id
  | .ref id => id

/-- The stored Revision that the argument names, or else the argument itself. -/
def supersedeRevision (st : MemoryStore) (argument : RevisionArgument) : Result BaseRecord :=
  match (st.getRecord argument.id).filter (fun r => r.cls = .revisionRecord), argument with
  | some canonical, .record revision => do
    guardValue (sameProposal canonical revision.toBaseRecord)
      "supersede revision endpoints/version do not match canonical state"
    return canonical
  | some canonical, .ref _ => .ok canonical
  | none, .record revision => .ok revision.toBaseRecord
  | none, .ref _ => raiseValue "supersede revision proof not found"

/-- The resource of a request, which a subject of another type cannot be. -/
def requestResource : Json → Result (Option String)
  | .str resource => .ok (some resource)
  | .null => .ok none
  | _ => raiseValue "resource_ref must be a string"

/-- The authorization checks of `supersede` on the Revision it goes by. -/
def checkSupersedeProof (st : MemoryStore) (revision : BaseRecord) : Result Unit := do
  guardValue (appliedStatuses.contains revision.lifecycleStatus)
    "supersede requires an applied revision"
  let authRef ← orRaise ((revision.metadata.get "authorization_ref").asStr?.filter (· ≠ ""))
    "supersede revision is missing authorization proof"
  let grant : AuthorizationGrant ← orRaise (st.get .authorization authRef)
    "supersede authorization proof not found"
  let actor ← orRaise ((revision.metadata.get "actor_ref").asStr?.filter Text.nonBlank)
    "supersede revision is missing actual actor_ref"
  let resource ← requestResource (revision.getattr "subject_ref")
  let request : CanonicalAuthorizationRequest :=
    { capability := "revision.apply", actorRef := actor, resourceRef := resource,
      subjectVersionRefs := revision.expectedRefs, effectClass := .writeLocal }
  let use : AuthorizationUse ← orRaise
    ((revision.metadata.get "authorization_use_ref").asStr?.bind (st.get .authorizationUse))
    "supersede revision is missing authorization-use evidence"
  guardValue ((validateGrant grant use.authorizedAt).isEmpty &&
      isAuthorizedFor request grant use.authorizedAt &&
      revision.expectedRefs.any grant.subjectVersionRefs.contains)
    "supersede authorization proof is invalid"

def validateLifecycle (recordType : RecordType) (fromStatus toStatus : LifecycleStatus) :
    Result Unit :=
  match validateLifecycleTransition recordType fromStatus.text toStatus.text with
  | none => .ok ()
  | some message => raiseValue message

/-- A draft passes through `current`. -/
def validateSuperseded (old : BaseRecord) : Result Unit :=
  if old.lifecycleStatus = .draft then do
    validateLifecycle old.recordType .draft .current
    validateLifecycle old.recordType .current .superseded
  else validateLifecycle old.recordType old.lifecycleStatus .superseded

/-- The superseded version of a stored record. -/
def supersededVersion (old : BaseRecord) : Result BaseRecord := do
  validateSuperseded old
  BaseRecord.withLifecycle { old with version := old.version + 1 } .superseded

theorem supersededVersion_eq_ok {old superseded : BaseRecord}
    (h : supersededVersion old = .ok superseded) :
    superseded.id = old.id ∧ superseded.recordType = old.recordType := by
  rw [supersededVersion, Result.check_eq_ok] at h
  obtain ⟨_, rfl⟩ := BaseRecord.withLifecycle_eq_ok.mp h.2
  exact ⟨rfl, rfl⟩

/-- A draft that supersedes becomes current; another record stays as it is. -/
def promoteDraft (now : Time) (st : MemoryStore) (new : BaseRecord) : Result MemoryStore := do
  if new.lifecycleStatus = .draft then
    validateLifecycle new.recordType .draft .current
    st.saveRecord now (← BaseRecord.withLifecycle { new with version := new.version + 1 } .current)
  else return st

theorem promoteDraft_eq_ok {now : Time} {st st' : MemoryStore} {new : BaseRecord}
    (h : st.promoteDraft now new = .ok st') :
    st' = st ∨ ∃ current, current.id = new.id ∧ current.recordType = new.recordType ∧
      st.saveRecord now current = .ok st' := by
  unfold promoteDraft at h
  split at h
  · rw [Result.check_eq_ok, Result.bind_eq_ok] at h
    obtain ⟨-, current, hcurrent, hsave⟩ := h
    obtain ⟨_, hcopy⟩ := BaseRecord.withLifecycle_eq_ok.mp hcurrent
    exact .inr ⟨current, by rw [← hcopy], by rw [← hcopy], hsave⟩
  · exact .inl (Result.pure_eq_ok.mp h).symm

def supersedesRelation (now : Time) (oldId newId : String) (revision : Option RevisionArgument)
    (relationId createdBy : String) : RecordRelation where
  id := relationId
  relationType := .supersedes
  subjectRef := newId
  objectRef := oldId
  createdAt := now
  createdBy := createdBy
  metadata := match (revision.map RevisionArgument.id).filter (· ≠ "") with
    | some revisionId => [("revision_ref", .str revisionId)]
    | none => []

def checkSupersedeEnds (oldId newId : String) : Result Unit := do
  guardValue (oldId ≠ "" && newId ≠ "") "supersede requires non-empty old_ref and new_ref"
  guardValue (oldId ≠ newId) "old_ref and new_ref must differ"

/-- Mark new supersedes old; the old record is retained. -/
def supersedeRecord (now : Time) (st : MemoryStore) (oldId newId : String)
    (revision : Option RevisionArgument) (relationId createdBy : String) :
    Result (MemoryStore × RecordRelation) := do
  checkSupersedeEnds oldId newId
  let argument ← orRaise revision "supersede requires an applied revision authorization"
  let record ← st.supersedeRevision argument
  st.checkSupersedeProof record
  guardValue ((record.getattr "revises_ref").eqStr oldId &&
      (record.getattr "produces_ref").eqStr newId && (record.getattr "supersedes_ref").eqStr oldId)
    "supersede endpoints do not match the applied revision"
  let old ← orRaise (st.getRecord oldId) "supersede requires both revision endpoints to exist"
  let new ← orRaise (st.getRecord newId) "supersede requires both revision endpoints to exist"
  let st₁ ← st.saveRecord now (← supersededVersion old)
  let st₂ ← st₁.promoteDraft now new
  let relation := supersedesRelation now oldId newId revision relationId createdBy
  return (← st₂.saveRelation now relation, relation)

/-- What an accepted `supersede` saved. -/
theorem supersedeRecord_eq_ok {now : Time} {st st' : MemoryStore} {oldId newId : String}
    {revision : Option RevisionArgument} {relationId createdBy : String} {relation : RecordRelation}
    (h : st.supersedeRecord now oldId newId revision relationId createdBy = .ok (st', relation)) :
    ∃ old new superseded st₁ st₂, st.getRecord oldId = some old ∧ st.getRecord newId = some new ∧
      supersededVersion old = .ok superseded ∧ st.saveRecord now superseded = .ok st₁ ∧
      st₁.promoteDraft now new = .ok st₂ ∧
      relation = supersedesRelation now oldId newId revision relationId createdBy ∧
      st₂.saveRelation now relation = .ok st' := by
  simp only [supersedeRecord, Result.bind_eq_ok, Result.pure_eq_ok, orRaise_eq_ok, Prod.mk.injEq] at h
  obtain ⟨-, -, -, -, -, -, -, -, -, -, old, hold, new, hnew, superseded, hversion, st₁, hsave, st₂,
    hpromote, st₃, hrelation, rfl, rfl⟩ := h
  exact ⟨old, new, superseded, st₁, st₂, hold, hnew, hversion, hsave, hpromote, rfl, hrelation⟩

/-- The relation alone, without a store. -/
def createSupersedesRelation (now : Time) (newId oldId : String) (revisionRef : Option String)
    (relationId createdBy : String) : Result RecordRelation := do
  checkSupersedeEnds oldId newId
  return supersedesRelation now oldId newId (revisionRef.map .ref) relationId createdBy

end MemoryStore
end PortableRuntime
