import PortableRuntime.Protocol.Rules

/-!
# Revisions and the supersedes edges they justify

An effective Revision names one grant and the use of it, and a supersedes edge names
the applied Revision whose endpoints it joins.  Both are judged at the instant of the
use; the present instant `now` only adds to the complaints about a missing use.
-/

namespace PortableRuntime

def effectiveStatuses : List LifecycleStatus := [.authorized, .applied, .verified, .accepted]

def appliedStatuses : List LifecycleStatus := [.applied, .verified, .accepted]

/-- The authorization references a Revision's metadata gives. -/
def revisionAuthRefs (metadata : Fields) : List Json :=
  match ((metadata.get "authorization_ref").pyOr (metadata.get "authorization_refs")).pyOr
      (metadata.get "authorization_grant_id") with
  | .arr items => items
  | .str ref => [.str ref]
  | _ => []

/-- `ref in mapping` for a mapping from texts: a list or an object has no hash. -/
def hashText (j : Json) : Result (Option String) :=
  match j with
  | .arr _ => .error (.typeError "unhashable type: 'list'")
  | .obj _ => .error (.typeError "unhashable type: 'dict'")
  | .str s => .ok (some s)
  | _ => .ok none

/-- The use that the metadata names. -/
def namedUse (s : State) (metadata : Fields) : Option AuthorizationUse :=
  match metadata.get "authorization_use_ref" with
  | .str ref => State.find (k := .authorizationUse) s.uses ref
  | _ => none

def revisionGrantErrors (now : Time) (s : State) (record : BaseRecord)
    (grant : AuthorizationGrant) : List String :=
  let metadata := record.metadata
  let expected := record.expectedRefs
  let actorRef := metadata.get "actor_ref"
  let resource := record.fields.getOr "subject_ref" (.str "")
  errorIf (!grant.subjectVersionRefs.any expected.contains)
    s!"revision {record.id} authorization does not bind this revision version" ++
  errorIf (!actorRef.isNonBlankStr)
    s!"revision {record.id} authorization missing actual actor_ref" ++
  errorIf (!resource.isNonBlankStr)
    s!"revision {record.id} authorization missing resource_ref" ++
  errorIf (!(metadata.get "resource_ref").pyEq resource)
    s!"revision {record.id} resource_ref must match canonical subject_ref" ++
  errorIf (!(metadata.get "effect_class").eqStr "write-local")
    s!"revision {record.id} effect_class is fixed to write-local" ++
  (match namedUse s metadata with
    | none => s!"revision {record.id} requires authorization-use evidence" ::
        (validateGrant grant now).map (fun error => s!"revision {record.id}: {error}")
    | some use =>
      errorIf (use.authorizationRef != grant.id || use.capability != "revision.apply" ||
          !actorRef.eqStr use.actorRef || !resource.eqStr use.resourceRef ||
          use.effectClass != .writeLocal || !use.subjectVersionRefs.any expected.contains)
        s!"revision {record.id} authorization-use binding is invalid" ++
      (validateGrant grant use.authorizedAt).map (fun error => s!"revision {record.id}: {error}") ++
      (match actorRef, resource with
        | .str actor, .str subject =>
          errorIf (!isAuthorizedFor
              { capability := "revision.apply", actorRef := actor, resourceRef := some subject,
                subjectVersionRefs := Text.sortedUnique expected, effectClass := .writeLocal }
              grant use.authorizedAt)
            s!"revision {record.id} authorization does not authorize actor/resource/effect"
        | _, _ => []))

/-- The single grant an effective Revision names. -/
def revisionGrant (s : State) (record : BaseRecord) : Result (Option AuthorizationGrant) :=
  match revisionAuthRefs record.metadata with
  | [ref] => do
    match ← hashText ref with
    | some id => return (State.byId (k := .authorization) s.authorizations).get? id
    | none => return none
  | _ => .ok none

def revisionAuthorizationErrors (now : Time) (s : State) (record : BaseRecord) :
    Result (List String) := do
  if !effectiveStatuses.contains record.lifecycleStatus then return []
  match ← revisionGrant s record with
  | none =>
    return [s!"revision {record.id} {record.lifecycleStatus.text} requires a valid authorization_ref"]
  | some grant => return revisionGrantErrors now s record grant

/-- `parsed_records.get(ref)`. -/
def State.recordAt (s : State) (ref : Json) : Result (Option BaseRecord) := do
  match ← hashText ref with
  | some id => return s.parsedRecords.get? id
  | none => return none

def revisionEndpointErrors (s : State) (record : BaseRecord) : Result (List String) := do
  let oldRef := record.getattr "revises_ref"
  let newRef := record.getattr "produces_ref"
  if !oldRef.truthy || !newRef.truthy || proposalStatuses.contains record.lifecycleStatus then
    return []
  let oldRecord ← s.recordAt oldRef
  let newRecord ← s.recordAt newRef
  return errorIf oldRecord.isNone
      s!"revision {record.id} revises_ref {oldRef.pyRepr} is not a local record" ++
    errorIf newRecord.isNone
      s!"revision {record.id} produces_ref {newRef.pyRepr} is not a local record" ++
    (match oldRecord, newRecord with
      | some old, some new => errorIf (old.recordType != new.recordType)
          s!"revision {record.id} old/new record types are incompatible"
      | _, _ => [])

def revisionErrors (now : Time) (s : State) (record : BaseRecord) : Result (List String) := do
  if record.recordType ≠ .revision then return []
  return (← revisionAuthorizationErrors now s record) ++ (← revisionEndpointErrors s record)

/-! ## Supersedes edges -/

/-- Reopening a work is a control action whose assessment is the handoff proof. -/
def reopenHandoff (relation : RecordRelation) : Bool :=
  (match relation.metadata.get "reopen_assessment_id" with
    | .str ref => Text.startsWith ref "reopen_"
    | _ => false) &&
    Text.startsWith relation.subjectRef "work_" && Text.startsWith relation.objectRef "work_"

def supersedesProofErrors (s : State) (relation : RecordRelation) (revision : BaseRecord)
    (grant : AuthorizationGrant) (authRef : Json) : List String :=
  let invalid := s!"supersedes relation {relation.id} revision authorization proof is invalid"
  match namedUse s revision.metadata with
  | none => [invalid ++ ": authorization-use evidence missing"]
  | some use =>
    if !authRef.eqStr use.authorizationRef || use.capability != "revision.apply" then
      [invalid ++ ": authorization-use binding invalid"]
    else
      let request : CanonicalAuthorizationRequest :=
        { capability := "revision.apply",
          actorRef := (revision.metadata.get "actor_ref").asStr?.getD "",
          resourceRef := some ((revision.fields.getOr "subject_ref" (.str "")).asStr?.getD ""),
          subjectVersionRefs := revision.expectedRefs, effectClass := .writeLocal }
      errorIf (!(validateGrant grant use.authorizedAt).isEmpty ||
        !isAuthorizedFor request grant use.authorizedAt) invalid

def supersedesErrors (s : State) (relation : RecordRelation) : List String :=
  match (relation.metadata.get "revision_ref") with
  | .str revisionRef =>
    if !Text.nonBlank revisionRef then
      errorIf (!reopenHandoff relation) s!"supersedes relation {relation.id} requires revision_ref"
    else match s.parsedRecords.get? revisionRef with
      | none => [s!"supersedes relation {relation.id} revision_ref {Text.pyRepr revisionRef} must target Revision"]
      | some revision =>
        if revision.recordType ≠ .revision then
          [s!"supersedes relation {relation.id} revision_ref {Text.pyRepr revisionRef} must target Revision"]
        else
          errorIf (!appliedStatuses.contains revision.lifecycleStatus)
            s!"supersedes relation {relation.id} requires an applied authorized Revision" ++
          errorIf (!(revision.getattr "produces_ref").eqStr relation.subjectRef ||
              !(revision.getattr "revises_ref").eqStr relation.objectRef)
            s!"supersedes relation {relation.id} endpoints do not match revision {revision.id}" ++
          (let authRef := revision.metadata.get "authorization_ref"
           match authRef.asStr?.bind (State.find (k := .authorization) s.authorizations) with
            | none =>
              [s!"supersedes relation {relation.id} revision authorization proof not found"]
            | some grant => supersedesProofErrors s relation revision grant authRef)
  | _ => errorIf (!reopenHandoff relation) s!"supersedes relation {relation.id} requires revision_ref"

end PortableRuntime
