import PortableRuntime.Protocol.Replacing
import PortableRuntime.Python.Equality
import PortableRuntime.Stores.Revisions

/-!
# When applying a Revision is atomic

The call saves the proposal, the use of the grant and the applied Revision one after the
other.  It leaves nothing behind on a raise, and completes once its own checks pass, exactly
when a proposal that it saves passes them, and a proposal that passes them can be applied:
the grant names the identity or the version that the Revision gets, and the links resolve.
-/

namespace PortableRuntime
namespace MemoryStore

variable {now : Time} {st st' : MemoryStore} {a : ApplyRevision}

/-! ## What the checks of a call establish -/

/-- The use and the metadata of an application that passed the checks. -/
structure ApplyEvidence (now : Time) (st : MemoryStore) (a : ApplyRevision) (stored : BaseRecord)
    (use : AuthorizationUse) (metadata : Fields) (grant : AuthorizationGrant)
    (actor subject : String) (legacy : Bool) : Prop where
  status : stored.lifecycleStatus ∈ proposedOrAuthorized
  named : a.authorizationRef.getD "" ≠ ""
  granted : st.get .authorization (a.authorizationRef.getD "") = some grant
  resource : stored.getattr "subject_ref" = .str subject
  valid : validateGrant grant now = []
  authorized : isAuthorizedFor (applyRequest stored actor subject) grant now = true
  useId : use.id = a.useId
  useGrant : use.authorizationRef = grant.id
  useRequest : use.request = applyRequest stored actor subject
  usedAt : use.authorizedAt = now
  metadata : metadata =
    applyMetadata stored (a.authorizationRef.getD "") actor subject legacy a.useId

theorem createAuthorizationUse_eq_ok {useId : String} {grant : AuthorizationGrant}
    {request : CanonicalAuthorizationRequest} {use : AuthorizationUse}
    (h : createAuthorizationUse useId now grant request = .ok use) :
    use.id = useId ∧ use.authorizationRef = grant.id ∧ use.authorizedAt = now ∧
      use.request = { request with resourceRef := some (request.resourceRef.getD "") } := by
  rw [createAuthorizationUse, Result.check_eq_ok] at h
  obtain ⟨-, h⟩ := h
  dsimp only at h
  split at h
  · rw [Result.pure_eq_ok] at h
    rw [← h]
    exact ⟨rfl, rfl, rfl, rfl⟩
  · exact absurd h (by simp [raiseValue])

theorem authorizeApply_eq_ok {stored : BaseRecord} {use : AuthorizationUse} {metadata : Fields}
    (h : st.authorizeApply now stored a = .ok (use, metadata)) :
    ∃ grant actor subject legacy,
      ApplyEvidence now st a stored use metadata grant actor subject legacy := by
  simp only [authorizeApply, Result.bind_eq_ok, Result.pure_eq_ok, guardValue_eq_ok, orRaise_eq_ok,
    Prod.mk.injEq, Bool.and_eq_true, List.isEmpty_iff, List.contains_iff_mem] at h
  obtain ⟨-, hstatus, grant, hgrant, ⟨actor, legacy⟩, -, subject, hsubject, -, -, -, -, -,
    ⟨⟨hvalid, hauthorized⟩, -⟩, use', huse, rfl, rfl⟩ := h
  obtain ⟨hid, huseGrant, hat, hrequest⟩ := createAuthorizationUse_eq_ok huse
  have hnamed : a.authorizationRef.getD "" ≠ "" := by
    intro hempty
    rw [if_pos hempty] at hgrant
    exact absurd hgrant (by simp)
  rw [if_neg hnamed] at hgrant
  have hsubject' : stored.getattr "subject_ref" = .str subject := by
    cases hget : stored.getattr "subject_ref" with
    | str s =>
      rw [hget] at hsubject
      rw [(Option.filter_eq_some_iff.mp hsubject).1 |> Option.some.inj]
    | _ =>
      rw [hget] at hsubject
      exact absurd hsubject (by simp [Json.asStr?])
  exact ⟨grant, actor, subject, legacy, hstatus, hnamed, hgrant, hsubject', hvalid, hauthorized, hid,
    huseGrant, hrequest, hat, rfl⟩

/-- The fields that an application sets are the only ones whose values change. -/
theorem get?_applyMetadata_of_not_mem (stored : BaseRecord) (grantId actor subject : String)
    (legacy : Bool) (useId : String) {key : String} (hkey : key ∉ revisionApplyMetadataKeys) :
    (applyMetadata stored grantId actor subject legacy useId).get? key =
      stored.metadata.get? key := by
  simp only [revisionApplyMetadataKeys, List.mem_cons, List.not_mem_nil, or_false, not_or] at hkey
  obtain ⟨h1, h2, h3, h4, h5, h6⟩ := hkey
  cases legacy <;>
    simp [applyMetadata, Fields.get?_put_of_ne, h1, h2, h3, h4, h5, h6]

theorem get_applyMetadata (stored : BaseRecord) (grantId actor subject : String) (legacy : Bool)
    (useId : String) :
    let metadata := applyMetadata stored grantId actor subject legacy useId
    metadata.get "authorization_ref" = .str grantId ∧ metadata.get "actor_ref" = .str actor ∧
      metadata.get "resource_ref" = .str subject ∧
      metadata.get "effect_class" = .str "write-local" ∧
      metadata.get "authorization_use_ref" = .str useId := by
  cases legacy <;>
    simp [applyMetadata, Fields.get, Fields.get?_put_of_ne, Fields.get?_put_self]

namespace ApplyEvidence

variable {stored applied : BaseRecord} {use : AuthorizationUse} {metadata : Fields}
  {grant : AuthorizationGrant} {actor subject : String} {legacy : Bool}

/-- What the use says, field by field. -/
theorem use_fields (h : ApplyEvidence now st a stored use metadata grant actor subject legacy) :
    use.capability = "revision.apply" ∧ use.actorRef = actor ∧ use.resourceRef = subject ∧
      use.effectClass = .writeLocal ∧ use.subjectVersionRefs = stored.expectedRefs := by
  have hrequest := h.useRequest
  simp only [AuthorizationUse.request, applyRequest,
    CanonicalAuthorizationRequest.mk.injEq, Option.some.injEq] at hrequest
  obtain ⟨hcapability, hactor, hresource, hsubjects, heffect⟩ := hrequest
  exact ⟨hcapability, hactor, hresource, heffect, hsubjects⟩

theorem nonBlank (h : ApplyEvidence now st a stored use metadata grant actor subject legacy) :
    Text.nonBlank grant.id = true ∧ Text.nonBlank actor = true ∧ Text.nonBlank subject = true := by
  obtain ⟨-, hactor, hresource, -, -⟩ := h.use_fields
  have hshape := use.shape
  simp only [Bool.and_eq_true] at hshape
  rw [h.useGrant, hactor, hresource] at hshape
  exact ⟨hshape.1.1.1.1, hshape.1.1.2, hshape.1.2⟩

/-- The changed fields of the metadata: only those that an application may change, and the
name of the use among them. -/
theorem changedKeys (h : ApplyEvidence now st a stored use metadata grant actor subject legacy)
    (huncited : stored.metadata.get "authorization_use_ref" ≠ .str a.useId) :
    (stored.metadata.changedKeys metadata).isEmpty = false ∧
      (stored.metadata.changedKeys metadata).all revisionApplyMetadataKeys.contains = true := by
  constructor
  · have huse : metadata.get "authorization_use_ref" = .str a.useId := by
      rw [h.metadata]
      exact (get_applyMetadata stored _ actor subject legacy a.useId).2.2.2.2
    have hpresent : "authorization_use_ref" ∈ metadata.names := by
      rw [← Fields.get?_isSome_iff]
      cases hget : metadata.get? "authorization_use_ref" with
      | none => simp [Fields.get, hget] at huse
      | some v => rfl
    have hmem : "authorization_use_ref" ∈ stored.metadata.changedKeys metadata := by
      refine List.mem_filter.mpr ⟨List.mem_append_right _ hpresent, ?_⟩
      rw [huse, Bool.not_eq_true', Bool.eq_false_iff]
      exact fun heq => huncited (Json.pyEq_str.mp heq)
    exact List.isEmpty_eq_false_iff_exists_mem.mpr ⟨_, hmem⟩
  · rw [List.all_eq_true]
    intro key hkey
    by_contra hother
    have hsame : metadata.get key = stored.metadata.get key := by
      rw [h.metadata, Fields.get, Fields.get, get?_applyMetadata_of_not_mem]
      exact fun hmem => hother (List.contains_iff_mem.mpr hmem)
    have hdiffers := (List.mem_filter.mp hkey).2
    rw [hsame, Json.pyEq_refl] at hdiffers
    exact absurd hdiffers (by decide)

end ApplyEvidence

/-! ## The applied version -/

theorem appliedRevision_isOk_iff {stored : BaseRecord} (metadata : Fields) :
    (∃ applied, appliedRevision stored metadata = .ok applied) ↔ stored.recordType = .revision := by
  have horthogonal := stored.orthogonal
  simp only [validateOrthogonal, Bool.and_eq_true] at horthogonal
  constructor
  · rintro ⟨applied, h⟩
    obtain ⟨hvalid, -⟩ := BaseRecord.withLifecycle_eq_ok.mp h
    simp only [validateOrthogonal, Bool.and_eq_true] at hvalid
    cases htype : stored.recordType <;> rw [htype] at hvalid <;>
      first | rfl | exact absurd hvalid.2 (by decide)
  · intro htype
    refine ⟨_, BaseRecord.withLifecycle_eq_ok.mpr ⟨?_, rfl⟩⟩
    simp only [validateOrthogonal, htype, Bool.and_eq_true] at horthogonal ⊢
    exact ⟨horthogonal.1, by decide⟩

theorem proposalPayload_applied {stored applied : BaseRecord} {metadata : Fields}
    (h : appliedRevision stored metadata = .ok applied) :
    revisionProposalPayload applied = revisionProposalPayload stored := by
  obtain ⟨_, rfl⟩ := BaseRecord.withLifecycle_eq_ok.mp h
  simp [revisionProposalPayload, BaseRecord.dump, Fields.without, Fields.pop]

/-- The store accepts the change of the stored proposal as an authorized application. -/
theorem mutationAuthorized_applied {stored applied : BaseRecord} {use : AuthorizationUse}
    {metadata : Fields} {grant : AuthorizationGrant} {actor subject : String} {legacy : Bool}
    {s : State} (h : ApplyEvidence now st a stored use metadata grant actor subject legacy)
    (hblank : Text.nonBlank a.useId = true)
    (huncited : stored.metadata.get "authorization_use_ref" ≠ .str a.useId)
    (happlied : appliedRevision stored metadata = .ok applied)
    (hid : a.authorizationRef.getD "" = grant.id)
    (hgrant : (State.byId (k := .authorization) s.authorizations).get? grant.id = some grant)
    (huse : (State.byId (k := .authorizationUse) s.uses).get? use.id = some use) :
    assertSemanticMutationAuthorized applied (some stored) s = .ok () := by
  obtain ⟨hsameId, htype, hstatus, hversion, hmetadata, hfields⟩ := appliedRevision_eq_ok happlied
  have hrevision : stored.recordType = .revision :=
    (appliedRevision_isOk_iff metadata).mp ⟨applied, happlied⟩
  obtain ⟨hcapability, hactor, hresource, heffect, hsubjects⟩ := h.use_fields
  obtain ⟨hnonBlank, hactorBlank, hsubjectBlank⟩ := h.nonBlank
  obtain ⟨hauth, hactorRef, hresourceRef, heffectClass, huseRef⟩ :=
    get_applyMetadata stored (a.authorizationRef.getD "") actor subject legacy a.useId
  have hcovers : revisionApplyAuthorized stored grant use actor subject = true := by
    have hrequest := h.authorized
    rw [applyRequest] at hrequest
    simp [revisionApplyAuthorized, h.useGrant, hcapability, hactor, hresource, heffect, hsubjects,
      h.usedAt, h.valid, hrequest]
  have hvalid : revisionAuthorityMetadataIsValid applied stored s = true := by
    obtain ⟨hsome, honly⟩ := h.changedKeys huncited
    rw [h.useId] at huse
    rw [h.metadata, hid] at hsome honly
    rw [hid] at hauth hactorRef hresourceRef heffectClass huseRef
    simp [revisionAuthorityMetadataIsValid, hmetadata, h.metadata, hid, h.status, hstatus, hversion,
      hsome, honly, hauth, hactorRef, hresourceRef, heffectClass, huseRef, h.resource, hnonBlank,
      hactorBlank, hsubjectBlank, hblank, hgrant, huse, hcovers, Json.eqStr, Json.pyEq]
  have hintegrity : assertRevisionMutationIntegrity applied stored s = .ok () := by
    rw [assertRevisionMutationIntegrity, proposalPayload_applied happlied, Fields.pyEq_refl, hvalid]
    simp [guardValue, bind, Except.bind]
  rw [assertSemanticMutationAuthorized]
  split
  · rfl
  · rw [assertQualificationTransitionJournaled, if_pos (.inl (by rw [htype, hrevision]; decide))]
    rw [if_pos (htype.trans hrevision)]
    exact hintegrity

/-! ## The rules on the applied version -/

/-- A link that has to resolve, if it is a text. -/
def Resolves (st : MemoryStore) (ref : Json) : Prop :=
  ∀ id, ref = .str id → (st.exportState.hasId id || isExternalRef id false) = true

/-- The stored proposal can be applied under the grant: as a Revision of its type without
undeclared fields, in the version that follows, with its links in place. -/
structure Appliable (st : MemoryStore) (grant : AuthorizationGrant) (stored : BaseRecord) :
    Prop where
  type : stored.recordType = .revision
  declared : stored.modelExtra = []
  transition : ∀ previous ∈ previousLifecycle stored,
    isValidLifecycleTransition .revision previous "applied" = true
  endpoints : st.endpointsAgree stored = true
  subject : st.Resolves (stored.getattr "subject_ref")
  supersedes : (stored.getattr "supersedes_ref").truthy = true ∧
    st.Resolves (stored.getattr "supersedes_ref")
  binds : grant.subjectVersionRefs.any
    [stored.id, BaseRecord.versionRef stored.id (stored.version + 1)].contains = true

section Version

variable {stored applied : BaseRecord} {use : AuthorizationUse} {metadata : Fields}
  {grant : AuthorizationGrant} {actor subject : String} {legacy : Bool} {s : State}

theorem expectedRefs_applied (h : appliedRevision stored metadata = .ok applied) :
    applied.expectedRefs = [stored.id, BaseRecord.versionRef stored.id (stored.version + 1)] := by
  obtain ⟨hid, -, -, hversion, -, -⟩ := appliedRevision_eq_ok h
  rw [BaseRecord.expectedRefs, hid, hversion]

/-- A grant that authorized the proposal authorizes the applied version that it names. -/
theorem isAuthorizedFor_of_binds {refs : List String}
    (h : isAuthorizedFor (applyRequest stored actor subject) grant now = true)
    (hbinds : grant.subjectVersionRefs.any refs.contains = true) :
    isAuthorizedFor
      { capability := "revision.apply", actorRef := actor, resourceRef := some subject,
        subjectVersionRefs := Text.sortedUnique refs, effectClass := .writeLocal } grant now =
      true := by
  obtain ⟨ref, hgrant, href⟩ := List.any_eq_true.mp hbinds
  have hmem : ref ∈ Text.sortedUnique refs := by
    rw [Text.mem_sortedUnique]
    exact List.contains_iff_mem.mp href
  have hne : grant.subjectVersionRefs.isEmpty = false :=
    List.isEmpty_eq_false_iff_exists_mem.mpr ⟨ref, hgrant⟩
  have hany : (Text.sortedUnique refs).any grant.subjectVersionRefs.contains = true :=
    List.any_eq_true.mpr ⟨ref, hmem, List.contains_iff_mem.mpr hgrant⟩
  simp only [isAuthorizedFor, requestMatches, applyRequest, hne, Bool.and_eq_true] at h ⊢
  exact ⟨h.1, h.2.1, by simpa using hany⟩

/-- Of the rules on the authorization of the applied version, one is not settled by the
checks of the call: that the grant names it. -/
theorem revisionGrantErrors_applied
    (h : ApplyEvidence now st a stored use metadata grant actor subject legacy)
    (happlied : appliedRevision stored metadata = .ok applied)
    (huse : State.find (k := .authorizationUse) s.uses use.id = some use) :
    revisionGrantErrors now s applied grant = [] ↔ grant.subjectVersionRefs.any
      [stored.id, BaseRecord.versionRef stored.id (stored.version + 1)].contains = true := by
  obtain ⟨hid, -, -, -, hmetadata, hfields⟩ := appliedRevision_eq_ok happlied
  obtain ⟨hcapability, hactor, hresource, heffect, hsubjects⟩ := h.use_fields
  obtain ⟨-, hactorBlank, hsubjectBlank⟩ := h.nonBlank
  obtain ⟨-, hactorRef, hresourceRef, heffectClass, huseRef⟩ :=
    get_applyMetadata stored (a.authorizationRef.getD "") actor subject legacy a.useId
  rw [← h.metadata, ← hmetadata] at hactorRef hresourceRef heffectClass huseRef
  have hresource' : applied.fields.getOr "subject_ref" (.str "") = .str subject := by
    have hget := h.resource
    rw [BaseRecord.getattr, Fields.get] at hget
    rw [hfields, Fields.getOr]
    cases hfield : Fields.get? "subject_ref" stored.fields with
    | none => simp [hfield] at hget
    | some v =>
      rw [hfield, Option.getD_some] at hget
      rw [Option.getD_some, hget]
  have hnamed : namedUse s applied.metadata = some use := by
    rw [namedUse, huseRef, ← h.useId]
    exact huse
  have hshared : use.subjectVersionRefs.any applied.expectedRefs.contains = true := by
    rw [List.any_eq_true]
    refine ⟨stored.id, ?_, ?_⟩
    · rw [hsubjects]
      exact List.mem_cons_self
    · rw [expectedRefs_applied happlied]
      simp
  rw [← expectedRefs_applied happlied]
  have hbinding : (use.authorizationRef != grant.id || use.capability != "revision.apply" ||
      !(Json.str actor).eqStr use.actorRef || !(Json.str subject).eqStr use.resourceRef ||
      use.effectClass != .writeLocal ||
      !use.subjectVersionRefs.any applied.expectedRefs.contains) = false := by
    rw [hshared, h.useGrant, hcapability, hactor, hresource, heffect]
    simp [Json.eqStr, Json.pyEq]
  simp only [revisionGrantErrors, hnamed, hactorRef, hresourceRef, heffectClass, hresource',
    hbinding, h.usedAt, h.valid, List.map_nil, List.append_eq_nil_iff, errorIf_eq_nil,
    Bool.not_eq_false']
  constructor
  · exact fun herrors => herrors.1.1.1.1.1
  · intro hbinds
    have hauthorized := isAuthorizedFor_of_binds h.authorized hbinds
    exact ⟨⟨⟨⟨⟨hbinds, hactorBlank⟩, hsubjectBlank⟩, Json.pyEq_refl _⟩, Json.pyEq_refl _⟩,
      ⟨trivial, trivial⟩, hauthorized⟩

theorem revisionAuthorizationErrors_applied
    (h : ApplyEvidence now st a stored use metadata grant actor subject legacy)
    (happlied : appliedRevision stored metadata = .ok applied)
    (hid : a.authorizationRef.getD "" = grant.id)
    (hgrant : (State.byId (k := .authorization) s.authorizations).get? grant.id = some grant)
    (huse : State.find (k := .authorizationUse) s.uses use.id = some use) :
    revisionAuthorizationErrors now s applied = .ok [] ↔ grant.subjectVersionRefs.any
      [stored.id, BaseRecord.versionRef stored.id (stored.version + 1)].contains = true := by
  obtain ⟨-, -, hstatus, -, hmetadata, -⟩ := appliedRevision_eq_ok happlied
  have hauth := (get_applyMetadata stored (a.authorizationRef.getD "") actor subject legacy
    a.useId).1
  rw [← h.metadata, ← hmetadata, hid] at hauth
  have htruthy : (Json.str grant.id).truthy = true := by
    have hnamed := h.named
    rw [hid] at hnamed
    simpa [Json.truthy] using hnamed
  have hrevisionGrant : revisionGrant s applied = .ok (some grant) := by
    simp [revisionGrant, revisionAuthRefs, hauth, Json.pyOr, htruthy, hashText, hgrant, bind,
      Except.bind, pure, Except.pure]
  have heffective : effectiveStatuses.contains applied.lifecycleStatus = true := by
    rw [hstatus]
    decide
  rw [revisionAuthorizationErrors, heffective, ← revisionGrantErrors_applied h happlied huse]
  simp [hrevisionGrant, bind, Except.bind, pure, Except.pure]

end Version

/-! ## Links -/

/-- A keyed store resolves a reference as its state does. -/
theorem get?_byId_exportState (hkeyed : Keyed st) (hs : st.exportState.WellIdentified) {k : Kind}
    (ref : String) : (State.byId (st.exportState k)).get? ref = st.get k ref := by
  ext m
  rw [State.get?_byId (hs.bucket_nodup k)]
  constructor
  · rintro ⟨hmem, rfl⟩
    obtain ⟨id, hget⟩ := Dict.mem_values.mp hmem
    rwa [hkeyed k id m hget]
  · intro hget
    exact ⟨Dict.mem_values.mpr ⟨ref, hget⟩, hkeyed k ref m hget⟩

/-- A link that is present resolves as an endpoint does, or cannot be looked up. -/
theorem recordAt_exportState (hkeyed : Keyed st) (hs : st.exportState.WellIdentified) {ref : Json}
    (htruthy : ref.truthy = true) :
    st.exportState.recordAt ref = .ok (st.endpointAt ref) ∨
      ∃ e, st.exportState.recordAt ref = .error e ∧ st.endpointAt ref = none := by
  cases ref with
  | str id =>
    have hne : id ≠ "" := by simpa [Json.truthy] using htruthy
    have hget : st.exportState.parsedRecords.get? id = st.getRecord id :=
      get?_byId_exportState hkeyed hs id
    left
    rw [endpointAt, if_neg hne, ← hget]
    rfl
  | arr items => exact .inr ⟨_, rfl, rfl⟩
  | obj fields => exact .inr ⟨_, rfl, rfl⟩
  | _ => exact .inl rfl

/-- The endpoint rule on an applied version asks for stored endpoints of one type. -/
theorem revisionEndpointErrors_eq_ok (hkeyed : Keyed st) (hs : st.exportState.WellIdentified)
    {record : BaseRecord} (hstatus : record.lifecycleStatus = .applied)
    (hold : (record.getattr "revises_ref").truthy = true)
    (hnew : (record.getattr "produces_ref").truthy = true) :
    revisionEndpointErrors st.exportState record = .ok [] ↔ st.endpointsAgree record = true := by
  have hproposal : proposalStatuses.contains record.lifecycleStatus = false := by
    rw [hstatus]
    decide
  simp only [revisionEndpointErrors, endpointsAgree, hold, hnew, hproposal, Bool.not_true,
    Bool.or_false, Bool.false_eq_true, if_false]
  rcases recordAt_exportState hkeyed hs hold with hget | ⟨e, hget, hnone⟩
  · rw [hget]
    rcases recordAt_exportState hkeyed hs hnew with hget' | ⟨e, hget', hnone⟩
    · rw [hget']
      cases st.endpointAt (record.getattr "revises_ref") <;>
        cases st.endpointAt (record.getattr "produces_ref") <;>
        simp [bind, Except.bind, pure, Except.pure, errorIf]
    · rw [hget', hnone]
      cases st.endpointAt (record.getattr "revises_ref") <;> simp [bind, Except.bind]
  · rw [hget, hnone]
    simp [bind, Except.bind]

section References

variable {record stored applied : BaseRecord} {metadata : Fields} {s : State}

/-- The edges of a Revision: its sources, its subject and its links. -/
theorem iterRefEdges_revision (htype : record.recordType = .revision) :
    iterRefEdges .record record.dump =
      RefEdge.many "source_refs" (.ofStrings record.sourceRefs) ++
        ("subject_ref" :: revisionLinks).flatMap
          (fun field => RefEdge.one field (record.getattr field)) := by
  have hfield {field : String} (hfield : field ∈ "subject_ref" :: revisionLinks) :
      record.dump.get field = record.getattr field := by
    simp only [revisionLinks, List.mem_cons, List.not_mem_nil, or_false] at hfield
    rcases hfield with rfl | rfl | rfl | rfl <;> rfl
  have htext : record.dump.get "record_type" = .str "Revision" := by
    rw [show record.dump.get "record_type" = .str record.recordType.text from rfl, htype]
    rfl
  have hsources : record.dump.get "source_refs" = .ofStrings record.sourceRefs := rfl
  simp [iterRefEdges, htext, hsources, Json.eqStr, Json.pyEq, revisionLinks,
    hfield (show "subject_ref" ∈ _ by decide), hfield (show "revises_ref" ∈ _ by decide),
    hfield (show "produces_ref" ∈ _ by decide), hfield (show "supersedes_ref" ∈ _ by decide)]

/-- A record's edge is in order when it resolves, or links a mere proposal. -/
theorem edgeErrors_record {id : String} {raw : Fields} {edge : RefEdge}
    (hsubject : edge.eventSubject = false) :
    edgeErrors s .record id raw edge = [] ↔
      proposalEdge .record raw edge = true ∨
        (s.hasId edge.ref || isExternalRef edge.ref false) = true := by
  rw [edgeErrors, hsubject]
  by_cases hproposal : proposalEdge .record raw edge = true
  · simp [hproposal]
  · by_cases hresolved : (s.hasId edge.ref || isExternalRef edge.ref false) = true
    · rw [if_neg hproposal, if_pos hresolved]
      exact iff_of_true rfl (.inr hresolved)
    · rw [if_neg hproposal, if_neg hresolved, if_neg (by simp), if_neg (by simp)]
      exact iff_of_false (List.cons_ne_nil _ _) (not_or.mpr ⟨hproposal, hresolved⟩)

theorem mem_one {field : String} {value : Json} {edge : RefEdge} :
    edge ∈ RefEdge.one field value ↔
      ∃ ref, value = .str ref ∧ ref ≠ "" ∧ edge = { field := field, ref := ref } := by
  cases value with
  | str ref => by_cases href : ref = "" <;> simp [RefEdge.one, href]
  | _ => simp [RefEdge.one]

theorem proposalEdge_revision (htype : record.recordType = .revision) (edge : RefEdge) :
    proposalEdge .record record.dump edge =
      (proposalStatuses.contains record.lifecycleStatus &&
        ("subject_ref" :: revisionLinks).contains edge.field) := by
  have htext : record.dump.get "record_type" = .str "Revision" := by
    rw [show record.dump.get "record_type" = .str record.recordType.text from rfl, htype]
    rfl
  have hstatus : record.dump.get "lifecycle_status" = .str record.lifecycleStatus.text := rfl
  have hproposal : ((Json.str record.lifecycleStatus.text).eqStr "proposed" ||
      (Json.str record.lifecycleStatus.text).eqStr "rejected") =
        proposalStatuses.contains record.lifecycleStatus := by
    cases record.lifecycleStatus <;> decide
  rw [proposalEdge, htext, hstatus, hproposal]
  simp [Json.eqStr, Json.pyEq, revisionLinks]

theorem referenceErrors_revision (htype : record.recordType = .revision) :
    referenceErrors s .record record = [] ↔
      (∀ ref ∈ record.sourceRefs, ref ≠ "" → (s.hasId ref || isExternalRef ref false) = true) ∧
      ∀ field ∈ "subject_ref" :: revisionLinks, ∀ ref, record.getattr field = .str ref → ref ≠ "" →
        proposalStatuses.contains record.lifecycleStatus = true ∨
          (s.hasId ref || isExternalRef ref false) = true := by
  have hsources (ref : String) : proposalEdge .record record.dump
      { field := "source_refs", ref := ref } = false := by
    rw [proposalEdge_revision htype]
    simp [revisionLinks]
  have hlinks {field : String} (hfield : field ∈ "subject_ref" :: revisionLinks) (ref : String) :
      proposalEdge .record record.dump { field := field, ref := ref } =
        proposalStatuses.contains record.lifecycleStatus := by
    rw [proposalEdge_revision htype, List.contains_iff_mem.mpr hfield, Bool.and_true]
  rw [referenceErrors, if_neg (by decide), show Kind.record.dump record = record.dump from rfl,
    iterRefEdges_revision htype, List.flatMap_append,
    List.append_eq_nil_iff, List.flatMap_eq_nil_iff, List.flatMap_eq_nil_iff]
  refine and_congr ⟨fun h ref href hne => ?_, fun h edge hedge => ?_⟩
    ⟨fun h field hfield ref href hne => ?_, fun h edge hedge => ?_⟩
  · have hmem : (⟨"source_refs", ref, false⟩ : RefEdge) ∈
        RefEdge.many "source_refs" (.ofStrings record.sourceRefs) :=
      List.mem_flatMap.mpr ⟨.str ref, List.mem_map.mpr ⟨ref, href, rfl⟩,
        mem_one.mpr ⟨ref, rfl, hne, rfl⟩⟩
    have hedge := (edgeErrors_record rfl).mp (h _ hmem)
    rw [hsources] at hedge
    exact hedge.resolve_left (by decide)
  · obtain ⟨value, hvalue, hone⟩ := List.mem_flatMap.mp hedge
    obtain ⟨ref, href, rfl⟩ := List.mem_map.mp hvalue
    obtain ⟨ref', hsame, hne, rfl⟩ := mem_one.mp hone
    obtain rfl := Json.str.inj hsame
    exact (edgeErrors_record rfl).mpr (.inr (h ref href hne))
  · have hmem : (⟨field, ref, false⟩ : RefEdge) ∈ ("subject_ref" :: revisionLinks).flatMap
        (fun field => RefEdge.one field (record.getattr field)) :=
      List.mem_flatMap.mpr ⟨field, hfield, mem_one.mpr ⟨ref, href, hne, rfl⟩⟩
    have hedge := (edgeErrors_record rfl).mp (h _ hmem)
    rwa [hlinks hfield] at hedge
  · obtain ⟨field, hfield, hone⟩ := List.mem_flatMap.mp hedge
    obtain ⟨ref, href, hne, rfl⟩ := mem_one.mp hone
    refine (edgeErrors_record rfl).mpr ?_
    rw [hlinks hfield]
    exact h field hfield ref href hne

end References

/-! ## The shape of the applied version -/

section Shape

variable {record stored applied : BaseRecord} {use : AuthorizationUse} {metadata : Fields}
  {grant : AuthorizationGrant} {actor subject : String} {legacy : Bool}

theorem validateRecord_revision (htype : record.recordType = .revision)
    (hstatus : proposalStatuses.contains record.lifecycleStatus = false) :
    validateRecord record = [] ↔
      (∀ field ∈ revisionLinks, (record.getattr field).truthy = true) ∧
        ((record.getattr "revises_ref").truthy && (record.getattr "produces_ref").truthy &&
          (record.getattr "revises_ref").pyEq (record.getattr "produces_ref")) = false := by
  simp only [validateRecord, htype, hstatus, List.append_eq_nil_iff]
  simp [List.filter_eq_nil_iff]

theorem get?_metadata_applied
    (h : ApplyEvidence now st a stored use metadata grant actor subject legacy)
    (happlied : appliedRevision stored metadata = .ok applied) {key : String}
    (hkey : key ∉ revisionApplyMetadataKeys) :
    applied.metadata.get? key = stored.metadata.get? key := by
  obtain ⟨-, -, -, -, hmetadata, -⟩ := appliedRevision_eq_ok happlied
  rw [hmetadata, h.metadata, get?_applyMetadata_of_not_mem _ _ _ _ _ _ hkey]

theorem claimedTransition_applied
    (h : ApplyEvidence now st a stored use metadata grant actor subject legacy)
    (happlied : appliedRevision stored metadata = .ok applied) :
    claimedTransition applied = none ↔ ∀ previous ∈ previousLifecycle stored,
      isValidLifecycleTransition .revision previous "applied" = true := by
  obtain ⟨-, htype, hstatus, -⟩ := appliedRevision_eq_ok happlied
  have hrevision := (appliedRevision_isOk_iff metadata).mp ⟨applied, happlied⟩
  have hprevious : previousLifecycle applied = previousLifecycle stored := by
    rw [previousLifecycle, previousLifecycle, Fields.get, Fields.get,
      get?_metadata_applied h happlied (by decide)]
  rw [claimedTransition, hprevious, htype, hrevision, hstatus, Option.bind_eq_none_iff]
  simp only [validateLifecycleTransition_eq_none]
  rfl

/-- What the record rules ask of the applied version of a record that passes them. -/
theorem recordErrors_applied
    (h : ApplyEvidence now st a stored use metadata grant actor subject legacy)
    (happlied : appliedRevision stored metadata = .ok applied) (hstored : recordErrors stored = []) :
    recordErrors applied = [] ↔
      (∀ field ∈ revisionLinks, (stored.getattr field).truthy = true) ∧
        ∀ previous ∈ previousLifecycle stored,
          isValidLifecycleTransition .revision previous "applied" = true := by
  obtain ⟨hid, htype, hstatus, hversion, hmetadata, hfields⟩ := appliedRevision_eq_ok happlied
  have hrevision := (appliedRevision_isOk_iff metadata).mp ⟨applied, happlied⟩
  have hgetattr (field : String) : applied.getattr field = stored.getattr field := by
    rw [BaseRecord.getattr, hfields]
    rfl
  have hproposal : proposalStatuses.contains applied.lifecycleStatus = false := by
    rw [hstatus]
    decide
  simp only [recordErrors, hrevision, if_true, revisionShapeErrors, List.append_eq_nil_iff,
    List.map_eq_nil_iff, errorIf_eq_nil, decide_eq_false_iff_not, not_lt] at hstored
  obtain ⟨⟨⟨-, hpositive⟩, -⟩, ⟨-, hdistinct⟩, hlineage⟩ := hstored
  have hfrom : applied.metadata.get? "from_version" = stored.metadata.get? "from_version" :=
    get?_metadata_applied h happlied (by decide)
  have hto : applied.metadata.get? "to_version" = stored.metadata.get? "to_version" :=
    get?_metadata_applied h happlied (by decide)
  have hrecord := validateRecord_revision (htype.trans hrevision) hproposal
  simp only [hgetattr] at hrecord
  rw [recordErrors, if_pos (htype.trans hrevision)]
  simp only [List.append_eq_nil_iff, List.map_eq_nil_iff, errorIf_eq_nil,
    Option.toList_eq_nil_iff, decide_eq_false_iff_not, not_lt, hrecord,
    claimedTransition_applied h happlied, hversion]
  constructor
  · rintro ⟨⟨⟨⟨hlinks, -⟩, -⟩, htransition⟩, -⟩
    exact ⟨hlinks, htransition⟩
  · rintro ⟨hlinks, htransition⟩
    refine ⟨⟨⟨⟨hlinks, hdistinct⟩, by omega⟩, htransition⟩, ?_⟩
    have hpresent : ∀ field ∈ revisionLinks,
        ((stored.getattr field).pyEq .null || (stored.getattr field).eqStr "") = false := by
      intro field hfield
      have htruthy := hlinks field hfield
      cases hget : stored.getattr field <;> rw [hget] at htruthy <;>
        simp_all [Json.pyEq, Json.eqStr, Json.truthy]
    simp only [revisionShapeErrors, hgetattr, hid, List.append_eq_nil_iff, List.map_eq_nil_iff,
      List.filter_eq_nil_iff, errorIf_eq_nil]
    refine ⟨⟨fun field hfield => by simp [hpresent field hfield], hdistinct⟩, ?_⟩
    rw [Fields.has, Fields.has, Fields.getOr, Fields.getOr, hfrom, hto]
    exact hlineage

/-- An application does not turn a Revision into a verification, nor back. -/
theorem passing_applied
    (h : ApplyEvidence now st a stored use metadata grant actor subject legacy)
    (happlied : appliedRevision stored metadata = .ok applied) :
    verificationResultIsPassing applied.dump = verificationResultIsPassing stored.dump := by
  obtain ⟨-, htype, -, -, -, hfields⟩ := appliedRevision_eq_ok happlied
  have hdump (record : BaseRecord) : (record.dump.get "metadata").asFields? = some record.metadata ∧
      record.dump.get "verification_result" = record.fields.get "verification_result" ∧
      record.dump.get "kind" = record.fields.get "kind" ∧
      record.dump.get "record_type" = .str record.recordType.text := ⟨rfl, rfl, rfl, rfl⟩
  have hmetadata (key : String) (hkey : key ∉ revisionApplyMetadataKeys) :
      applied.metadata.get key = stored.metadata.get key := by
    rw [Fields.get, Fields.get, get?_metadata_applied h happlied hkey]
  obtain ⟨hm, hv, hk, ht⟩ := hdump applied
  obtain ⟨hm', hv', hk', ht'⟩ := hdump stored
  simp only [verificationResultIsPassing, hm, hv, hk, ht, hm', hv', hk', ht', hfields, htype,
    hmetadata "verification_result" (by decide), hmetadata "kind" (by decide)]

theorem advances_applied
    (h : ApplyEvidence now st a stored use metadata grant actor subject legacy)
    (happlied : appliedRevision stored metadata = .ok applied)
    (hget : st'.getRecord stored.id = some stored) :
    Advances st'.exportState stored applied := by
  obtain ⟨hid, htype, hstatus, -⟩ := appliedRevision_eq_ok happlied
  have hrevision := (appliedRevision_isOk_iff metadata).mp ⟨applied, happlied⟩
  exact ⟨Dict.mem_values.mpr ⟨stored.id, hget⟩, hid, hrevision, htype.trans hrevision, h.status,
    hstatus, passing_applied h happlied⟩

theorem endpointAt_eq_some {ref : Json} (h : st.endpointAt ref = some record) :
    ∃ id, ref = .str id ∧ id ≠ "" ∧ st.getRecord id = some record := by
  unfold endpointAt at h
  split at h
  · rename_i id
    split at h
    · exact absurd h (by simp)
    · rename_i hne
      exact ⟨id, rfl, hne, h⟩
  · exact absurd h (by simp)

theorem endpointsAgree_eq_true (h : st.endpointsAgree record = true) :
    ∃ old new, st.endpointAt (record.getattr "revises_ref") = some old ∧
      st.endpointAt (record.getattr "produces_ref") = some new := by
  unfold endpointsAgree at h
  split at h
  · rename_i old new hold hnew
    exact ⟨old, new, hold, hnew⟩
  · exact absurd h (by decide)

theorem hasId_of_getRecord (hkeyed : Keyed st) (hs : st.exportState.WellIdentified) {id : String}
    (h : st.getRecord id = some record) : st.exportState.hasId id = true :=
  (State.hasId_iff hs).mpr ⟨.record, record, Dict.mem_values.mpr ⟨id, h⟩, hkeyed .record id record h⟩

theorem revisionErrors_eq_ok {s : State} (htype : record.recordType = .revision) :
    revisionErrors now s record = .ok [] ↔ revisionAuthorizationErrors now s record = .ok [] ∧
      revisionEndpointErrors s record = .ok [] := by
  rw [revisionErrors, if_neg (not_not.mpr htype)]
  simp only [Result.bind_eq_ok, Result.pure_eq_ok, List.append_eq_nil_iff]
  constructor
  · rintro ⟨e, he, e', he', rfl, rfl⟩
    exact ⟨he, he'⟩
  · rintro ⟨he, he'⟩
    exact ⟨[], he, [], he', rfl, rfl⟩

/-- The rules of the graph on the applied version are the conditions on the proposal. -/
theorem versionOk_iff
    (h : ApplyEvidence now st a stored use metadata grant actor subject legacy)
    (happlied : appliedRevision stored metadata = .ok applied)
    (hkeyed : Keyed st') (hvalid : Valid now st'.exportState)
    (hget : st'.getRecord stored.id = some stored)
    (hid : a.authorizationRef.getD "" = grant.id)
    (hgrant : st'.get .authorization grant.id = some grant)
    (huse : st'.get .authorizationUse use.id = some use) (hdeclared : stored.modelExtra = []) :
    State.VersionOk now st'.exportState applied ↔ Appliable st' grant stored := by
  have hok := valid_iff.mp hvalid
  have hs := hok.identified
  have hmem : stored ∈ st'.exportState.records := Dict.mem_values.mpr ⟨stored.id, hget⟩
  obtain ⟨-, htype, hstatus, -, -, hfields⟩ := appliedRevision_eq_ok happlied
  have hrevision := (appliedRevision_isOk_iff metadata).mp ⟨applied, happlied⟩
  have hgetattr (field : String) : applied.getattr field = stored.getattr field := by
    rw [BaseRecord.getattr, hfields]
    rfl
  have hends : st'.endpointsAgree applied = st'.endpointsAgree stored := by
    rw [endpointsAgree, endpointsAgree, hgetattr, hgetattr]
  have hproposal : proposalStatuses.contains applied.lifecycleStatus = false := by
    rw [hstatus]
    decide
  have hgrant' : (State.byId (k := .authorization) st'.exportState.authorizations).get? grant.id =
      some grant := (get?_byId_exportState hkeyed hs grant.id).trans hgrant
  have huse' : State.find (k := .authorizationUse) st'.exportState.uses use.id = some use :=
    (State.find_eq_some (hs.bucket_nodup .authorizationUse)).mpr
      ⟨Dict.mem_values.mpr ⟨use.id, huse⟩, rfl⟩
  have hrecord := recordErrors_applied h happlied (hok.records stored hmem)
  have hauthorization := revisionAuthorizationErrors_applied h happlied hid hgrant' huse'
  have hreferences := referenceErrors_revision (s := st'.exportState) (htype.trans hrevision)
  obtain ⟨-, -, hsubjectBlank⟩ := h.nonBlank
  constructor
  · intro hversion
    obtain ⟨hlinks, htransition⟩ := hrecord.mp hversion.record
    obtain ⟨hauth, hend⟩ := (revisionErrors_eq_ok (htype.trans hrevision)).mp hversion.revision
    have hresolved := (hreferences.mp hversion.references).2
    have hresolves (field : String) (hfield : field ∈ "subject_ref" :: revisionLinks)
        (htruthy : (stored.getattr field).truthy = true) : st'.Resolves (stored.getattr field) := by
      intro id hstr
      have hne : id ≠ "" := by
        rw [hstr] at htruthy
        simpa [Json.truthy] using htruthy
      have hor := hresolved field hfield id ((hgetattr field).trans hstr) hne
      rw [hproposal] at hor
      exact hor.resolve_left (by decide)
    rw [revisionEndpointErrors_eq_ok hkeyed hs hstatus
      (by rw [hgetattr]; exact hlinks _ (by decide)) (by rw [hgetattr]; exact hlinks _ (by decide)),
      hends] at hend
    have hsubject : (stored.getattr "subject_ref").truthy = true := by
      rw [h.resource]
      simp only [Json.truthy, bne_iff_ne]
      rintro rfl
      exact absurd hsubjectBlank (by decide)
    have hsupersedes := hlinks "supersedes_ref" (by decide)
    exact ⟨hrevision, hdeclared, htransition, hend, hresolves _ (by decide) hsubject,
      ⟨hsupersedes, hresolves _ (by decide) hsupersedes⟩, hauthorization.mp hauth⟩
  · intro happliable
    obtain ⟨old, new, hold, hnew⟩ := endpointsAgree_eq_true happliable.endpoints
    obtain ⟨oldId, holdRef, holdNe, holdGet⟩ := endpointAt_eq_some hold
    obtain ⟨newId, hnewRef, hnewNe, hnewGet⟩ := endpointAt_eq_some hnew
    have htruthy {ref : Json} {id : String} (href : ref = .str id) (hne : id ≠ "") :
        ref.truthy = true := by
      rw [href]
      simpa [Json.truthy] using hne
    have hlinks : ∀ field ∈ revisionLinks, (stored.getattr field).truthy = true := by
      intro field hfield
      simp only [revisionLinks, List.mem_cons, List.not_mem_nil, or_false] at hfield
      rcases hfield with rfl | rfl | rfl
      · exact htruthy holdRef holdNe
      · exact htruthy hnewRef hnewNe
      · exact happliable.supersedes.1
    refine ⟨hrecord.mpr ⟨hlinks, happliable.transition⟩, hreferences.mpr ⟨?_, ?_⟩, ?_⟩
    · have hsources := ((referenceErrors_revision hrevision).mp
        (hok.references .record stored hmem)).1
      have hsame : applied.sourceRefs = stored.sourceRefs := by
        obtain ⟨_, rfl⟩ := BaseRecord.withLifecycle_eq_ok.mp happlied
        rfl
      rw [hsame]
      exact hsources
    · intro field hfield ref href _
      right
      rw [hgetattr] at href
      simp only [revisionLinks, List.mem_cons, List.not_mem_nil, or_false] at hfield
      rcases hfield with rfl | rfl | rfl | rfl
      · exact happliable.subject ref href
      · rw [holdRef, Json.str.injEq] at href
        rw [← href, hasId_of_getRecord hkeyed hs holdGet, Bool.true_or]
      · rw [hnewRef, Json.str.injEq] at href
        rw [← href, hasId_of_getRecord hkeyed hs hnewGet, Bool.true_or]
      · exact happliable.supersedes.2 ref href
    · refine (revisionErrors_eq_ok (htype.trans hrevision)).mpr
        ⟨hauthorization.mpr happliable.binds, ?_⟩
      rw [revisionEndpointErrors_eq_ok hkeyed hs hstatus
        (by rw [hgetattr]; exact hlinks _ (by decide))
        (by rw [hgetattr]; exact hlinks _ (by decide)), hends]
      exact happliable.endpoints

/-- The last save is accepted exactly when the proposal can be applied under the grant. -/
theorem saveApplied_isOk_iff
    (h : ApplyEvidence now st a stored use metadata grant actor subject legacy)
    (hkeyed : Keyed st') (hvalid : Valid now st'.exportState)
    (hget : st'.getRecord stored.id = some stored)
    (hid : a.authorizationRef.getD "" = grant.id)
    (hgrant : st'.get .authorization grant.id = some grant)
    (huse : st'.get .authorizationUse use.id = some use)
    (hblank : Text.nonBlank a.useId = true)
    (huncited : stored.metadata.get "authorization_use_ref" ≠ .str a.useId) :
    (∃ r, st'.saveApplied now stored metadata = .ok r) ↔ Appliable st' grant stored := by
  have hs := (valid_iff.mp hvalid).identified
  constructor
  · rintro ⟨⟨st'', applied⟩, hsave⟩
    obtain ⟨happlied, hsave⟩ := saveApplied_eq_ok.mp hsave
    obtain ⟨hsemantics, hmerged, -⟩ := saveRecord_eq_ok.mp hsave
    obtain ⟨-, hcanonical, -⟩ := validateRecordWriteSemantics_eq_ok.mp hsemantics
    have hdeclared : stored.modelExtra = [] := by
      have hextra : applied.modelExtra = [] := by
        by_contra hextra
        rw [validateCanonicalWrite, List.append_eq_nil_iff, if_neg (by simpa using hextra)]
          at hcanonical
        exact absurd hcanonical.1 (List.cons_ne_nil _ _)
      obtain ⟨_, rfl⟩ := BaseRecord.withLifecycle_eq_ok.mp happlied
      exact hextra
    have hversion := (State.valid_advanced_iff hvalid (advances_applied h happlied hget)).mp hmerged
    exact (versionOk_iff h happlied hkeyed hvalid hget hid hgrant huse hdeclared).mp hversion
  · intro happliable
    obtain ⟨applied, happlied⟩ := (appliedRevision_isOk_iff metadata).mpr happliable.type
    obtain ⟨hsameId, htype, hstatus, hversion, -, -⟩ := appliedRevision_eq_ok happlied
    have hok := (versionOk_iff h happlied hkeyed hvalid hget hid hgrant huse
      happliable.declared).mpr happliable
    have hmerged := (State.valid_advanced_iff hvalid (advances_applied h happlied hget)).mpr hok
    have hexisting : st'.getRecord applied.id = some stored := by
      rw [hsameId]
      exact hget
    have hsemantics : st'.validateRecordWriteSemantics applied = .ok () := by
      refine validateRecordWriteSemantics_eq_ok.mpr ⟨?_, ?_, ?_⟩
      · have hrecord := hok.record
        simp only [recordErrors, List.append_eq_nil_iff, List.map_eq_nil_iff, errorIf_eq_nil,
          decide_eq_false_iff_not, not_lt] at hrecord
        obtain ⟨⟨⟨hvalidate, hpositive⟩, htransition⟩, -⟩ := hrecord
        have hadvance : ¬ (stored.id = applied.id ∧ !stored.content.pyEq applied.content ∧
            applied.version ≤ stored.version) := fun hall => absurd hall.2.2 (by omega)
        rw [hexisting]
        simp only [validateRecordWrite, hvalidate, htransition, if_neg hadvance,
          if_neg (show ¬ applied.version < 1 by omega)]
        rfl
      · have hextra : applied.modelExtra = [] := by
          have hdeclared := happliable.declared
          obtain ⟨_, rfl⟩ := BaseRecord.withLifecycle_eq_ok.mp happlied
          exact hdeclared
        simp [validateCanonicalWrite, hextra, hstatus]
      · rw [hexisting]
        exact mutationAuthorized_applied h hblank huncited happlied hid
          ((get?_byId_exportState hkeyed hs grant.id).trans hgrant)
          ((get?_byId_exportState hkeyed hs use.id).trans huse)
    exact ⟨(st'.save .record applied, applied),
      saveApplied_eq_ok.mpr ⟨happlied, saveRecord_eq_ok.mpr ⟨hsemantics, hmerged, rfl⟩⟩⟩

end Shape

end MemoryStore
end PortableRuntime
