import PortableRuntime.Protocol.Valid

/-!
# Validity at a later instant

A promotion that names its use is judged at the instant of the use for ever.  One that
names none is judged at the present instant, and becomes an error of the whole state
when its grant expires or is revoked.
-/

namespace PortableRuntime

variable {now later : Time} {s : State}

/-- The metadata names no use, so that the grant is judged at the present instant. -/
def NamesNoUse (metadata : Fields) : Prop := ∀ ref, metadata.get "authorization_use_ref" ≠ .str ref

/-- What a grant has to be for a promotion, apart from the time. -/
def BindsPromotion (target : BaseRecord) (grant : AuthorizationGrant) : Prop :=
  grant.subjectVersionRefs.any target.expectedRefs.contains = true ∧
    ∃ capability request, promotionCapability target.recordType = some capability ∧
      promotionRequest capability target.metadata (Text.sortedUnique target.expectedRefs) =
        some request ∧
      shapeErrors grant = [] ∧ requestMatches request grant = true

/-- Every promotion that names no use still has a binding grant in its window, and every
grant of an official projection that names no use is in its window. -/
structure StillGranted (now : Time) (s : State) : Prop where
  records : ∀ record ∈ s.records, Gated record → NamesNoUse record.metadata →
    ∃ grant ∈ s.authorizations, BindsPromotion record grant ∧ outsideWindow grant now = false
  projections : ∀ p ∈ s.projections, p.lifecycleStatus = .official → NamesNoUse p.metadata →
    ∀ ref ∈ p.authorizationRefs, ∀ grant,
      State.find (k := .authorization) s.authorizations ref = some grant →
      outsideWindow grant now = false

/-! ## Grants -/

theorem grantHolds_of_use {grant : AuthorizationGrant} {request : CanonicalAuthorizationRequest}
    {metadata : Fields} (h : ¬ NamesNoUse metadata) :
    grantHolds later s grant request (metadata.get "authorization_use_ref") =
      grantHolds now s grant request (metadata.get "authorization_use_ref") := by
  obtain ⟨ref, href⟩ := not_forall_not.mp h
  rw [href]
  rfl

theorem grantHolds_of_noUse {grant : AuthorizationGrant} {request : CanonicalAuthorizationRequest}
    {metadata : Fields} (h : NamesNoUse metadata) :
    grantHolds now s grant request (metadata.get "authorization_use_ref") = true ↔
      outsideWindow grant now = false ∧ shapeErrors grant = [] ∧
        requestMatches request grant = true := by
  have hjudged : grantHolds now s grant request (metadata.get "authorization_use_ref") =
      ((validateGrant grant now).isEmpty && isAuthorizedFor request grant now) := by
    cases huse : metadata.get "authorization_use_ref" with
    | str ref => exact absurd huse (h ref)
    | _ => rfl
  rw [hjudged, Bool.and_eq_true, List.isEmpty_iff, validateGrant_eq_nil, isAuthorizedFor,
    Bool.and_eq_true, Bool.not_eq_true']
  constructor
  · rintro ⟨⟨hwindow, hshape⟩, -, hmatches⟩
    exact ⟨hwindow, hshape, hmatches⟩
  · rintro ⟨hwindow, hshape, hmatches⟩
    exact ⟨⟨hwindow, hshape⟩, hwindow, hmatches⟩

/-! ## Promoted records -/

theorem grantProves_of_noUse {target : BaseRecord} {grant : AuthorizationGrant}
    (h : NamesNoUse target.metadata) :
    grantProves now target s grant = true ↔
      BindsPromotion target grant ∧ outsideWindow grant now = false := by
  rw [grantProves, Bool.and_eq_true, BindsPromotion]
  cases hcapability : promotionCapability target.recordType with
  | none => simp
  | some capability =>
    cases hrequest : promotionRequest capability target.metadata
        (Text.sortedUnique target.expectedRefs) with
    | none => simp [hrequest]
    | some request =>
      simp only [hrequest, grantHolds_of_noUse h]
      constructor
      · rintro ⟨hrefs, hwindow, hshape, hmatches⟩
        exact ⟨⟨hrefs, capability, request, rfl, hrequest, hshape, hmatches⟩, hwindow⟩
      · rintro ⟨⟨hrefs, capability', request', hcapability', hrequest', hshape, hmatches⟩, hwindow⟩
        obtain rfl := Option.some.inj hcapability'
        obtain rfl := Option.some.inj (hrequest.symm.trans hrequest')
        exact ⟨hrefs, hwindow, hshape, hmatches⟩

theorem hasStructuralAuthorizationProof_of_use {target : BaseRecord}
    (h : ¬ NamesNoUse target.metadata) :
    hasStructuralAuthorizationProof later target s =
      hasStructuralAuthorizationProof now target s := by
  have hproves : grantProves later target s = grantProves now target s := by
    funext grant
    simp only [grantProves, @grantHolds_of_use now later s _ _ _ h]
  rw [hasStructuralAuthorizationProof, hproves, hasStructuralAuthorizationProof]

theorem hasStructuralAuthorizationProof_of_noUse {target : BaseRecord}
    (h : NamesNoUse target.metadata) :
    hasStructuralAuthorizationProof now target s = true ↔
      ∃ grant ∈ s.authorizations, BindsPromotion target grant ∧ outsideWindow grant now = false := by
  rw [hasStructuralAuthorizationProof, List.any_eq_true]
  simp only [grantProves_of_noUse h]

/-- A record that passes the gate now passes it later when its grant still proves it. -/
theorem promotionErrors_later {record : BaseRecord} (h : promotionErrors now s record = .ok []) :
    promotionErrors later s record = .ok [] ↔
      (Gated record → hasStructuralAuthorizationProof later record s = true) := by
  by_cases hgated : Gated record
  · obtain ⟨hverified, hshape, -⟩ := (promotionErrors_of_gated hgated).mp h
    rw [promotionErrors_of_gated hgated]
    exact ⟨fun hok _ => hok.granted, fun hgranted => ⟨hverified, hshape, hgranted hgated⟩⟩
  · rw [promotionErrors_of_not_gated hgated later s, h]
    exact iff_of_true rfl (fun hg => absurd hg hgated)

theorem promotionErrors_later_iff {record : BaseRecord}
    (h : promotionErrors now s record = .ok []) :
    promotionErrors later s record = .ok [] ↔ (Gated record → NamesNoUse record.metadata →
      ∃ grant ∈ s.authorizations, BindsPromotion record grant ∧
        outsideWindow grant later = false) := by
  rw [promotionErrors_later h]
  by_cases hgated : Gated record
  · by_cases huse : NamesNoUse record.metadata
    · simp only [hgated, huse, true_implies, hasStructuralAuthorizationProof_of_noUse huse]
    · have hgranted := ((promotionErrors_of_gated hgated).mp h).granted
      rw [@hasStructuralAuthorizationProof_of_use now _ _ _ huse, hgranted]
      exact iff_of_true (fun _ => rfl) (fun _ hno => absurd hno huse)
  · exact iff_of_true (fun hg => absurd hg hgated) (fun hg => absurd hg hgated)

/-! ## Projections -/

/-- A grant of a projection that holds now holds later when it is in its window then. -/
theorem projectionGrantErrors_later {p : KnowledgeProjection} {ref : String}
    (h : projectionGrantErrors now s p ref = []) :
    projectionGrantErrors later s p ref = [] ↔ (NamesNoUse p.metadata → ∀ grant,
      State.find (k := .authorization) s.authorizations ref = some grant →
        outsideWindow grant later = false) := by
  rw [projectionGrantErrors] at h ⊢
  cases hgrant : State.find (k := .authorization) s.authorizations ref with
  | none => simp [hgrant] at h
  | some grant =>
    simp only [hgrant] at h ⊢
    split_ifs at h ⊢ with hmissing
    cases hrequest : promotionRequest "knowledge.promote" p.metadata [p.id, s!"{p.id}:v1"] with
    | none => simp [hrequest] at h
    | some request =>
      simp only [hrequest, errorIf_eq_nil, Bool.not_eq_false'] at h ⊢
      by_cases huse : NamesNoUse p.metadata
      · rw [grantHolds_of_noUse huse] at h ⊢
        constructor
        · intro hlater _ grant' hgrant'
          obtain rfl := Option.some.inj hgrant'
          exact hlater.1
        · intro hwindow
          exact ⟨hwindow huse grant rfl, h.2⟩
      · rw [@grantHolds_of_use now _ _ _ _ _ huse, h]
        exact iff_of_true rfl (fun hno => absurd hno huse)

theorem projectionErrors_later {p : KnowledgeProjection} (h : projectionErrors now s p = .ok []) :
    projectionErrors later s p = .ok [] ↔ (p.lifecycleStatus = .official →
      NamesNoUse p.metadata → ∀ ref ∈ p.authorizationRefs, ∀ grant,
        State.find (k := .authorization) s.authorizations ref = some grant →
        outsideWindow grant later = false) := by
  by_cases hofficial : p.lifecycleStatus = .official
  · rw [projectionErrors, if_neg (not_not.mpr hofficial), Result.bind_eq_ok] at h ⊢
    simp only [Result.pure_eq_ok, List.append_eq_nil_iff, projectionAuthorizationErrors] at h ⊢
    obtain ⟨bindings, hbindings, ⟨⟨⟨htypes, hresolved⟩, hgranted⟩, hjudged⟩, hbound⟩ := h
    split_ifs at hgranted ⊢ with hnone
    rw [List.flatMap_eq_nil_iff] at hgranted
    have hlater (ref : String) (href : ref ∈ p.authorizationRefs) :=
      @projectionGrantErrors_later _ later _ _ _ (hgranted ref href)
    constructor
    · rintro ⟨_, -, ⟨⟨-, hgranted'⟩, -⟩, -⟩ - huse ref href
      exact (hlater ref href).mp (List.flatMap_eq_nil_iff.mp hgranted' ref href) huse
    · intro hwindow
      refine ⟨bindings, hbindings, ⟨⟨⟨htypes, hresolved⟩, ?_⟩, hjudged⟩, hbound⟩
      exact List.flatMap_eq_nil_iff.mpr (fun ref href =>
        (hlater ref href).mpr (fun huse => hwindow hofficial huse ref href))
  · rw [projectionErrors, if_pos hofficial] at h ⊢
    exact iff_of_true h (fun hp => absurd hp hofficial)

/-! ## Revisions -/

/-- A grant without complaints has its use, so the present instant never enters. -/
theorem revisionGrantErrors_later {record : BaseRecord} {grant : AuthorizationGrant}
    (h : revisionGrantErrors now s record grant = []) :
    revisionGrantErrors later s record grant = [] := by
  rw [revisionGrantErrors] at h ⊢
  cases huse : namedUse s record.metadata with
  | none =>
    simp only [huse, List.append_eq_nil_iff] at h
    exact absurd h.2 (List.cons_ne_nil _ _)
  | some use =>
    simp only [huse] at h ⊢
    exact h

theorem revisionAuthorizationErrors_later {record : BaseRecord}
    (h : revisionAuthorizationErrors now s record = .ok []) :
    revisionAuthorizationErrors later s record = .ok [] := by
  by_cases heffective : effectiveStatuses.contains record.lifecycleStatus = true
  · rw [revisionAuthorizationErrors, if_neg (by rw [heffective]; simp),
      Result.bind_eq_ok] at h ⊢
    obtain ⟨grant, hgrant, h⟩ := h
    refine ⟨grant, hgrant, ?_⟩
    cases grant with
    | none => exact h
    | some grant =>
      exact Result.pure_eq_ok.mpr (revisionGrantErrors_later (Result.pure_eq_ok.mp h))
  · rw [revisionAuthorizationErrors, if_pos (by simpa using heffective)] at h ⊢
    exact h

theorem revisionErrors_later {record : BaseRecord} (h : revisionErrors now s record = .ok []) :
    revisionErrors later s record = .ok [] := by
  by_cases htype : record.recordType = .revision
  · rw [revisionErrors, if_neg (not_not.mpr htype), Result.bind_eq_ok] at h ⊢
    obtain ⟨granted, hgranted, h⟩ := h
    obtain ⟨endpoints, hendpoints, herrors⟩ := Result.bind_eq_ok.mp h
    obtain ⟨rfl, rfl⟩ := List.append_eq_nil_iff.mp (Result.pure_eq_ok.mp herrors)
    exact ⟨[], revisionAuthorizationErrors_later hgranted,
      Result.bind_eq_ok.mpr ⟨[], hendpoints, rfl⟩⟩
  · rw [revisionErrors, if_pos htype]
    rfl

/-- A state that is valid now is valid later exactly when the grants of all promotions
that name no use still hold then. -/
theorem valid_later_iff {s : State} {now later : Time} (h : Valid now s) :
    Valid later s ↔ StillGranted later s := by
  have hok := valid_iff.mp h
  rw [valid_iff]
  constructor
  · intro hlater
    constructor
    · intro record hrecord
      exact (promotionErrors_later_iff (hok.promotions record hrecord)).mp
        (hlater.promotions record hrecord)
    · intro p hp
      exact (projectionErrors_later (hok.projections p hp)).mp (hlater.projections p hp)
  · intro hgranted
    exact { hok with
      promotions := fun record hrecord =>
        (promotionErrors_later_iff (hok.promotions record hrecord)).mpr
          (hgranted.records record hrecord)
      projections := fun p hp =>
        (projectionErrors_later (hok.projections p hp)).mpr (hgranted.projections p hp)
      revisions := fun record hrecord => revisionErrors_later (hok.revisions record hrecord) }

/-! ## A promotion under a grant that expires -/

def passingEvidence : BaseRecord :=
  { cls := .evidenceArtifact, id := "evidence_1", recordType := .evidenceArtifact, createdAt := 0,
    lifecycleStatus := .current,
    metadata := [("verification_result", .obj [("result", .str "pass")])],
    fields := [("kind", .str "closed-verification"), ("uri", .null), ("media_type", .null),
      ("checksum", .null)] }

def promotionGrant : AuthorizationGrant :=
  { id := "authz_1", createdAt := 0, principalRef := "owner", granteeRef := "worker",
    allowedCapabilities := ["policy.promote"], validFrom := 0, subjectVersionRefs := ["policy_1"] }

/-- A policy of some status and metadata. -/
def policyRecord (status : LifecycleStatus) (metadata : Fields)
    (h : validateOrthogonal .policy none status = true := by decide) : BaseRecord :=
  { cls := .policyRecord, id := "policy_1", recordType := .policy, createdAt := 0,
    lifecycleStatus := status, metadata, fields := [("policy_type", .str "generic"), ("rules", .arr [])],
    orthogonal := h }

def promotionMetadata : Fields :=
  [("previous_lifecycle_status", .str "candidate"), ("verification_ref", .str "evidence_1"),
   ("actor_ref", .str "worker"), ("resource_ref", .str "policy_1"),
   ("effect_class", .str "write-local")]

def expiringGrant : AuthorizationGrant :=
  { promotionGrant with expiresAt := some 10, checkTime := by decide }

/-- An official policy and its verification under a grant, with no use on record. -/
def promotedState (grant : AuthorizationGrant) : State
  | .record => [passingEvidence, policyRecord .official promotionMetadata]
  | .authorization => [grant]
  | _ => []

theorem valid_later_unexpiring : Valid 20 (promotedState promotionGrant) := by
  have hnow : Valid 5 (promotedState promotionGrant) := by decide
  refine (valid_later_iff hnow).mpr ⟨?_, ?_⟩
  · intro record hrecord hgated _
    rcases List.mem_cons.mp hrecord with rfl | hrecord
    · exact absurd hgated.1 (by decide)
    · obtain rfl := List.mem_singleton.mp hrecord
      exact ⟨promotionGrant, List.mem_singleton_self _,
        ⟨by decide, "policy.promote", _, rfl, rfl, rfl, by decide⟩, rfl⟩
  · intro p hp
    exact absurd hp List.not_mem_nil

/-- The state is refused once the grant has expired, though nothing in it has changed. -/
theorem promotedState_expires :
    ¬ ∀ (s : State) (now later : Time), now ≤ later → Valid now s → Valid later s := by
  intro h
  exact absurd (h (promotedState expiringGrant) 5 20 (by decide) (by decide))
    (by decide)

end PortableRuntime
