import PortableRuntime.Workflows.InvocationSpecification

/-!
# Specifications and their events

What the decoder accepts, and that the event of a specification is decoded to it.
-/

namespace PortableRuntime

theorem exists_unit {p : Unit → Prop} : (∃ u, p u) ↔ p () := by
  constructor
  · intro h
    obtain ⟨u, hu⟩ := h
    exact hu
  · exact fun h => ⟨(), h⟩

/-! ## Fields that are read -/

section Reading

variable {raw : Fields} {name : String}

theorem requiredStr_eq_ok {s : String} :
    requiredStr raw name = .ok s ↔ raw.get? name = some (.str s) := by
  unfold requiredStr
  split
  · next t hget => rw [hget, Except.ok.injEq, Option.some.injEq, Json.str.injEq]
  · next j hne hget =>
    rw [hget]
    constructor
    · intro h
      cases h
    · intro h
      exact absurd (Option.some.inj h) (hne s)
  · next hget =>
    rw [hget]
    constructor
    · intro h
      cases h
    · intro h
      cases h

theorem optionalStr_eq_ok {o : Option String} : optionalStr raw name = .ok o ↔
    raw.get? name = some (.ofOption o) ∨ raw.get? name = none ∧ o = none := by
  unfold optionalStr
  split
  · next s hget =>
    rw [hget]
    cases o with
    | none =>
      constructor
      · intro h
        cases h
      · intro h
        cases h with
        | inl h => cases h
        | inr h => cases h.1
    | some t => simp [Json.ofOption]
  · next hget =>
    rw [hget]
    cases o <;> simp [Json.ofOption]
  · next j hstr hnull hget =>
    rw [hget]
    cases o with
    | none =>
      constructor
      · intro h
        cases h
      · intro h
        cases h with
        | inl h => exact absurd (Option.some.inj h) hnull
        | inr h => cases h.1
    | some t =>
      constructor
      · intro h
        cases h
      · intro h
        cases h with
        | inl h => exact absurd (Option.some.inj h) (hstr t)
        | inr h => cases h.1
  · next hget =>
    rw [hget]
    cases o <;> simp

theorem forbidExtra_eq_ok {names : List String} :
    forbidExtra raw names = .ok () ↔ ∀ name ∈ raw.names, name ∈ names := by
  rw [forbidExtra, guardValue_eq_ok, List.all_eq_true, Fields.names, List.forall_mem_map]
  simp only [List.contains_eq_mem, decide_eq_true_eq]

end Reading

section Decoding

variable {sha : String → String}

/-- A dictionary that is read as a replay binding holds its fields and no others. -/
structure ReadsBinding (raw : Fields) (b : ProviderReplayBinding) : Prop where
  names : ∀ name ∈ raw.names, name ∈ replayBindingFields
  providerId : raw.get? "provider_id" = some (.str b.providerId)
  providerVersion : raw.get? "provider_version" = some (.str b.providerVersion)
  providerBindingId : raw.get? "provider_binding_id" = some (.str b.providerBindingId)
  semanticContractDigest :
    raw.get? "semantic_contract_digest" = some (.str b.semanticContractDigest)
  descriptorDigest : raw.get? "descriptor_digest" = some (.str b.descriptorDigest)
  bindingDigest : raw.get? "binding_digest" = some (.str b.bindingDigest)

theorem ProviderReplayBinding.modelValidate_eq_ok {j : Json} {b : ProviderReplayBinding} :
    ProviderReplayBinding.modelValidate sha j = .ok b ↔
      ∃ raw, j = .obj raw ∧ ReadsBinding raw b ∧ b.validate sha = .ok () := by
  cases j with
  | obj raw =>
    simp only [ProviderReplayBinding.modelValidate, Result.bind_eq_ok, exists_unit,
      forbidExtra_eq_ok, requiredStr_eq_ok, Result.pure_eq_ok]
    constructor
    · intro h
      obtain ⟨hnames, _, h1, _, h2, _, h3, _, h4, _, h5, _, h6, hvalid, rfl⟩ := h
      exact ⟨raw, rfl, ⟨hnames, h1, h2, h3, h4, h5, h6⟩, hvalid⟩
    · intro h
      obtain ⟨raw', hraw, h, hvalid⟩ := h
      obtain rfl := Json.obj.inj hraw
      exact ⟨h.names, _, h.providerId, _, h.providerVersion, _, h.providerBindingId, _,
        h.semanticContractDigest, _, h.descriptorDigest, _, h.bindingDigest, hvalid, rfl⟩
  | _ =>
    constructor
    · intro h
      cases h
    · intro h
      obtain ⟨raw, hraw, -⟩ := h
      cases hraw

/-- A dictionary that is read as a specification holds its fields and no others; a field that
is `None` may be left out. -/
structure ReadsSpecification (raw : Fields) (s : DurableInvocationSpecification) : Prop where
  names : ∀ name ∈ raw.names, name ∈ specificationFields
  id : raw.get? "id" = some (.str s.id)
  semanticIdentity : raw.get? "semantic_identity" = some (.str s.semanticIdentity)
  canonicalSemanticPayload :
    raw.get? "canonical_semantic_payload" = some (.str s.canonicalSemanticPayload)
  semanticContractDigest :
    raw.get? "semantic_contract_digest" = some (.str s.semanticContractDigest)
  providerBinding : ∃ binding, raw.get? "provider_binding" = some (.obj binding) ∧
    ReadsBinding binding s.providerBinding
  sourceRequestRef : raw.get? "source_request_ref" = some (.str s.sourceRequestRef)
  sourceWorkRef : raw.get? "source_work_ref" = some (.ofOption s.sourceWorkRef) ∨
    raw.get? "source_work_ref" = none ∧ s.sourceWorkRef = none
  sourceRunRef : raw.get? "source_run_ref" = some (.ofOption s.sourceRunRef) ∨
    raw.get? "source_run_ref" = none ∧ s.sourceRunRef = none
  idempotencyKey : raw.get? "idempotency_key" = some (.ofOption s.idempotencyKey) ∨
    raw.get? "idempotency_key" = none ∧ s.idempotencyKey = none
  effectSemantics : raw.get? "effect_semantics" = some (.str s.effectSemantics)

theorem DurableInvocationSpecification.modelValidate_eq_ok {raw : Fields}
    {s : DurableInvocationSpecification} :
    DurableInvocationSpecification.modelValidate sha raw = .ok s ↔
      ReadsSpecification raw s ∧ s.providerBinding.validate sha = .ok () ∧
        s.validate sha = .ok () := by
  have hbinding {b : ProviderReplayBinding} :
      (∃ binding, raw.get "provider_binding" = .obj binding ∧ ReadsBinding binding b ∧
          b.validate sha = .ok ()) ↔
        (∃ binding, raw.get? "provider_binding" = some (.obj binding) ∧ ReadsBinding binding b) ∧
          b.validate sha = .ok () := by
    rw [Fields.get]
    cases raw.get? "provider_binding" with
    | none => simp
    | some v => simp [← and_assoc, exists_and_right]
  simp only [DurableInvocationSpecification.modelValidate, Result.bind_eq_ok, exists_unit,
    forbidExtra_eq_ok, requiredStr_eq_ok, optionalStr_eq_ok, Result.pure_eq_ok,
    ProviderReplayBinding.modelValidate_eq_ok, hbinding]
  constructor
  · intro h
    obtain ⟨hnames, _, h1, _, h2, _, h3, _, h4, _, ⟨h5, hb⟩, _, h6, _, h7, _, h8, _, h9, _, h10,
      hvalid, rfl⟩ := h
    exact ⟨⟨hnames, h1, h2, h3, h4, h5, h6, h7, h8, h9, h10⟩, hb, hvalid⟩
  · intro h
    obtain ⟨h, hb, hvalid⟩ := h
    exact ⟨h.names, _, h.id, _, h.semanticIdentity, _, h.canonicalSemanticPayload, _,
      h.semanticContractDigest, _, ⟨h.providerBinding, hb⟩, _, h.sourceRequestRef, _,
      h.sourceWorkRef, _, h.sourceRunRef, _, h.idempotencyKey, _, h.effectSemantics, hvalid, rfl⟩

/-- An event that is accepted, and the specification it is decoded to. -/
structure Decoded (sha : String → String) (event : Event) (raw : Fields)
    (s : DurableInvocationSpecification) : Prop where
  type : event.type = invocationSpecificationEventType
  schema : event.payload.get "schema" = .str invocationSpecificationSchema
  specification : event.payload.get "specification" = .obj raw
  reads : ReadsSpecification raw s
  binding : s.providerBinding.validate sha = .ok ()
  valid : s.validate sha = .ok ()
  id : s.id = event.id
  subject : s.sourceRequestRef = event.subjectRef
  identity : s.id = s.identity sha

theorem invocationSpecificationFromEvent_eq_ok {event : Event}
    {s : DurableInvocationSpecification} :
    invocationSpecificationFromEvent sha event = .ok s ↔ ∃ raw, Decoded sha event raw s := by
  have hfields {raw : Fields} : (event.payload.get "specification").asFields? = some raw ↔
      event.payload.get "specification" = .obj raw := by
    cases event.payload.get "specification" <;> simp [Json.asFields?]
  simp only [invocationSpecificationFromEvent, Result.bind_eq_ok, exists_unit, guardValue_eq_ok,
    beq_iff_eq, Json.eqStr, Json.pyEq_str, orRaise_eq_ok, hfields,
    DurableInvocationSpecification.modelValidate_eq_ok, Result.pure_eq_ok]
  constructor
  · intro h
    obtain ⟨htype, hschema, raw, hraw, _, ⟨hreads, hbinding, hvalid⟩, hid, hsubject, hidentity,
      rfl⟩ := h
    exact ⟨raw, htype, hschema, hraw, hreads, hbinding, hvalid, hid, hsubject, hidentity⟩
  · intro h
    obtain ⟨raw, h⟩ := h
    exact ⟨h.type, h.schema, raw, h.specification, s, ⟨h.reads, h.binding, h.valid⟩, h.id,
      h.subject, h.identity, rfl⟩

/-! ## The event of a specification -/

theorem readsBinding_dump (b : ProviderReplayBinding) : ReadsBinding b.dump b where
  names := fun _ h => h
  providerId := rfl
  providerVersion := rfl
  providerBindingId := rfl
  semanticContractDigest := rfl
  descriptorDigest := rfl
  bindingDigest := rfl

theorem readsSpecification_dump (s : DurableInvocationSpecification) :
    ReadsSpecification s.dump s where
  names := fun _ h => h
  id := rfl
  semanticIdentity := rfl
  canonicalSemanticPayload := rfl
  semanticContractDigest := rfl
  providerBinding := ⟨s.providerBinding.dump, rfl, readsBinding_dump s.providerBinding⟩
  sourceRequestRef := rfl
  sourceWorkRef := .inl rfl
  sourceRunRef := .inl rfl
  idempotencyKey := .inl rfl
  effectSemantics := rfl

theorem decoded_event {s : DurableInvocationSpecification} (now : Time)
    (hbinding : s.providerBinding.validate sha = .ok ()) (hvalid : s.validate sha = .ok ())
    (hidentity : s.id = s.identity sha) :
    Decoded sha (invocationSpecificationEvent now s) s.dump s where
  type := rfl
  schema := rfl
  specification := rfl
  reads := readsSpecification_dump s
  binding := hbinding
  valid := hvalid
  id := rfl
  subject := rfl
  identity := hidentity

/-! ## What is built -/

section Building

variable {request : SemanticRequest} {context : InvocationContext} {descriptor : ReplayDescriptor}
  {contract : ProviderSemanticContract} {bindingId : String} {s : DurableInvocationSpecification}

theorem buildProviderReplayBinding_valid {b : ProviderReplayBinding}
    (h : buildProviderReplayBinding sha descriptor contract bindingId = .ok b) :
    b.validate sha = .ok () := by
  obtain ⟨-, h⟩ := Result.check_eq_ok.mp h
  obtain ⟨-, h⟩ := Result.check_eq_ok.mp h
  obtain ⟨hvalid, h⟩ := Result.check_eq_ok.mp h
  rw [← Except.ok.inj h]
  exact hvalid

/-- What a specification that was built has gone through. -/
theorem buildInvocationSpecification_eq_ok
    (h : buildInvocationSpecification sha request context descriptor contract bindingId = .ok s) :
    Acceptable request context contract ∧
      s.projection = semanticProjection sha request context contract ∧
      s.providerBinding.validate sha = .ok () ∧ s.validate sha = .ok () ∧
      s.id = s.identity sha := by
  obtain ⟨-, h⟩ := Result.check_eq_ok.mp h
  obtain ⟨-, h⟩ := Result.check_eq_ok.mp h
  obtain ⟨p, hproject, h⟩ := Result.bind_eq_ok.mp h
  obtain ⟨binding, hbinding, h⟩ := Result.bind_eq_ok.mp h
  obtain ⟨-, h⟩ := Result.check_eq_ok.mp h
  obtain ⟨hvalid, h⟩ := Result.check_eq_ok.mp h
  obtain ⟨hacceptable, rfl⟩ := projectProviderSemantics_eq_ok.mp hproject
  rw [← Except.ok.inj h]
  exact ⟨hacceptable, rfl, buildProviderReplayBinding_valid hbinding, hvalid, rfl⟩

theorem sourceWorkRef_of_build
    (h : buildInvocationSpecification sha request context descriptor contract bindingId = .ok s) :
    s.sourceWorkRef = request.workId := by
  obtain ⟨-, h⟩ := Result.check_eq_ok.mp h
  obtain ⟨-, h⟩ := Result.check_eq_ok.mp h
  obtain ⟨p, -, h⟩ := Result.bind_eq_ok.mp h
  obtain ⟨binding, -, h⟩ := Result.bind_eq_ok.mp h
  obtain ⟨-, h⟩ := Result.check_eq_ok.mp h
  obtain ⟨-, h⟩ := Result.check_eq_ok.mp h
  rw [← Except.ok.inj h]

/-- When a request can be recorded. -/
structure Buildable (request : SemanticRequest) (context : InvocationContext)
    (descriptor : ReplayDescriptor) (contract : ProviderSemanticContract) (bindingId : String) :
    Prop where
  provider : descriptor.id = contract.providerId
  capability : request.capability ∈ descriptor.capabilities
  acceptable : Acceptable request context contract
  bound : Text.nonBlank bindingId = true
  stronger : Text.strip bindingId ≠ descriptor.id
  keyed : isRetryIdempotent descriptor.effectSemantics = true → truthy request.idempotencyKey = true

theorem exists_buildProviderReplayBinding
    (h : Buildable request context descriptor contract bindingId) :
    ∃ b, buildProviderReplayBinding sha descriptor contract bindingId = .ok b ∧
      b.semanticContractDigest = contract.digest sha ∧ b.providerId = contract.providerId := by
  have hbound : Text.nonBlank (Text.strip bindingId) = true :=
    (Text.nonBlank_strip bindingId).trans h.bound
  have hstable : Text.strip bindingId ≠ "" := by
    intro hempty
    rw [hempty] at hbound
    exact Bool.noConfusion hbound
  refine ⟨_, Result.check_eq_ok.mpr ⟨?_, Result.check_eq_ok.mpr ⟨?_,
    Result.check_eq_ok.mpr ⟨?_, rfl⟩⟩⟩, rfl, h.provider⟩
  · rw [guardValue_eq_ok, Bool.and_eq_true, bne_iff_ne, bne_iff_ne]
    exact ⟨hstable, h.stronger⟩
  · rw [guardValue_eq_ok, beq_iff_eq]
    exact h.provider
  · rw [ProviderReplayBinding.validate, Result.check_eq_ok, guardValue_eq_ok, guardValue_eq_ok,
      Bool.and_eq_true, bne_iff_ne]
    exact ⟨beq_iff_eq.mpr rfl, hbound, h.stronger⟩

theorem exists_buildInvocationSpecification
    (h : Buildable request context descriptor contract bindingId) :
    ∃ s, buildInvocationSpecification sha request context descriptor contract bindingId = .ok s := by
  obtain ⟨binding, hbinding, hdigest, hprovider⟩ :=
    @exists_buildProviderReplayBinding sha _ _ _ _ _ h
  refine ⟨_, Result.check_eq_ok.mpr ⟨?_, Result.check_eq_ok.mpr ⟨?_, Result.bind_eq_ok.mpr ⟨_,
    projectProviderSemantics_eq_ok.mpr ⟨h.acceptable, rfl⟩, Result.bind_eq_ok.mpr ⟨_, hbinding,
    Result.check_eq_ok.mpr ⟨?_, Result.check_eq_ok.mpr ⟨?_, rfl⟩⟩⟩⟩⟩⟩⟩
  · rw [guardValue_eq_ok, beq_iff_eq]
    exact h.provider
  · rw [guardValue_eq_ok, List.contains_eq_mem, decide_eq_true_eq]
    exact h.capability
  · rw [guardValue_eq_ok, Bool.not_eq_true', Bool.and_eq_false_iff]
    by_cases hretry : isRetryIdempotent descriptor.effectSemantics = true
    · right
      rw [h.keyed hretry]
      rfl
    · left
      exact Bool.not_eq_true _ ▸ hretry
  · obtain ⟨fields, hpayload, -, hid⟩ := @payload_semanticProjection sha request context contract
    refine Result.check_eq_ok.mpr ⟨validate_semanticProjection, Result.check_eq_ok.mpr ⟨?_,
      Result.bind_eq_ok.mpr ⟨fields, hpayload, ?_⟩⟩⟩
    · rw [guardValue_eq_ok, beq_iff_eq]
      exact hdigest
    · rw [guardValue_eq_ok, hid]
      exact beq_iff_eq.mpr hprovider.symm

end Building

/-! ## One identity, one specification -/

theorem Json.canon_ofOption_inj {a b : Option String}
    (h : (Json.ofOption a).canon = (Json.ofOption b).canon) : a = b := by
  cases a with
  | none =>
    cases b with
    | none => rfl
    | some t => cases h
  | some s =>
    cases b with
    | none => cases h
    | some t => exact congrArg some (Json.str.inj h)

/-- A validated binding is its digest. -/
theorem ProviderReplayBinding.eq_of_digest (hsha : Function.Injective sha)
    {b b' : ProviderReplayBinding} (hb : b.validate sha = .ok ()) (hb' : b'.validate sha = .ok ())
    (h : b.bindingDigest = b'.bindingDigest) : b = b' := by
  obtain ⟨hdigest, -⟩ := Result.check_eq_ok.mp hb
  obtain ⟨hdigest', -⟩ := Result.check_eq_ok.mp hb'
  rw [guardValue_eq_ok, beq_iff_eq] at hdigest hdigest'
  have hnames (b : ProviderReplayBinding) : Fields.names
      (("schema", .str "provider-replay-binding-v1") :: b.dump.dropLast) |>.Nodup := by
    show List.Nodup ["schema", "provider_id", "provider_version", "provider_binding_id",
      "semantic_contract_digest", "descriptor_digest"]
    decide
  have hdocument (b : ProviderReplayBinding) : (Json.obj
      (("schema", .str "provider-replay-binding-v1") :: b.dump.dropLast)).isDocument = true := by
    refine Json.isDocument_obj.mpr ⟨hnames b, ?_⟩
    simp only [ProviderReplayBinding.dump, List.dropLast, List.forall_mem_cons, List.not_mem_nil,
      false_imp_iff, implies_true, and_true]
    exact ⟨rfl, rfl, rfl, rfl, rfl, rfl⟩
  have htext : sha _ = sha _ := hdigest.symm.trans (h.trans hdigest')
  have hcanon := (Json.canonicalJson_inj (hdocument b) (hdocument b')).mp (hsha htext)
  have hget := (Json.canon_obj_eq_iff (hnames b) (hnames b')).mp hcanon
  obtain ⟨p, v, i, c, d, g⟩ := b
  obtain ⟨p', v', i', c', d', g'⟩ := b'
  have hp : p = p' := Json.str.inj (Option.some.inj (hget "provider_id"))
  have hv : v = v' := Json.str.inj (Option.some.inj (hget "provider_version"))
  have hi : i = i' := Json.str.inj (Option.some.inj (hget "provider_binding_id"))
  have hc : c = c' := Json.str.inj (Option.some.inj (hget "semantic_contract_digest"))
  have hd : d = d' := Json.str.inj (Option.some.inj (hget "descriptor_digest"))
  have hg : g = g' := h
  rw [hp, hv, hi, hc, hd, hg]

theorem canonicalPayload_eq_of_identity (hsha : Function.Injective sha)
    {p p' : ProviderSemanticProjection} (hp : p.validate sha = .ok ())
    (hp' : p'.validate sha = .ok ()) (h : p.identity = p'.identity) :
    p.canonicalPayload = p'.canonicalPayload := by
  obtain ⟨hidentity, -⟩ := Result.check_eq_ok.mp hp
  obtain ⟨hidentity', -⟩ := Result.check_eq_ok.mp hp'
  rw [guardValue_eq_ok, beq_iff_eq] at hidentity hidentity'
  have htext : projectionIdentity sha p.canonicalPayload = projectionIdentity sha p'.canonicalPayload :=
    hidentity.symm.trans (h.trans hidentity')
  exact hsha ((String.append_right_inj _).mp htext)

theorem nodup_identityPayload (s : DurableInvocationSpecification) :
    s.identityPayload.names.Nodup := by
  show List.Nodup ["schema", "semantic_identity", "semantic_contract_digest",
    "provider_binding_digest", "source_request_ref", "source_work_ref", "source_run_ref",
    "idempotency_key", "effect_semantics"]
  decide

theorem identity_injective (hsha : Function.Injective sha) {s s' : DurableInvocationSpecification}
    (h : s.identity sha = s'.identity sha) :
    (Json.obj s.identityPayload).canon = (Json.obj s'.identityPayload).canon := by
  have hdocument (s : DurableInvocationSpecification) :
      (Json.obj s.identityPayload).isDocument = true := by
    refine Json.isDocument_obj.mpr ⟨nodup_identityPayload s, ?_⟩
    simp only [DurableInvocationSpecification.identityPayload, List.forall_mem_cons,
      List.not_mem_nil, false_imp_iff, implies_true, and_true, true_and, Json.isDocument_ofOption]
    exact ⟨rfl, rfl, rfl, rfl, rfl, rfl⟩
  rw [← Json.canonicalJson_inj (hdocument s) (hdocument s')]
  exact hsha ((String.append_right_inj _).mp h)

/-- Two accepted events under one id carry one specification. -/
theorem Decoded.specification_eq (hsha : Function.Injective sha) {event event' : Event}
    {raw raw' : Fields} {s s' : DurableInvocationSpecification} (h : Decoded sha event raw s)
    (h' : Decoded sha event' raw' s') (hid : event.id = event'.id) : s = s' := by
  have hids : s.id = s'.id := h.id.trans (hid.trans h'.id.symm)
  have hcanon := identity_injective hsha (h.identity.symm.trans (hids.trans h'.identity))
  have hget := (Json.canon_obj_eq_iff (nodup_identityPayload s) (nodup_identityPayload s')).mp hcanon
  have hsemantic : s.semanticIdentity = s'.semanticIdentity :=
    Json.str.inj (Option.some.inj (hget "semantic_identity"))
  have hpayload : s.canonicalSemanticPayload = s'.canonicalSemanticPayload :=
    canonicalPayload_eq_of_identity hsha (Result.check_eq_ok.mp h.valid).1
      (Result.check_eq_ok.mp h'.valid).1 hsemantic
  have hcontract : s.semanticContractDigest = s'.semanticContractDigest :=
    Json.str.inj (Option.some.inj (hget "semantic_contract_digest"))
  have hbinding : s.providerBinding = s'.providerBinding :=
    ProviderReplayBinding.eq_of_digest hsha h.binding h'.binding
      (Json.str.inj (Option.some.inj (hget "provider_binding_digest")))
  have hrequest : s.sourceRequestRef = s'.sourceRequestRef :=
    Json.str.inj (Option.some.inj (hget "source_request_ref"))
  have hwork : s.sourceWorkRef = s'.sourceWorkRef :=
    Json.canon_ofOption_inj (Option.some.inj (hget "source_work_ref"))
  have hrun : s.sourceRunRef = s'.sourceRunRef :=
    Json.canon_ofOption_inj (Option.some.inj (hget "source_run_ref"))
  have hkey : s.idempotencyKey = s'.idempotencyKey :=
    Json.canon_ofOption_inj (Option.some.inj (hget "idempotency_key"))
  have heffect : s.effectSemantics = s'.effectSemantics :=
    Json.str.inj (Option.some.inj (hget "effect_semantics"))
  cases s
  cases s'
  simp only at hids hsemantic hpayload hcontract hbinding hrequest hwork hrun hkey heffect
  rw [hids, hsemantic, hpayload, hcontract, hbinding, hrequest, hwork, hrun, hkey, heffect]

end Decoding
end PortableRuntime
