import PortableRuntime.Workflows.SpecificationCodec

/-!
# The encoding of specifications is faithful

An event is accepted only as the encoding of the specification it is decoded to, but for
optional fields that are `None` and left out, and its id determines that specification.
-/

namespace PortableRuntime

/-! ## Equality with a dictionary whose fields are known -/

theorem Fields.pyEq_of_forall {fields full : Fields} (hnodup : full.names.Nodup)
    (hnames : ∀ name ∈ fields.names, name ∈ full.names)
    (h : ∀ f ∈ full, ∃ v, fields.get? f.1 = some v ∧ v.pyEq f.2 = true) :
    fields.pyEq full = true := by
  refine Json.pyEq_obj_iff.mpr ⟨fun name hname => ?_, fun name v hget => ?_⟩
  · obtain ⟨f, hf, rfl⟩ := List.mem_map.mp hname
    obtain ⟨v, hget, -⟩ := h f hf
    exact Fields.get?_isSome_iff.mp (by rw [hget]; rfl)
  · have hname : name ∈ fields.names := Fields.get?_isSome_iff.mp (by rw [hget]; rfl)
    obtain ⟨f, hf, rfl⟩ := List.mem_map.mp (hnames name hname)
    obtain ⟨w, hw, heq⟩ := h f hf
    rw [hget] at hw
    exact ⟨f.2, (Fields.get?_eq_some_iff hnodup).mpr hf, Option.some.inj hw ▸ heq⟩

/-- The fields of a specification that are `None` by default. -/
def noneByDefault : List String := ["source_work_ref", "source_run_ref", "idempotency_key"]

/-- A dictionary with the defaults that it leaves out. -/
def withDefaults (raw : Fields) : Fields :=
  raw ++ (noneByDefault.filter (fun name => !raw.has name)).map (fun name => (name, .null))

theorem get?_withDefaults (raw : Fields) (name : String) : (withDefaults raw).get? name =
    (raw.get? name).or (if name ∈ noneByDefault then some .null else none) := by
  rw [withDefaults, Fields.get?_append]
  cases hraw : raw.get? name with
  | some v => rw [Option.some_or, Option.some_or]
  | none =>
    have hhas : (!raw.has name) = true := by rw [Fields.has, hraw]; rfl
    have hdefaults (names : List String) :
        Fields.get? name ((names.filter (fun name => !raw.has name)).map (fun name => (name, .null))) =
          if name ∈ names then some .null else none := by
      induction names with
      | nil => rfl
      | cons key rest ih =>
        by_cases hkey : key = name
        · subst hkey
          rw [List.filter_cons, if_pos hhas, List.map_cons, Fields.get?, if_pos rfl,
            if_pos List.mem_cons_self]
        · have hmem : (name ∈ key :: rest) ↔ name ∈ rest := by
            rw [List.mem_cons]
            exact or_iff_right (Ne.symm hkey)
          by_cases hpresent : (!raw.has key) = true
          · rw [List.filter_cons, if_pos hpresent, List.map_cons, Fields.get?, if_neg hkey, ih]
            simp only [hmem]
          · rw [List.filter_cons, if_neg hpresent, ih]
            simp only [hmem]
    rw [Option.none_or, Option.none_or, hdefaults]

section Reading

variable {raw : Fields}

theorem pyEq_of_readsBinding {b : ProviderReplayBinding} (h : ReadsBinding raw b) :
    Fields.pyEq raw b.dump = true := by
  refine Fields.pyEq_of_forall ?_ h.names ?_
  · show List.Nodup replayBindingFields
    decide
  · simp only [ProviderReplayBinding.dump, List.forall_mem_cons, List.not_mem_nil, false_imp_iff,
      implies_true, and_true]
    exact ⟨⟨_, h.providerId, Json.pyEq_refl _⟩, ⟨_, h.providerVersion, Json.pyEq_refl _⟩,
      ⟨_, h.providerBindingId, Json.pyEq_refl _⟩, ⟨_, h.semanticContractDigest, Json.pyEq_refl _⟩,
      ⟨_, h.descriptorDigest, Json.pyEq_refl _⟩, ⟨_, h.bindingDigest, Json.pyEq_refl _⟩⟩

/-- What is read as a specification is its encoding, once the defaults are filled in. -/
theorem pyEq_of_readsSpecification {s : DurableInvocationSpecification}
    (h : ReadsSpecification raw s) : Fields.pyEq (withDefaults raw) s.dump = true := by
  have hpresent {name : String} {v : Json} (hget : raw.get? name = some v) :
      ∃ w, Fields.get? name (withDefaults raw) = some w ∧ w.pyEq v = true :=
    ⟨v, by rw [get?_withDefaults, hget, Option.some_or], Json.pyEq_refl v⟩
  have hoptional {name : String} {o : Option String} (hname : name ∈ noneByDefault)
      (hget : raw.get? name = some (.ofOption o) ∨ raw.get? name = none ∧ o = none) :
      ∃ w, Fields.get? name (withDefaults raw) = some w ∧ w.pyEq (.ofOption o) = true := by
    cases hget with
    | inl hget => exact hpresent hget
    | inr hget =>
      refine ⟨.null, ?_, ?_⟩
      · rw [get?_withDefaults, hget.1, Option.none_or, if_pos hname]
      · rw [hget.2]
        rfl
  refine Fields.pyEq_of_forall ?_ ?_ ?_
  · show List.Nodup specificationFields
    decide
  · intro name hname
    have hsome := Fields.get?_isSome_iff.mpr hname
    rw [get?_withDefaults, Option.isSome_or, Bool.or_eq_true] at hsome
    cases hsome with
    | inl hraw => exact h.names name (Fields.get?_isSome_iff.mp hraw)
    | inr hdefault =>
      have hmem : name ∈ noneByDefault := by
        by_contra hnot
        rw [if_neg hnot] at hdefault
        exact Bool.noConfusion hdefault
      have hall : ∀ name ∈ noneByDefault, name ∈ specificationFields := by decide
      exact hall name hmem
  · obtain ⟨binding, hbinding, hreads⟩ := h.providerBinding
    simp only [DurableInvocationSpecification.dump, List.forall_mem_cons, List.not_mem_nil,
      false_imp_iff, implies_true, and_true]
    refine ⟨hpresent h.id, hpresent h.semanticIdentity, hpresent h.canonicalSemanticPayload,
      hpresent h.semanticContractDigest, ⟨.obj binding, ?_, pyEq_of_readsBinding hreads⟩,
      hpresent h.sourceRequestRef, hoptional (by decide) h.sourceWorkRef,
      hoptional (by decide) h.sourceRunRef, hoptional (by decide) h.idempotencyKey,
      hpresent h.effectSemantics⟩
    rw [get?_withDefaults, hbinding, Option.some_or]

end Reading

/-- An event is the encoding of a specification, but for `None` fields that are left out. -/
structure Encodes (event : Event) (s : DurableInvocationSpecification) : Prop where
  type : event.type = invocationSpecificationEventType
  id : event.id = s.id
  subject : event.subjectRef = s.sourceRequestRef
  schema : event.payload.get "schema" = .str invocationSpecificationSchema
  specification : ∃ raw, event.payload.get "specification" = .obj raw ∧
    Fields.pyEq (withDefaults raw) s.dump = true

/-- Every extra and every context metadata key is declared, and a request metadata key is
declared or among those that are known to be no semantics. -/
structure Declared (request : SemanticRequest) (context : InvocationContext)
    (contract : ProviderSemanticContract) : Prop where
  requestExtra : ∀ key ∈ request.extra.names, key ∈ contract.requestExtraExtensions.keys
  contextExtra : ∀ key ∈ context.extra.names, key ∈ contract.contextExtraExtensions.keys
  contextMetadata : ∀ key ∈ context.metadata.names, key ∈ contract.contextMetadataExtensions.keys
  requestMetadata : ∀ key ∈ request.metadata.names,
    key ∈ nonSemanticRequestMetadata ∨ key ∈ contract.requestMetadataExtensions.keys

theorem Acceptable.declared {request : SemanticRequest} {context : InvocationContext}
    {contract : ProviderSemanticContract} (h : Acceptable request context contract) :
    Declared request context contract where
  requestExtra := fun key hkey => (h.requestExtra.known key hkey).resolve_left List.not_mem_nil
  contextExtra := fun key hkey => (h.contextExtra.known key hkey).resolve_left List.not_mem_nil
  contextMetadata := fun key hkey =>
    (h.contextMetadata.known key hkey).resolve_left List.not_mem_nil
  requestMetadata := h.requestMetadata.known

/-- The encoding of specifications is faithful. -/
theorem invocationSpecification_faithful (sha : String → String) (hsha : Function.Injective sha) :
    (∀ now request context descriptor contract bindingId s,
      buildInvocationSpecification sha request context descriptor contract bindingId = .ok s →
        invocationSpecificationFromEvent sha (invocationSpecificationEvent now s) = .ok s) ∧
    (∀ event s, invocationSpecificationFromEvent sha event = .ok s → Encodes event s ∧
      (∀ now, invocationSpecificationFromEvent sha (invocationSpecificationEvent now s) = .ok s) ∧
      ∀ event' s', invocationSpecificationFromEvent sha event' = .ok s' → event'.id = event.id →
        s' = s) ∧
    (∀ request request' context context' descriptor descriptor' contract bindingId bindingId' s s',
      buildInvocationSpecification sha request context descriptor contract bindingId = .ok s →
      buildInvocationSpecification sha request' context' descriptor' contract bindingId' = .ok s' →
        (s.semanticIdentity = s'.semanticIdentity ↔
          SameSemantics contract request request' context context')) ∧
    (∀ request context descriptor contract bindingId s,
      buildInvocationSpecification sha request context descriptor contract bindingId = .ok s →
        Declared request context contract) := by
  refine ⟨?_, ?_, ?_, ?_⟩
  · intro now request context descriptor contract bindingId s hbuild
    obtain ⟨-, -, hbinding, hvalid, hidentity⟩ := buildInvocationSpecification_eq_ok hbuild
    exact invocationSpecificationFromEvent_eq_ok.mpr
      ⟨_, decoded_event now hbinding hvalid hidentity⟩
  · intro event s hdecode
    obtain ⟨raw, h⟩ := invocationSpecificationFromEvent_eq_ok.mp hdecode
    refine ⟨⟨h.type, h.id.symm, h.subject.symm, h.schema, raw, h.specification,
      pyEq_of_readsSpecification h.reads⟩, fun now => ?_, fun event' s' hdecode' hid => ?_⟩
    · exact invocationSpecificationFromEvent_eq_ok.mpr
        ⟨_, decoded_event now h.binding h.valid h.identity⟩
    · obtain ⟨raw', h'⟩ := invocationSpecificationFromEvent_eq_ok.mp hdecode'
      exact h'.specification_eq hsha h hid
  · intro request request' context context' descriptor descriptor' contract bindingId bindingId' s s'
      hbuild hbuild'
    obtain ⟨-, hprojection, -⟩ := buildInvocationSpecification_eq_ok hbuild
    obtain ⟨-, hprojection', -⟩ := buildInvocationSpecification_eq_ok hbuild'
    rw [← identity_semanticProjection_iff hsha, ← hprojection, ← hprojection']
    rfl
  · intro request context descriptor contract bindingId s hbuild
    exact (buildInvocationSpecification_eq_ok hbuild).1.declared

namespace Recording

theorem request_documents : ∀ d ∈ ([[], [], [("authorization_refs", .arr [])], []] : List Fields),
    (Json.obj d).isDocument = true := by decide

def request : SemanticRequest :=
  { id := "request-1", capability := "notes.read",
    metadata := [("authorization_refs", .arr [])], documents := request_documents }

theorem context_documents : ∀ d ∈ ([[], []] : List Fields), (Json.obj d).isDocument = true := by
  decide

def context : InvocationContext := { runtimeId := "runtime-1", documents := context_documents }

def descriptor : ReplayDescriptor :=
  { id := "provider-1", name := "Notes", version := "1", capabilities := ["notes.read"] }

def contractFields : SemanticContractFields :=
  { id := "contract-1", version := "1", providerId := "provider-1",
    requestSemanticFields := ["capability"] }

theorem contractFields_valid : contractFields.validate = .ok () := by rfl

def contract : ProviderSemanticContract :=
  { toSemanticContractFields := contractFields, valid := contractFields_valid }

def contractDigest : String := "e0dbec4a2f4093610fdd58c92811e4d724091659c46d86688459d32b42dad2d8"

def projectionDigest : String := "93d3d29923a796390f62188f545d22b65bfadeb31781cd600cbc99734cb150eb"

def descriptorDigest : String := "9201e549fbe52c3d1ccf5126e1060b496277e2ba844abc5b6786f9de466980ad"

def replayDigest : String := "f2e4f8c268c8360299a9226fc560f2cbc58ef1a8147375d4dca0c615f26daa39"

def identityDigest : String := "7c322de5ed88479963dc96b34d6b45876de0b42b744de4bfbd0d108a7e1068a4"

/-- The values that are hashed here, with the digests of their texts. -/
def digests : List (Fields × String) :=
  [(("schema", .str "provider-semantic-contract-v1") :: contract.dump, contractDigest),
    (semanticPayload (fun _ => contractDigest) request context contract, projectionDigest),
    (descriptor.payload, descriptorDigest),
    ([("schema", .str "provider-replay-binding-v1"), ("provider_id", .str "provider-1"),
      ("provider_version", .str "1"), ("provider_binding_id", .str "binding-1"),
      ("semantic_contract_digest", .str contractDigest),
      ("descriptor_digest", .str descriptorDigest)], replayDigest),
    ([("schema", .str invocationSpecificationSchema),
      ("semantic_identity", .str ("provider_semantics_" ++ projectionDigest)),
      ("semantic_contract_digest", .str contractDigest),
      ("provider_binding_digest", .str replayDigest), ("source_request_ref", .str "request-1"),
      ("source_work_ref", .null), ("source_run_ref", .null), ("idempotency_key", .null),
      ("effect_semantics", .str "pure")], identityDigest)]

/-- SHA-256 of the texts that are hashed here; no other text has one of these digests. -/
def sha (text : String) : String :=
  match digests.find? (fun e => (Json.obj e.1).canonicalJson == text) with
  | some (_, digest) => digest
  | none => "text " ++ text

theorem sha_eq (text : String) :
    (∃ e ∈ digests, (Json.obj e.1).canonicalJson = text ∧ sha text = e.2) ∨
      sha text = "text " ++ text := by
  unfold sha
  split
  · next fields digest hfind =>
    have hmatch := List.find?_some hfind
    rw [beq_iff_eq] at hmatch
    exact .inl ⟨_, List.mem_of_find?_eq_some hfind, hmatch, rfl⟩
  · exact .inr rfl

theorem digests_apart : ∀ e ∈ digests, ∀ text, e.2 ≠ "text " ++ text := by
  intro e he text heq
  have hfront : ∀ digest ∈ digests.map Prod.snd, digest.toList.head? ≠ some 't' := by decide
  apply hfront e.2 (List.mem_map.mpr ⟨e, he, rfl⟩)
  rw [heq, String.toList_append]
  rfl

theorem digests_distinct : ∀ e ∈ digests, ∀ e' ∈ digests, e.2 = e'.2 → e.1 = e'.1 := by
  have hnodup : (digests.map Prod.snd).Nodup := by
    show List.Nodup [contractDigest, projectionDigest, descriptorDigest, replayDigest,
      identityDigest]
    decide
  intro e he e' he' heq
  rw [List.inj_on_of_nodup_map hnodup he he' heq]

theorem sha_injective : Function.Injective sha := by
  intro text text' h
  cases sha_eq text with
  | inl hfound =>
    obtain ⟨e, he, htext, hdigest⟩ := hfound
    cases sha_eq text' with
    | inl hfound' =>
      obtain ⟨e', he', htext', hdigest'⟩ := hfound'
      have hsame := digests_distinct e he e' he' (hdigest.symm.trans (h.trans hdigest'))
      rw [← htext, ← htext', hsame]
    | inr hother => exact absurd (hdigest.symm.trans (h.trans hother)) (digests_apart e he text')
  | inr hother =>
    cases sha_eq text' with
    | inl hfound' =>
      obtain ⟨e', he', -, hdigest'⟩ := hfound'
      exact absurd (hdigest'.symm.trans (h.symm.trans hother)) (digests_apart e' he' text)
    | inr hother' => exact (String.append_right_inj _).mp (hother.symm.trans (h.trans hother'))

theorem buildable : Buildable request context descriptor contract "binding-1" where
  provider := rfl
  capability := by decide
  acceptable :=
    { requestMetadata := ⟨by decide, fun e he => absurd he List.not_mem_nil⟩
      contextMetadata := ⟨by decide, fun e he => absurd he List.not_mem_nil⟩
      requestExtra := ⟨by decide, fun e he => absurd he List.not_mem_nil⟩
      contextExtra := ⟨by decide, fun e he => absurd he List.not_mem_nil⟩ }
  bound := by decide
  stronger := by decide
  keyed := by decide

theorem invocationSpecification_faithful_recording : ∃ s,
    buildInvocationSpecification sha request context descriptor contract "binding-1" = .ok s ∧
      invocationSpecificationFromEvent sha (invocationSpecificationEvent 0 s) = .ok s ∧
      (∀ event s', invocationSpecificationFromEvent sha event = .ok s' → event.id = s.id →
        s' = s) ∧
      Declared request context contract := by
  obtain ⟨s, hs⟩ := @exists_buildInvocationSpecification sha _ _ _ _ _ buildable
  obtain ⟨hround, haccepted, -, hdeclared⟩ := invocationSpecification_faithful sha sha_injective
  have hdecode := hround 0 _ _ _ _ _ s hs
  exact ⟨s, hs, hdecode, fun event s' h hid => (haccepted _ s hdecode).2.2 event s' h hid,
    hdeclared _ _ _ _ _ s hs⟩

/-- The event of a specification without the Work that its request does not name. -/
def abridged (s : DurableInvocationSpecification) : Event :=
  { invocationSpecificationEvent 0 s with
    payload := [("schema", .str invocationSpecificationSchema),
      ("specification", .obj (s.dump.pop "source_work_ref"))] }

theorem readsSpecification_abridged {s : DurableInvocationSpecification}
    (h : s.sourceWorkRef = none) : ReadsSpecification (s.dump.pop "source_work_ref") s where
  names := fun _ hname => (List.filter_sublist.map Prod.fst).subset hname
  id := rfl
  semanticIdentity := rfl
  canonicalSemanticPayload := rfl
  semanticContractDigest := rfl
  providerBinding := ⟨s.providerBinding.dump, rfl, readsBinding_dump s.providerBinding⟩
  sourceRequestRef := rfl
  sourceWorkRef := .inr ⟨rfl, h⟩
  sourceRunRef := .inl rfl
  idempotencyKey := .inl rfl
  effectSemantics := rfl

/-- Undeclared metadata is accepted, and so is an event that is no encoding. -/
theorem invocationSpecification_not_faithful : ∃ s,
    buildInvocationSpecification sha request context descriptor contract "binding-1" = .ok s ∧
      "authorization_refs" ∈ request.metadata.names ∧
      "authorization_refs" ∉ contract.requestMetadataExtensions.keys ∧
      invocationSpecificationFromEvent sha (abridged s) = .ok s ∧
      ∀ s' : DurableInvocationSpecification,
        ((abridged s).payload.get "specification").pyEq (.obj s'.dump) = false := by
  obtain ⟨s, hs⟩ := @exists_buildInvocationSpecification sha _ _ _ _ _ buildable
  obtain ⟨-, -, hbinding, hvalid, hidentity⟩ := buildInvocationSpecification_eq_ok hs
  refine ⟨s, hs, by decide, by decide, ?_, ?_⟩
  · exact invocationSpecificationFromEvent_eq_ok.mpr ⟨_,
      { type := rfl
        schema := rfl
        specification := rfl
        reads := readsSpecification_abridged (sourceWorkRef_of_build hs)
        binding := hbinding
        valid := hvalid
        id := rfl
        subject := rfl
        identity := hidentity }⟩
  · intro s'
    by_contra heq
    rw [Bool.not_eq_false] at heq
    have hnames := (Json.pyEq_obj_iff.mp heq).1 "source_work_ref" (by
      show "source_work_ref" ∈ specificationFields
      decide)
    obtain ⟨f, hf, hname⟩ := List.mem_map.mp hnames
    have hkept := (List.mem_filter.mp hf).2
    rw [decide_eq_true_eq] at hkept
    exact hkept hname

end Recording
end PortableRuntime
