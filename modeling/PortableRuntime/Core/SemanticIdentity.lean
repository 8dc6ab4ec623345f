import PortableRuntime.Core.ProviderSemantics

/-!
# The identity of a projection

A projection is accepted when every extra and every metadata key of the request and of its
context is classified and the declared ones have their types.  Under one contract two
accepted projections have one identity exactly when what the contract declares agrees.
-/

namespace PortableRuntime

/-! ## Documents -/

namespace Json

theorem isDocument_ofStrings (items : List String) : (ofStrings items).isDocument = true := by
  rw [ofStrings, isDocument, isDocumentItems_iff]
  intro j hj
  obtain ⟨s, -, rfl⟩ := List.mem_map.mp hj
  rfl

theorem isDocument_ofOption (s : Option String) : (ofOption s).isDocument = true := by
  cases s <;> rfl

theorem isDocument_getD {values : Fields} (h : ∀ f ∈ values, f.2.isDocument = true)
    (name : String) : (values.get name).isDocument = true := by
  rw [Fields.get]
  cases hget : values.get? name with
  | none => rfl
  | some v => exact h _ (Fields.get?_eq_some_mem hget)

end Json

theorem SemanticRequest.isDocument_dump (r : SemanticRequest) :
    ∀ f ∈ r.dump, f.2.isDocument = true := by
  have hdocument (d : Fields) (hd : d ∈ [r.parameters, r.constraints, r.metadata, r.extra]) :=
    r.documents d hd
  have hextra := (Json.isDocument_obj.mp (hdocument r.extra (by simp))).2
  have htimeout : (r.timeoutSeconds.elim Json.null (fun t => .float t.trunc t.text)).isDocument =
      true := by
    cases r.timeoutSeconds with
    | none => rfl
    | some t => exact t.isFloat
  intro f hf
  rw [SemanticRequest.dump, List.mem_append] at hf
  cases hf with
  | inr hf => exact hextra f hf
  | inl hf =>
    revert f
    simp only [List.forall_mem_cons, List.not_mem_nil, false_imp_iff, implies_true, and_true,
      Json.isDocument_ofOption, Json.isDocument_ofStrings, hdocument r.parameters (by simp),
      hdocument r.constraints (by simp), hdocument r.metadata (by simp), htimeout, true_and]
    exact ⟨rfl, rfl, rfl, rfl⟩

theorem InvocationContext.isDocument_dump (c : InvocationContext) :
    ∀ f ∈ c.dump, f.2.isDocument = true := by
  have hmetadata := c.documents c.metadata (by simp)
  have hextra := (Json.isDocument_obj.mp (c.documents c.extra (by simp))).2
  intro f hf
  rw [InvocationContext.dump, List.mem_append] at hf
  cases hf with
  | inr hf => exact hextra f hf
  | inl hf =>
    revert f
    simp only [List.forall_mem_cons, List.not_mem_nil, false_imp_iff, implies_true, and_true,
      Json.isDocument_ofOption, hmetadata, true_and]
    exact ⟨rfl, rfl⟩

/-! ## Selected fields -/

section Selection

variable {values : Fields} {fields : List String}

theorem get?_foldl_select (start : Fields) (name : String) :
    (fields.foldl (fun selected field => selected.put field (values.get field)) start).get? name =
      if name ∈ fields then some (values.get name) else start.get? name := by
  induction fields generalizing start with
  | nil => rfl
  | cons field rest ih =>
    rw [List.foldl_cons, ih]
    by_cases hrest : name ∈ rest
    · rw [if_pos hrest, if_pos (List.mem_cons_of_mem field hrest)]
    · rw [if_neg hrest]
      by_cases hfield : name = field
      · subst hfield
        rw [if_pos List.mem_cons_self, Fields.get?_put_self]
      · rw [Fields.get?_put_of_ne _ _ hfield, if_neg]
        exact fun hmem => (List.mem_cons.mp hmem).elim hfield hrest

theorem get?_selectFields (name : String) : (selectFields values fields).get? name =
    if name ∈ fields then some (values.get name) else none := get?_foldl_select [] name

theorem Fields.mem_names_put {name key : String} {v : Json} {d : Fields} :
    key ∈ (d.put name v).names ↔ key = name ∨ key ∈ d.names := by
  rw [← Fields.get?_isSome_iff, ← Fields.get?_isSome_iff]
  by_cases hkey : key = name
  · subst hkey
    simp [Fields.get?_put_self]
  · rw [Fields.get?_put_of_ne _ _ hkey]
    simp [hkey]

theorem Fields.nodup_put {name : String} {v : Json} {d : Fields} (h : d.names.Nodup) :
    (d.put name v).names.Nodup := by
  induction d with
  | nil => exact List.nodup_singleton name
  | cons f rest ih =>
    obtain ⟨name', v'⟩ := f
    obtain ⟨hnew, hrest⟩ := List.nodup_cons.mp h
    by_cases hname : name' = name
    · rw [Fields.put, if_pos hname]
      exact List.nodup_cons.mpr ⟨hname ▸ hnew, hrest⟩
    · rw [Fields.put, if_neg hname]
      refine List.nodup_cons.mpr ⟨fun hmem => ?_, ih hrest⟩
      exact (Fields.mem_names_put.mp hmem).elim hname hnew

theorem nodup_selectFields : (selectFields values fields).names.Nodup := by
  have hfold (start : Fields) (hstart : start.names.Nodup) :
      (fields.foldl (fun selected field => selected.put field (values.get field))
        start).names.Nodup := by
    induction fields generalizing start with
    | nil => exact hstart
    | cons field rest ih => exact ih _ (Fields.nodup_put hstart)
  exact hfold [] List.nodup_nil

theorem isDocument_selectFields (h : ∀ f ∈ values, f.2.isDocument = true) :
    (Json.obj (selectFields values fields)).isDocument = true := by
  refine Json.isDocument_obj.mpr ⟨nodup_selectFields, fun f hf => ?_⟩
  obtain ⟨name, v⟩ := f
  have hget := (Fields.get?_eq_some_iff nodup_selectFields).mpr hf
  rw [get?_selectFields] at hget
  by_cases hname : name ∈ fields
  · rw [if_pos hname] at hget
    rw [← Option.some.inj hget]
    exact Json.isDocument_getD h name
  · rw [if_neg hname] at hget
    cases hget

/-- What is selected agrees when the values agree under each of the fields. -/
theorem canon_selectFields {values' : Fields} :
    (Json.obj (selectFields values fields)).canon = (Json.obj (selectFields values' fields)).canon ↔
      ∀ field ∈ fields, (values.get field).canon = (values'.get field).canon := by
  rw [Json.canon_obj_eq_iff nodup_selectFields nodup_selectFields]
  constructor
  · intro h field hfield
    have hget := h field
    rw [get?_selectFields, get?_selectFields, if_pos hfield, if_pos hfield] at hget
    exact Option.some.inj hget
  · intro h name
    rw [get?_selectFields, get?_selectFields]
    by_cases hname : name ∈ fields
    · rw [if_pos hname, if_pos hname, Option.map_some, Option.map_some, h name hname]
    · rw [if_neg hname, if_neg hname]

end Selection

/-! ## Declared extensions -/

/-- The values that are present under the declared names. -/
def presentValues (values : Fields) (declared : Extensions) : Fields :=
  declared.entries.filterMap (fun e => (values.get? e.1).map (fun v => (e.1, v)))

section Extensions

variable {owner : String} {values : Fields} {declared : Extensions}

theorem declaredValues_eq_ok {entries : List (String × SemanticValueType)} {result : Fields} :
    declaredValues owner values entries = .ok result ↔
      (∀ e ∈ entries, ∀ v, values.get? e.1 = some v → hasType v e.2 = true) ∧
      result = entries.filterMap (fun e => (values.get? e.1).map (fun v => (e.1, v))) := by
  induction entries generalizing result with
  | nil =>
    constructor
    · exact fun h => ⟨fun e he => absurd he List.not_mem_nil, (Except.ok.inj h).symm⟩
    · exact fun h => congrArg Except.ok h.2.symm
  | cons e rest ih =>
    obtain ⟨key, type⟩ := e
    rw [declaredValues, List.forall_mem_cons, List.filterMap_cons]
    cases hget : values.get? key with
    | none =>
      show declaredValues owner values rest = .ok result ↔ _
      rw [ih]
      simp
    | some v =>
      show (validateTypedValue _ v type >>= fun _ => declaredValues owner values rest >>= _) =
        .ok result ↔ _
      rw [Result.check_eq_ok, validateTypedValue, guardValue_eq_ok, Result.bind_eq_ok]
      constructor
      · intro h
        obtain ⟨htype, tail, htail, hresult⟩ := h
        obtain ⟨hall, rfl⟩ := ih.mp htail
        exact ⟨⟨fun w hw => Option.some.inj hw ▸ htype, hall⟩, (Except.ok.inj hresult).symm⟩
      · intro h
        obtain ⟨⟨htype, hall⟩, rfl⟩ := h
        exact ⟨htype v rfl, _, ih.mpr ⟨hall, rfl⟩, rfl⟩

theorem names_presentValues : (presentValues values declared).names.Sublist declared.keys := by
  rw [presentValues, Dict.keys]
  induction declared.entries with
  | nil => exact .slnil
  | cons e rest ih =>
    rw [List.filterMap_cons]
    cases values.get? e.1 with
    | none => exact ih.cons _
    | some v => exact ih.cons_cons _

theorem nodup_presentValues : (presentValues values declared).names.Nodup :=
  names_presentValues.nodup declared.nodup

theorem get?_presentValues (name : String) : (presentValues values declared).get? name =
    if name ∈ declared.keys then values.get? name else none := by
  apply Option.ext
  intro v
  rw [Fields.get?_eq_some_iff nodup_presentValues, presentValues, List.mem_filterMap]
  by_cases hname : name ∈ declared.keys
  · rw [if_pos hname]
    constructor
    · intro h
      obtain ⟨e, -, he⟩ := h
      obtain ⟨w, hw, hpair⟩ := Option.map_eq_some_iff.mp he
      rw [← (Prod.mk.inj hpair).1, hw, (Prod.mk.inj hpair).2]
    · intro h
      obtain ⟨e, hmem, rfl⟩ := List.mem_map.mp hname
      exact ⟨e, hmem, by rw [h, Option.map_some]⟩
  · rw [if_neg hname]
    constructor
    · intro h
      obtain ⟨e, hmem, he⟩ := h
      obtain ⟨w, -, hpair⟩ := Option.map_eq_some_iff.mp he
      exact absurd (List.mem_map.mpr ⟨e, hmem, (Prod.mk.inj hpair).1⟩) hname
    · intro h
      cases h

theorem isDocument_presentValues (h : (Json.obj values).isDocument = true) :
    (Json.obj (presentValues values declared)).isDocument = true := by
  refine Json.isDocument_obj.mpr ⟨nodup_presentValues, fun f hf => ?_⟩
  obtain ⟨e, -, he⟩ := List.mem_filterMap.mp hf
  obtain ⟨v, hv, rfl⟩ := Option.map_eq_some_iff.mp he
  exact (Json.isDocument_obj.mp h).2 _ (Fields.get?_eq_some_mem hv)

theorem canon_presentValues {values' : Fields} :
    (Json.obj (presentValues values declared)).canon =
        (Json.obj (presentValues values' declared)).canon ↔
      ∀ key ∈ declared.keys, (values.get? key).map Json.canon = (values'.get? key).map Json.canon := by
  rw [Json.canon_obj_eq_iff nodup_presentValues nodup_presentValues]
  constructor
  · intro h key hkey
    have hget := h key
    rwa [get?_presentValues, get?_presentValues, if_pos hkey, if_pos hkey] at hget
  · intro h name
    rw [get?_presentValues, get?_presentValues]
    by_cases hname : name ∈ declared.keys
    · rw [if_pos hname, if_pos hname, h name hname]
    · rw [if_neg hname, if_neg hname]

theorem refuseNames_eq_ok {names : List String} {message : String} :
    refuseNames names message = .ok () ↔ names = [] := by
  rw [refuseNames, guardValue_eq_ok, List.isEmpty_iff]

theorem namesBeyond_eq_nil {a b : List String} : namesBeyond a b = [] ↔ ∀ name ∈ a, name ∈ b := by
  simp only [List.eq_nil_iff_forall_not_mem, namesBeyond, Text.mem_sortedUnique, List.mem_filter,
    Bool.not_eq_true', List.contains_eq_mem, decide_eq_false_iff_not, not_and, not_not]

/-- What is present under the names of a class of extensions, where nothing is unclassified. -/
structure Classified (values : Fields) (allowed : List String) (declared : Extensions) : Prop where
  known : ∀ name ∈ values.names, name ∈ allowed ∨ name ∈ declared.keys
  typed : ∀ e ∈ declared.entries, ∀ v, values.get? e.1 = some v → hasType v e.2 = true

theorem semanticExtensions_eq_ok {allowed : List String} {result : Fields} :
    semanticExtensions owner values allowed declared = .ok result ↔
      Classified values allowed declared ∧ result = presentValues values declared := by
  rw [semanticExtensions, Result.check_eq_ok, refuseNames_eq_ok, namesBeyond_eq_nil,
    declaredValues_eq_ok, ← and_assoc]
  simp only [List.mem_append]
  exact and_congr_left' ⟨fun h => ⟨h.1, h.2⟩, fun h => ⟨h.known, h.typed⟩⟩

theorem extraSemantics_eq_ok {result : Fields} :
    extraSemantics owner values declared = .ok result ↔
      Classified values [] declared ∧ result = presentValues values declared := by
  rw [extraSemantics, Result.check_eq_ok, refuseNames_eq_ok, namesBeyond_eq_nil,
    declaredValues_eq_ok, ← and_assoc]
  refine and_congr_left' ⟨fun h => ⟨fun name hname => .inr (h.1 name hname), h.2⟩, fun h => ?_⟩
  exact ⟨fun name hname => (h.known name hname).resolve_left List.not_mem_nil, h.typed⟩

end Extensions

/-! ## Reading a document back -/

/-- A dictionary that is written and read holds what it held, each value by its text. -/
theorem loads_object {fields : Fields} (h : (Json.obj fields).isDocument = true) :
    ∃ fields' : Fields, Json.loads (Json.obj fields).canonicalJson = .ok (.obj fields') ∧
      ∀ name, fields'.get? name = (fields.get? name).map Json.canon := by
  have hnodup := (Json.isDocument_obj.mp h).1
  refine ⟨_, (Json.loads_canonicalJson h).trans (congrArg Except.ok (Json.canon_obj fields)), ?_⟩
  intro name
  rw [Fields.get?_insertionSort, Fields.get?_map]
  rw [Fields.names_map]
  exact hnodup

/-! ## Projections -/

section Projection

variable {sha : String → String} {request request' : SemanticRequest}
  {context context' : InvocationContext} {contract : ProviderSemanticContract}

/-- What a contract declares of a request and its context. -/
def semanticPayload (sha : String → String) (request : SemanticRequest)
    (context : InvocationContext) (contract : ProviderSemanticContract) : Fields :=
  projectionPayload sha contract (selectFields request.dump contract.requestSemanticFields)
    (selectFields context.dump contract.contextSemanticFields)
    (presentValues request.metadata contract.requestMetadataExtensions)
    (presentValues context.metadata contract.contextMetadataExtensions)
    (presentValues request.extra contract.requestExtraExtensions)
    (presentValues context.extra contract.contextExtraExtensions)

theorem nodup_projectionPayload {r c rm cm re ce : Fields} :
    (projectionPayload sha contract r c rm cm re ce).names.Nodup := by
  show List.Nodup ["schema", "provider_id", "contract_digest", "transport_id", "request", "context",
    "request_metadata_extensions", "context_metadata_extensions", "request_extra_extensions",
    "context_extra_extensions"]
  decide

theorem isDocument_semanticPayload :
    (Json.obj (semanticPayload sha request context contract)).isDocument = true := by
  have hmetadata := request.documents request.metadata (by simp)
  have hextra := request.documents request.extra (by simp)
  have hmetadata' := context.documents context.metadata (by simp)
  have hextra' := context.documents context.extra (by simp)
  refine Json.isDocument_obj.mpr ⟨nodup_projectionPayload, ?_⟩
  simp only [semanticPayload, projectionPayload, List.forall_mem_cons, List.not_mem_nil,
    false_imp_iff, implies_true, and_true, isDocument_selectFields request.isDocument_dump,
    isDocument_selectFields context.isDocument_dump, isDocument_presentValues hmetadata,
    isDocument_presentValues hextra, isDocument_presentValues hmetadata',
    isDocument_presentValues hextra']
  exact ⟨rfl, rfl, rfl, rfl⟩

def semanticProjection (sha : String → String) (request : SemanticRequest)
    (context : InvocationContext) (contract : ProviderSemanticContract) :
    ProviderSemanticProjection :=
  let canonical := (Json.obj (semanticPayload sha request context contract)).canonicalJson
  { identity := projectionIdentity sha canonical, contractDigest := contract.digest sha,
    canonicalPayload := canonical }

theorem payload_semanticProjection : ∃ fields,
    (semanticProjection sha request context contract).payload = .ok fields ∧
    fields.get "contract_digest" = .str (contract.digest sha) ∧
    fields.get "provider_id" = .str contract.providerId := by
  obtain ⟨fields, hloads, hget⟩ := loads_object
    (@isDocument_semanticPayload sha request context contract)
  refine ⟨fields, ?_, ?_, ?_⟩
  · rw [ProviderSemanticProjection.payload, semanticProjection, hloads]
    rfl
  · rw [Fields.get, hget]
    rfl
  · rw [Fields.get, hget]
    rfl

theorem validate_semanticProjection :
    (semanticProjection sha request context contract).validate sha = .ok () := by
  obtain ⟨fields, hpayload, hdigest, -⟩ := @payload_semanticProjection sha request context contract
  rw [ProviderSemanticProjection.validate, Result.check_eq_ok, guardValue_eq_ok]
  refine ⟨beq_iff_eq.mpr rfl, Result.bind_eq_ok.mpr ⟨fields, hpayload, ?_⟩⟩
  rw [guardValue_eq_ok, hdigest]
  exact beq_iff_eq.mpr rfl

/-- Every metadata key and every extra is classified, and the declared ones have their types. -/
structure Acceptable (request : SemanticRequest) (context : InvocationContext)
    (contract : ProviderSemanticContract) : Prop where
  requestMetadata : Classified request.metadata nonSemanticRequestMetadata
    contract.requestMetadataExtensions
  contextMetadata : Classified context.metadata nonSemanticContextMetadata
    contract.contextMetadataExtensions
  requestExtra : Classified request.extra [] contract.requestExtraExtensions
  contextExtra : Classified context.extra [] contract.contextExtraExtensions

theorem projectProviderSemantics_eq_ok {p : ProviderSemanticProjection} :
    projectProviderSemantics sha request context contract = .ok p ↔
      Acceptable request context contract ∧ p = semanticProjection sha request context contract := by
  simp only [projectProviderSemantics, Result.bind_eq_ok, semanticExtensions_eq_ok,
    extraSemantics_eq_ok]
  constructor
  · intro h
    obtain ⟨_, ⟨hrm, rfl⟩, _, ⟨hcm, rfl⟩, _, ⟨hre, rfl⟩, _, ⟨hce, rfl⟩, -, -, hp⟩ := h
    exact ⟨⟨hrm, hcm, hre, hce⟩, (Except.ok.inj hp).symm⟩
  · intro h
    obtain ⟨h, rfl⟩ := h
    exact ⟨_, ⟨h.requestMetadata, rfl⟩, _, ⟨h.contextMetadata, rfl⟩, _, ⟨h.requestExtra, rfl⟩, _,
      ⟨h.contextExtra, rfl⟩, (), validate_semanticProjection, rfl⟩

/-- Two requests in their contexts agree on everything that a contract declares. -/
structure SameSemantics (contract : ProviderSemanticContract) (request request' : SemanticRequest)
    (context context' : InvocationContext) : Prop where
  requestFields : ∀ field ∈ contract.requestSemanticFields,
    (request.dump.get field).canon = (request'.dump.get field).canon
  contextFields : ∀ field ∈ contract.contextSemanticFields,
    (context.dump.get field).canon = (context'.dump.get field).canon
  requestMetadata : ∀ key ∈ contract.requestMetadataExtensions.keys,
    (request.metadata.get? key).map Json.canon = (request'.metadata.get? key).map Json.canon
  contextMetadata : ∀ key ∈ contract.contextMetadataExtensions.keys,
    (context.metadata.get? key).map Json.canon = (context'.metadata.get? key).map Json.canon
  requestExtra : ∀ key ∈ contract.requestExtraExtensions.keys,
    (request.extra.get? key).map Json.canon = (request'.extra.get? key).map Json.canon
  contextExtra : ∀ key ∈ contract.contextExtraExtensions.keys,
    (context.extra.get? key).map Json.canon = (context'.extra.get? key).map Json.canon

theorem canon_projectionPayload {r r' c c' rm rm' cm cm' re re' ce ce' : Fields} :
    (Json.obj (projectionPayload sha contract r c rm cm re ce)).canon =
        (Json.obj (projectionPayload sha contract r' c' rm' cm' re' ce')).canon ↔
      (Json.obj r).canon = (Json.obj r').canon ∧ (Json.obj c).canon = (Json.obj c').canon ∧
      (Json.obj rm).canon = (Json.obj rm').canon ∧ (Json.obj cm).canon = (Json.obj cm').canon ∧
      (Json.obj re).canon = (Json.obj re').canon ∧ (Json.obj ce).canon = (Json.obj ce').canon := by
  constructor
  · intro h
    have hget := (Json.canon_obj_eq_iff nodup_projectionPayload nodup_projectionPayload).mp h
    exact ⟨Option.some.inj (hget "request"), Option.some.inj (hget "context"),
      Option.some.inj (hget "request_metadata_extensions"),
      Option.some.inj (hget "context_metadata_extensions"),
      Option.some.inj (hget "request_extra_extensions"),
      Option.some.inj (hget "context_extra_extensions")⟩
  · intro h
    obtain ⟨hr, hc, hrm, hcm, hre, hce⟩ := h
    rw [Json.canon_obj, Json.canon_obj]
    simp only [projectionPayload, List.map_cons]
    rw [hr, hc, hrm, hcm, hre, hce]

/-- Under one contract the identity is what the contract declares, and nothing else. -/
theorem identity_semanticProjection_iff (hsha : Function.Injective sha) :
    (semanticProjection sha request context contract).identity =
        (semanticProjection sha request' context' contract).identity ↔
      SameSemantics contract request request' context context' := by
  have htext : (semanticProjection sha request context contract).identity =
      (semanticProjection sha request' context' contract).identity ↔
      (Json.obj (semanticPayload sha request context contract)).canonicalJson =
        (Json.obj (semanticPayload sha request' context' contract)).canonicalJson := by
    show "provider_semantics_" ++ sha _ = "provider_semantics_" ++ sha _ ↔ _
    rw [String.append_right_inj, hsha.eq_iff]
  rw [htext, Json.canonicalJson_inj isDocument_semanticPayload isDocument_semanticPayload,
    semanticPayload, semanticPayload, canon_projectionPayload, canon_selectFields,
    canon_selectFields, canon_presentValues, canon_presentValues, canon_presentValues,
    canon_presentValues]
  constructor
  · intro h
    obtain ⟨hr, hc, hrm, hcm, hre, hce⟩ := h
    exact ⟨hr, hc, hrm, hcm, hre, hce⟩
  · intro h
    exact ⟨h.requestFields, h.contextFields, h.requestMetadata, h.contextMetadata, h.requestExtra,
      h.contextExtra⟩

end Projection
end PortableRuntime
