import PortableRuntime.Protocol.TimeStability
import PortableRuntime.Stores.Calls

/-!
# Versions of a knowledge projection

A save of a projection judges the new value against the graph and compares nothing with the
stored one.  What authorizes an official version is its promotion request, made of the
projection's id and three texts of its metadata: a use covers a request, not a content.
-/

namespace PortableRuntime

/-- An accepted save of a projection. -/
structure ProjectionSave where
  before : MemoryStore
  now : Time
  value : KnowledgeProjection

/-- The request that a projection's promotion makes. -/
def KnowledgeProjection.request (p : KnowledgeProjection) : Option CanonicalAuthorizationRequest :=
  promotionRequest "knowledge.promote" p.metadata [p.id, s!"{p.id}:v1"]

namespace ProjectionSave

/-- The accepted saves of one projection, and anything that leaves it alone in between. -/
inductive History (id : String) : MemoryStore → List ProjectionSave → MemoryStore → Prop where
  | start (st : MemoryStore) : History id st [] st
  | save {st st₁ st₂ : MemoryStore} {saves : List ProjectionSave} (now : Time)
      (value : KnowledgeProjection) (earlier : History id st saves st₁) (hid : value.id = id)
      (haccepted : st₁.saveKnowledgeProjection now value = .ok st₂) :
      History id st (saves ++ [⟨st₁, now, value⟩]) st₂
  | other {st st₁ st₂ : MemoryStore} {saves : List ProjectionSave}
      (earlier : History id st saves st₁)
      (hsame : st₂.get .knowledgeProjection id = st₁.get .knowledgeProjection id) :
      History id st saves st₂

/-- The use that the version names covers its request under its grant. -/
structure JustifiedBy (c : ProjectionSave) (use : AuthorizationUse) : Prop where
  named : c.value.metadata.get "authorization_use_ref" = .str use.id
  stored : use ∈ c.before.exportState.uses
  request : c.value.request = some
    { capability := use.capability, actorRef := use.actorRef, resourceRef := some use.resourceRef,
      subjectVersionRefs := [c.value.id, s!"{c.value.id}:v1"], effectClass := use.effectClass }
  subject : c.value.id ∈ use.subjectVersionRefs ∨ s!"{c.value.id}:v1" ∈ use.subjectVersionRefs
  grants : ∀ ref ∈ c.value.authorizationRefs, ref = use.authorizationRef
  granted : ∃ grant ∈ c.before.exportState.authorizations, grant.id = use.authorizationRef ∧
    validateGrant grant use.authorizedAt = [] ∧
    ∀ request ∈ c.value.request, isAuthorizedFor request grant use.authorizedAt = true

/-- The version names no use, and each of its grants holds at the save. -/
structure JustifiedNow (c : ProjectionSave) : Prop where
  unnamed : NamesNoUse c.value.metadata
  granted : ∀ ref ∈ c.value.authorizationRefs, ∃ grant ∈ c.before.exportState.authorizations,
    grant.id = ref ∧ validateGrant grant c.now = [] ∧
    ∃ request, c.value.request = some request ∧ isAuthorizedFor request grant c.now = true

/-! ## One save -/

theorem promotionRequest_eq_some {capability : String} {metadata : Fields} {versions : List String}
    {request : CanonicalAuthorizationRequest}
    (h : promotionRequest capability metadata versions = some request) :
    request.capability = capability ∧ request.subjectVersionRefs = versions := by
  unfold promotionRequest at h
  split at h
  · split at h
    · obtain ⟨effectClass, -, rfl⟩ := Option.map_eq_some_iff.mp h
      exact ⟨rfl, rfl⟩
    · exact absurd h (by simp)
  · exact absurd h (by simp)

theorem mem_of_find {k : Kind} {values : List (Model k)} {ref : String} {m : Model k}
    (h : State.find values ref = some m) : m ∈ values ∧ k.identifier m = ref :=
  ⟨List.mem_of_find?_eq_some h, by simpa using List.find?_some h⟩

/-- A grant reference without complaints: the grant is there and holds for the request. -/
theorem exists_grant {now : Time} {s : State} {p : KnowledgeProjection} {ref : String}
    (h : projectionGrantErrors now s p ref = []) :
    ∃ grant ∈ s.authorizations, grant.id = ref ∧ ∃ request, p.request = some request ∧
      grantHolds now s grant request (p.metadata.get "authorization_use_ref") = true := by
  rw [projectionGrantErrors] at h
  cases hgrant : State.find (k := .authorization) s.authorizations ref with
  | none => simp [hgrant] at h
  | some grant =>
    simp only [hgrant] at h
    split_ifs at h
    cases hrequest : promotionRequest "knowledge.promote" p.metadata [p.id, s!"{p.id}:v1"] with
    | none => simp [hrequest] at h
    | some request =>
      simp only [hrequest, errorIf_eq_nil, Bool.not_eq_false'] at h
      obtain ⟨hmem, hid⟩ := mem_of_find hgrant
      exact ⟨grant, hmem, hid, request, hrequest, h⟩

theorem useBinds_eq_true {use : AuthorizationUse} {grant : AuthorizationGrant}
    {request : CanonicalAuthorizationRequest} :
    useBinds use grant request = true ↔
      use.authorizationRef = grant.id ∧ use.capability = request.capability ∧
      use.actorRef = request.actorRef ∧ some use.resourceRef = request.resourceRef ∧
      use.effectClass = request.effectClass ∧
      (∃ ref ∈ request.subjectVersionRefs, ref ∈ use.subjectVersionRefs) ∧
      validateGrant grant use.authorizedAt = [] ∧
      isAuthorizedFor request grant use.authorizedAt = true := by
  simp only [useBinds, Bool.and_eq_true, beq_iff_eq, List.any_eq_true, List.contains_iff_mem,
    List.isEmpty_iff, and_assoc]

/-- An accepted official version is justified by the use it names, or by grants of the time. -/
theorem justified_of_valid {c : ProjectionSave} (hofficial : c.value.lifecycleStatus = .official)
    (h : Valid c.now (c.before.exportState.merge .knowledgeProjection [c.value])) :
    c.value.authorizationRefs ≠ [] ∧ (c.JustifiedNow ∨ ∃ use, c.JustifiedBy use) := by
  have hauthorizations : (c.before.exportState.merge .knowledgeProjection [c.value]).authorizations =
      c.before.exportState.authorizations := by simp [State.authorizations, State.merge]
  have huses : (c.before.exportState.merge .knowledgeProjection [c.value]).uses =
      c.before.exportState.uses := by simp [State.uses, State.merge]
  have hmem : c.value ∈ (c.before.exportState.merge .knowledgeProjection [c.value]).projections := by
    simp [State.projections, State.merge, mergeBucket]
  have herrors := (valid_iff.mp h).projections c.value hmem
  rw [projectionErrors, if_neg (not_not.mpr hofficial), Result.bind_eq_ok] at herrors
  simp only [Result.pure_eq_ok, List.append_eq_nil_iff, projectionAuthorizationErrors] at herrors
  obtain ⟨bindings, -, ⟨⟨-, hgranted⟩, -⟩, -⟩ := herrors
  split_ifs at hgranted with hnone
  rw [List.flatMap_eq_nil_iff] at hgranted
  rw [List.isEmpty_iff] at hnone
  have hgrants (ref : String) (href : ref ∈ c.value.authorizationRefs) :=
    exists_grant (hgranted ref href)
  rw [hauthorizations] at hgrants
  refine ⟨hnone, ?_⟩
  by_cases hnamed : NamesNoUse c.value.metadata
  · refine .inl ⟨hnamed, fun ref href => ?_⟩
    obtain ⟨grant, hgrant, hid, request, hrequest, hholds⟩ := hgrants ref href
    rw [grantHolds_of_noUse hnamed] at hholds
    obtain ⟨hwindow, hshape, hmatches⟩ := hholds
    refine ⟨grant, hgrant, hid, validateGrant_eq_nil.mpr ⟨hwindow, hshape⟩, request, hrequest, ?_⟩
    rw [isAuthorizedFor, hwindow, hmatches]
    rfl
  · obtain ⟨useRef, huseRef⟩ := not_forall_not.mp hnamed
    obtain ⟨first, hfirst⟩ := List.exists_mem_of_ne_nil _ hnone
    obtain ⟨use, hfind⟩ : ∃ use, State.find (k := .authorizationUse) c.before.exportState.uses
        useRef = some use := by
      obtain ⟨grant, -, -, request, -, hholds⟩ := hgrants first hfirst
      rw [huseRef, grantHolds, huses] at hholds
      cases hfind : State.find (k := .authorizationUse) c.before.exportState.uses useRef with
      | none => simp [hfind] at hholds
      | some use => exact ⟨use, rfl⟩
    obtain ⟨hstored, hid⟩ := mem_of_find hfind
    have hid : use.id = useRef := hid
    -- Every grant that the version names is the use's own.
    have hbinds (ref : String) (href : ref ∈ c.value.authorizationRefs) :
        ∃ grant ∈ c.before.exportState.authorizations, grant.id = ref ∧ ∃ request,
          c.value.request = some request ∧ useBinds use grant request = true := by
      obtain ⟨grant, hgrant, hgrantId, request, hrequest, hholds⟩ := hgrants ref href
      rw [huseRef, grantHolds, huses, hfind] at hholds
      exact ⟨grant, hgrant, hgrantId, request, hrequest, hholds⟩
    obtain ⟨grant, hgrant, -, request, hrequest, hbound⟩ := hbinds first hfirst
    obtain ⟨hgrantRef, hcapability, hactor, hresource, heffect, ⟨subject, hsubject, hcovered⟩,
      hvalid, hauthorized⟩ := useBinds_eq_true.mp hbound
    obtain ⟨-, hversions⟩ := promotionRequest_eq_some hrequest
    refine .inr ⟨use, ?_⟩
    exact {
      named := by rw [huseRef, hid]
      stored := hstored
      request := by rw [hrequest, hcapability, hactor, hresource, heffect, ← hversions]
      subject := by
        rw [hversions, List.mem_cons, List.mem_singleton] at hsubject
        rcases hsubject with rfl | rfl
        · exact .inl hcovered
        · exact .inr hcovered
      grants := by
        intro ref href
        obtain ⟨grant', -, hgrantId', request', -, hbound'⟩ := hbinds ref href
        exact hgrantId'.symm.trans (useBinds_eq_true.mp hbound').1.symm
      granted := by
        refine ⟨grant, hgrant, hgrantRef.symm, hvalid, fun request' hrequest' => ?_⟩
        obtain rfl : request = request' := Option.some.inj (hrequest.symm.trans hrequest')
        exact hauthorized }

/-- Versions that one use justifies make one request under one grant. -/
theorem JustifiedBy.agree {c c' : ProjectionSave} {use : AuthorizationUse} (h : c.JustifiedBy use)
    (h' : c'.JustifiedBy use) (hid : c.value.id = c'.value.id) :
    c.value.request = c'.value.request ∧
    ∀ ref ∈ c.value.authorizationRefs, ∀ ref' ∈ c'.value.authorizationRefs, ref = ref' := by
  refine ⟨?_, fun ref href ref' href' => (h.grants ref href).trans (h'.grants ref' href').symm⟩
  rw [h.request, h'.request, hid]

/-! ## Histories -/

/-- In every history of a projection the stored value is the one saved last, every accepted
official version is justified by the use it names or by grants of the time, and versions
that one use justifies make one request under one grant. -/
theorem official_versions_justified {id : String} {st st' : MemoryStore}
    {saves : List ProjectionSave} (h : History id st saves st') :
    (∀ c, saves.getLast? = some c → st'.get .knowledgeProjection id = some c.value) ∧
    (∀ c ∈ saves, c.value.id = id ∧ (c.value.lifecycleStatus = .official →
      c.value.authorizationRefs ≠ [] ∧ (c.JustifiedNow ∨ ∃ use, c.JustifiedBy use))) ∧
    ∀ c ∈ saves, ∀ c' ∈ saves, ∀ use, c.JustifiedBy use → c'.JustifiedBy use →
      c.value.request = c'.value.request ∧
      ∀ ref ∈ c.value.authorizationRefs, ∀ ref' ∈ c'.value.authorizationRefs, ref = ref' := by
  have hall : (∀ c, saves.getLast? = some c → st'.get .knowledgeProjection id = some c.value) ∧
      ∀ c ∈ saves, c.value.id = id ∧ (c.value.lifecycleStatus = .official →
        c.value.authorizationRefs ≠ [] ∧ (c.JustifiedNow ∨ ∃ use, c.JustifiedBy use)) := by
    induction h with
    | start => exact ⟨fun c hc => absurd hc (by simp), fun c hc => absurd hc List.not_mem_nil⟩
    | save now value earlier hid haccepted ih =>
      obtain ⟨hvalid, rfl⟩ := MemoryStore.saveKnowledgeProjection_eq_ok.mp haccepted
      refine ⟨fun c hc => ?_, fun c hc => ?_⟩
      · rw [List.getLast?_concat, Option.some.injEq] at hc
        rw [← hc, MemoryStore.save, MemoryStore.get_put_self]
        exact if_pos hid.symm
      · rcases List.mem_append.mp hc with hold | hnew
        · exact ih.2 c hold
        · rw [List.mem_singleton.mp hnew]
          exact ⟨hid, fun hofficial => justified_of_valid hofficial hvalid⟩
    | other earlier hsame ih => exact ⟨fun c hc => hsame.trans (ih.1 c hc), ih.2⟩
  refine ⟨hall.1, hall.2, fun c hc c' hc' use hjustified hjustified' => ?_⟩
  exact hjustified.agree hjustified' ((hall.2 c hc).1.trans (hall.2 c' hc').1.symm)

/-! ## Two contents under one use -/

def claimRecord : BaseRecord :=
  { cls := .assertion, id := "claim", recordType := .assertion, createdAt := 0,
    lifecycleStatus := .current, epistemicStatus := some .supported,
    fields := [("kind", .str "claim"), ("statement", .str "the repair works")] }

def judgmentRecord : BaseRecord :=
  { cls := .assertion, id := "judgment", recordType := .assertion, createdAt := 0,
    lifecycleStatus := .current, epistemicStatus := some .supported,
    metadata := [("epistemic_role", .str "epistemic-judgment"),
      ("judgment_for_refs", .ofStrings ["claim"])],
    fields := [("kind", .str "claim"), ("statement", .str "experience supports the claim")] }

def evidenceRecord : BaseRecord :=
  { cls := .evidenceArtifact, id := "evidence", recordType := .evidenceArtifact, createdAt := 0,
    lifecycleStatus := .current,
    fields := [("kind", .str "check"), ("uri", .null), ("media_type", .null), ("checksum", .null)] }

def scopeRecord : BaseRecord :=
  { cls := .changeObjectRecord, id := "scope", recordType := .changeObject, createdAt := 0,
    fields := [("object_type", .str "generic"), ("current_version_ref", .null)] }

def derivationRecord : BaseRecord :=
  { cls := .derivation, id := "derivation", recordType := .derivation, createdAt := 0,
    lifecycleStatus := .current, metadata := [("scope_version_refs", .ofStrings ["scope"])],
    fields := [("premise_refs", .ofStrings ["judgment"]), ("evidence_refs", .ofStrings ["evidence"]),
      ("rule_or_method_refs", .arr []), ("conclusion_ref", .str "claim"), ("provider_id", .null),
      ("domain", .null), ("evaluator_version", .null), ("limitations", .arr [])] }

def derivedRelation : RecordRelation :=
  { id := "derived", relationType := .derivedFrom, subjectRef := "claim", objectRef := "judgment",
    createdAt := 0 }

def knowledgeGrant : AuthorizationGrant :=
  { id := "grant", createdAt := 0, principalRef := "owner", granteeRef := "promoter",
    allowedCapabilities := ["knowledge.promote"], validFrom := 0,
    subjectVersionRefs := ["projection", "projection:v1"] }

def knowledgeUse : AuthorizationUse :=
  { id := "use", createdAt := 1, authorizationRef := "grant", capability := "knowledge.promote",
    actorRef := "promoter", resourceRef := "projection", effectClass := .writeLocal,
    subjectVersionRefs := ["projection"], authorizedAt := 1 }

def officialProjection (domain : String) (version : Int) : KnowledgeProjection :=
  { id := "projection", createdAt := 2, updatedAt := 2, lifecycleStatus := .official,
    currentAssertionRefs := ["claim"], evidenceSummaryRefs := ["evidence"],
    epistemicJudgmentRefs := ["judgment"], authorizationRefs := ["grant"],
    scopeVersionRefs := ["scope"], validityScope := [("domain", .str domain)],
    environmentBindings := [("runtime", "v1")],
    metadata := [("actor_ref", .str "promoter"), ("resource_ref", .str "projection"),
      ("effect_class", .str "write-local"), ("authorization_use_ref", .str "use")],
    extra := [("version", .int version)] }

/-- What an official projection refers to, and a grant and a use for its promotion. -/
def qualified : List (Prog (Time × MemoryStore.Op)) :=
  [.op (1, .save .record claimRecord), .op (1, .save .record judgmentRecord),
   .op (1, .save .record evidenceRecord), .op (1, .save .record scopeRecord),
   .op (1, .save .record derivationRecord), .op (1, .save .relation derivedRelation),
   .op (1, .save .authorization knowledgeGrant), .op (1, .save .authorizationUse knowledgeUse)]

def qualifiedStore : MemoryStore :=
  Prog.execAll (MemoryStore.step (fun _ => "")) MemoryStore.empty qualified

def firstSave : ProjectionSave := ⟨qualifiedStore, 2, officialProjection "payments" 2⟩

def firstStore : MemoryStore :=
  qualifiedStore.save .knowledgeProjection (officialProjection "payments" 2)

def secondSave : ProjectionSave := ⟨firstStore, 3, officialProjection "refunds" 1⟩

def secondStore : MemoryStore :=
  firstStore.save .knowledgeProjection (officialProjection "refunds" 1)

set_option maxRecDepth 20000 in
theorem saved_twice : History "projection" qualifiedStore [firstSave, secondSave] secondStore := by
  have hfirst : History "projection" qualifiedStore [firstSave] firstStore := by
    refine History.save 2 (officialProjection "payments" 2) (.start qualifiedStore) rfl ?_
    exact MemoryStore.saveKnowledgeProjection_eq_ok.mpr ⟨by decide, rfl⟩
  refine History.save 3 (officialProjection "refunds" 1) hfirst rfl ?_
  exact MemoryStore.saveKnowledgeProjection_eq_ok.mpr ⟨by decide, rfl⟩

theorem official_versions_saved_twice :
    secondStore.get .knowledgeProjection "projection" = some (officialProjection "refunds" 1) ∧
    (firstSave.JustifiedNow ∨ ∃ use, firstSave.JustifiedBy use) ∧
    (secondSave.JustifiedNow ∨ ∃ use, secondSave.JustifiedBy use) := by
  obtain ⟨hstored, hjustified, -⟩ := official_versions_justified saved_twice
  exact ⟨hstored secondSave rfl, ((hjustified firstSave (by simp)).2 rfl).2,
    ((hjustified secondSave (by simp)).2 rfl).2⟩

theorem justifiedBy_knowledgeUse {c : ProjectionSave} {domain : String} {version : Int}
    (hvalue : c.value = officialProjection domain version)
    (huses : c.before.exportState.uses = [knowledgeUse])
    (hgrants : c.before.exportState.authorizations = [knowledgeGrant]) :
    c.JustifiedBy knowledgeUse where
  named := by
    rw [hvalue]
    rfl
  stored := by
    rw [huses]
    exact List.mem_singleton_self _
  request := by
    rw [hvalue]
    rfl
  subject := by
    rw [hvalue]
    exact .inl (by decide : "projection" ∈ knowledgeUse.subjectVersionRefs)
  grants := by
    rw [hvalue]
    exact fun ref href => List.mem_singleton.mp href
  granted := by
    rw [hgrants, hvalue]
    refine ⟨knowledgeGrant, List.mem_singleton_self _, rfl, by decide, fun request hrequest => ?_⟩
    have hrequested : (officialProjection domain version).request = some
        { capability := "knowledge.promote", actorRef := "promoter",
          resourceRef := some "projection", effectClass := .writeLocal,
          subjectVersionRefs := ["projection", "projection:v1"] } := rfl
    obtain rfl := Option.some.inj (hrequested.symm.trans hrequest)
    decide

set_option maxRecDepth 20000 in
/-- One use justifies two contents, and the version that is stored goes from 2 to 1. -/
theorem use_justifies_two_contents :
    History "projection" qualifiedStore [firstSave, secondSave] secondStore ∧
    (firstSave.value.lifecycleStatus = .official ∧ secondSave.value.lifecycleStatus = .official ∧
      firstSave.value.validityScope ≠ secondSave.value.validityScope) ∧
    (∃ use, firstSave.JustifiedBy use ∧ secondSave.JustifiedBy use) ∧
    firstSave.value.extra = [("version", .int 2)] ∧
    secondStore.get .knowledgeProjection "projection" = some (officialProjection "refunds" 1) ∧
    (officialProjection "refunds" 1).extra = [("version", .int 1)] := by
  refine ⟨saved_twice, ⟨rfl, rfl, by decide⟩, ⟨knowledgeUse, ?_, ?_⟩, rfl, rfl, rfl⟩
  · exact justifiedBy_knowledgeUse (c := firstSave) rfl rfl rfl
  · exact justifiedBy_knowledgeUse (c := secondSave) rfl rfl rfl

end ProjectionSave
end PortableRuntime
