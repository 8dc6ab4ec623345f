import PortableRuntime.Experience.UseAdmission
import PortableRuntime.Library.Sorting
import PortableRuntime.Stores.Keyed

/-!
# Experience admission and the order of the store

Two states that list the same objects, and two requirements that name the same references, lead
to the same admission.  What is looked up in a state is looked up by id, and what is collected
from its lists is a rearrangement, which the sorted lists of the snapshot hide as long as an id
tells the derivations and the relations apart.
-/

namespace PortableRuntime
namespace Experience

/-! ## Two states that list the same objects -/

/-- Every kind is listed with the same objects, in any order. -/
def SameObjects (s s' : State) : Prop := ∀ k, (s k).Perm (s' k)

variable {s s' : State}

theorem SameObjects.bucket (h : SameObjects s s') (k : Kind) :
    (bucket s k).Perm (bucket s' k) :=
  (h k).map k.dump

theorem findExact_congr (h : SameObjects s s') (ref : String) (kinds : List Kind) :
    findExact s ref kinds = findExact s' ref kinds := by
  have hfound : (kinds.flatMap (fun k => ((bucket s k).filter (fun raw =>
      (raw.get "id").eqStr ref)).map (fun raw => (k, raw)))).Perm
      (kinds.flatMap (fun k => ((bucket s' k).filter (fun raw =>
        (raw.get "id").eqStr ref)).map (fun raw => (k, raw)))) :=
    List.Perm.flatMap_left kinds (fun k _ => ((h.bucket k).filter _).map _)
  unfold findExact
  split
  · next found hone =>
    rw [hone] at hfound
    rw [← List.singleton_perm.mp hfound]
  · next hnone =>
    split
    · next found hone =>
      rw [hone] at hfound
      exact absurd (List.perm_singleton.mp hfound) (hnone found)
    · rfl

theorem directGraph_congr (h : SameObjects s s') (projection : KnowledgeProjection) :
    directGraph s projection = directGraph s' projection := by
  have hdirect : directRef s = directRef s' := by
    funext field ref
    rw [directRef, directRef, findExact_congr h]
  rw [directGraph, directGraph, hdirect]

theorem resolveOptionalLocalRefs_congr (h : SameObjects s s') (refs : List String)
    (role : String) :
    resolveOptionalLocalRefs s refs role = resolveOptionalLocalRefs s' refs role := by
  have hlocal : localRef s role = localRef s' role := by
    funext ref
    rw [localRef, localRef, findExact_congr h]
  rw [resolveOptionalLocalRefs, resolveOptionalLocalRefs, hlocal]

/-! ## The related graph -/

theorem isRelatedRelation_congr {seed seed' : List String} (h : ∀ ref, ref ∈ seed ↔ ref ∈ seed') :
    isRelatedRelation seed = isRelatedRelation seed' := by
  funext raw
  rw [isRelatedRelation, isRelatedRelation, Json.inSet_congr h, Json.inSet_congr h]

theorem requiresRevalidation_congr {refs refs' : List String}
    (h : ∀ ref, ref ∈ refs ↔ ref ∈ refs') :
    requiresRevalidation refs = requiresRevalidation refs' := by
  funext raw
  rw [requiresRevalidation, requiresRevalidation, Json.inSet_congr h, Json.inSet_congr h]

/-- The ids of derivations, after other references. -/
theorem mem_append_ids_iff {refs : List String} {derivations derivations' : List Fields}
    (h : derivations.Perm derivations') (ref : String) :
    ref ∈ refs ++ derivations.filterMap (fun raw => (raw.get "id").asStr?) ↔
      ref ∈ refs ++ derivations'.filterMap (fun raw => (raw.get "id").asStr?) :=
  ((h.filterMap _).append_left refs).mem_iff

theorem relatedGraph_perm (h : SameObjects s s') {projection : KnowledgeProjection}
    {resolved : Dict String ResolvedObject} {derivations relations : List Fields}
    (hgraph : relatedGraph s projection resolved = .ok (derivations, relations)) :
    ∃ derivations' relations', relatedGraph s' projection resolved =
        .ok (derivations', relations') ∧
      derivations.Perm derivations' ∧ relations.Perm relations' := by
  obtain ⟨d, hderivations, hgraph⟩ := Result.bind_eq_ok.mp hgraph
  obtain ⟨r, hrelations, hgraph⟩ := Result.bind_eq_ok.mp hgraph
  obtain ⟨rfl, rfl⟩ := Prod.mk.inj (Result.pure_eq_ok.mp hgraph)
  obtain ⟨d', hderivations', hd⟩ := Result.filterM_perm (h.bucket .record) hderivations
  rw [isRelatedRelation_congr (mem_append_ids_iff hd)] at hrelations
  obtain ⟨r', hrelations', hr⟩ := Result.filterM_perm (h.bucket .relation) hrelations
  refine ⟨d', r', ?_, hd, hr⟩
  rw [relatedGraph, Result.bind_eq_ok]
  exact ⟨d', hderivations', Result.bind_eq_ok.mpr ⟨r', hrelations', rfl⟩⟩

/-! ## Negative knowledge -/

/-- The same finding, with its reasons in any order. -/
inductive NegativeFinding.Same : NegativeFinding → NegativeFinding → Prop
  | blocked {reasons reasons' : List String} (h : reasons.Perm reasons') :
    Same (.blocked reasons) (.blocked reasons')
  | unknown (reason : String) : Same (.unknown reason) (.unknown reason)
  | outside (reason : String) : Same (.outside reason) (.outside reason)

theorem NegativeFinding.Same.refl (f : NegativeFinding) : f.Same f := by
  cases f with
  | blocked reasons => exact .blocked (.refl reasons)
  | unknown reason => exact .unknown reason
  | outside reason => exact .outside reason

theorem boundFinding_perm {requirement : ExperienceUseRequirement} {ref : String} {fact : Fields}
    {bound bound' : List Fields} (h : bound.Perm bound') :
    (boundFinding requirement ref fact bound).Same (boundFinding requirement ref fact bound') := by
  have hempty {l l' : List Fields} (hperm : l.Perm l') : l'.isEmpty = l.isEmpty := by
    rw [Bool.eq_iff_iff, List.isEmpty_iff, List.isEmpty_iff, ← List.length_eq_zero_iff,
      ← List.length_eq_zero_iff, hperm.length_eq]
  unfold boundFinding
  dsimp only
  rw [hempty h, hempty (h.filter _), h.any_eq]
  split
  · exact .refl _
  · split
    · exact .blocked ((h.filter _).map _)
    · exact .refl _

theorem negativeFinding_perm {projection : KnowledgeProjection}
    {requirement : ExperienceUseRequirement} {resolved : Dict String ResolvedObject}
    {relations relations' : List Fields} (h : relations.Perm relations') {ref : String}
    {finding : NegativeFinding}
    (hfinding : negativeFinding projection requirement resolved relations ref = .ok finding) :
    ∃ finding', negativeFinding projection requirement resolved relations' ref = .ok finding' ∧
      finding.Same finding' := by
  unfold negativeFinding at hfinding ⊢
  cases hentry : resolved.get? ref with
  | none =>
    rw [hentry] at hfinding
    exact ⟨finding, hfinding, .refl finding⟩
  | some entry =>
    rw [hentry] at hfinding
    obtain ⟨bound, hbound, hfinding⟩ := Result.bind_eq_ok.mp hfinding
    obtain rfl := Result.pure_eq_ok.mp hfinding
    obtain ⟨bound', hbound', hperm⟩ := Result.filterM_perm h hbound
    exact ⟨_, Result.bind_eq_ok.mpr ⟨bound', hbound', rfl⟩, boundFinding_perm hperm⟩

/-- The loop ends with the same status, and with its reasons in any order. -/
theorem classifyNegativeRefs_perm {finding finding' : String → Result NegativeFinding}
    (h : ∀ ref found, finding ref = .ok found → ∃ found', finding' ref = .ok found' ∧
      found.Same found') {refs : List String} {sawUnknown : Bool}
    {reasons reasons' : List String} (hreasons : reasons.Perm reasons')
    {status : Option ExperienceUseStatus} {out : List String}
    (hclassified : classifyNegativeRefs finding sawUnknown reasons refs = .ok (status, out)) :
    ∃ out', classifyNegativeRefs finding' sawUnknown reasons' refs = .ok (status, out') ∧
      out.Perm out' := by
  induction refs generalizing sawUnknown reasons reasons' with
  | nil =>
    obtain ⟨rfl, rfl⟩ := Prod.mk.inj (Except.ok.inj hclassified)
    exact ⟨reasons', rfl, hreasons⟩
  | cons ref rest ih =>
    rw [classifyNegativeRefs, Result.bind_eq_ok] at hclassified
    obtain ⟨found, hfound, hclassified⟩ := hclassified
    obtain ⟨found', hfound', hsame⟩ := h ref found hfound
    rw [classifyNegativeRefs]
    cases hsame with
    | blocked hperm =>
      obtain ⟨rfl, rfl⟩ := Prod.mk.inj (Result.pure_eq_ok.mp hclassified)
      exact ⟨_, Result.bind_eq_ok.mpr ⟨_, hfound', rfl⟩, hreasons.append hperm⟩
    | unknown reason =>
      obtain ⟨out', hout', hperm⟩ := ih (hreasons.append_right [reason]) hclassified
      exact ⟨out', Result.bind_eq_ok.mpr ⟨_, hfound', hout'⟩, hperm⟩
    | outside reason =>
      obtain ⟨out', hout', hperm⟩ := ih (hreasons.append_right [reason]) hclassified
      exact ⟨out', Result.bind_eq_ok.mpr ⟨_, hfound', hout'⟩, hperm⟩

/-! ## One projection -/

/-- The same findings, with what comes from lists of the state in any order. -/
structure Evaluation.Rearranged (e e' : Evaluation) : Prop where
  projections : e'.projections = e.projections
  resolvedObjects : e'.resolvedObjects = e.resolvedObjects
  derivations : e.derivations.Perm e'.derivations
  relations : e.relations.Perm e'.relations
  unresolved : e'.unresolved = e.unresolved
  reasons : e.reasons.Perm e'.reasons
  statuses : e.statuses.Perm e'.statuses

theorem Evaluation.Rearranged.refl (e : Evaluation) : e.Rearranged e :=
  ⟨rfl, rfl, .refl _, .refl _, rfl, .refl _, .refl _⟩

theorem Evaluation.Rearranged.add {e e' found found' : Evaluation} (h : e.Rearranged e')
    (hfound : found.Rearranged found') : (e.add found).Rearranged (e'.add found') where
  projections := by
    show e'.projections ++ found'.projections = _
    rw [h.projections, hfound.projections]
    rfl
  resolvedObjects := by
    show e'.resolvedObjects.update found'.resolvedObjects = _
    rw [h.resolvedObjects, hfound.resolvedObjects]
    rfl
  derivations := h.derivations.append hfound.derivations
  relations := h.relations.append hfound.relations
  unresolved := by
    show e'.unresolved ++ found'.unresolved = _
    rw [h.unresolved, hfound.unresolved]
    rfl
  reasons := h.reasons.append hfound.reasons
  statuses := h.statuses.append hfound.statuses

theorem examineProjection_perm (h : SameObjects s s') {requirement : ExperienceUseRequirement}
    {ref : String} {projection : KnowledgeProjection} {found : Evaluation}
    (hfound : examineProjection s requirement ref projection = .ok found) :
    ∃ found', examineProjection s' requirement ref projection = .ok found' ∧
      found.Rearranged found' := by
  rw [examineProjection, directGraph_congr h, resolveOptionalLocalRefs_congr h,
    resolveOptionalLocalRefs_congr h] at hfound
  obtain ⟨⟨derivations, relations⟩, hgraph, hfound⟩ := Result.bind_eq_ok.mp hfound
  obtain ⟨⟨status, reasons⟩, hnegative, hfound⟩ := Result.bind_eq_ok.mp hfound
  obtain ⟨revalidations, hrevalidations, hfound⟩ := Result.bind_eq_ok.mp hfound
  obtain rfl := Result.pure_eq_ok.mp hfound
  obtain ⟨derivations', relations', hgraph', hd, hr⟩ := relatedGraph_perm h hgraph
  obtain ⟨reasons', hnegative', hreasons⟩ := classifyNegativeRefs_perm
    (fun _ _ => negativeFinding_perm hr) (.refl []) hnegative
  rw [requiresRevalidation_congr (mem_append_ids_iff hd)] at hrevalidations
  obtain ⟨revalidations', hrevalidations', hv⟩ := Result.filterM_perm hr hrevalidations
  refine ⟨_, Result.bind_eq_ok.mpr ⟨_, hgraph', Result.bind_eq_ok.mpr ⟨_, hnegative',
    Result.bind_eq_ok.mpr ⟨_, hrevalidations', rfl⟩⟩⟩, ?_⟩
  have hchecks {checks : List (ExperienceUseStatus × String)} :
      (checks ++ revalidations.map (fun relation => (ExperienceUseStatus.stale,
        s!"requires-revalidation:{idText relation}"))).Perm
      (checks ++ revalidations'.map (fun relation => (ExperienceUseStatus.stale,
        s!"requires-revalidation:{idText relation}"))) :=
    (hv.map _).append_left checks
  exact ⟨rfl, rfl, hd, hr, rfl,
    (((hchecks.map Prod.snd).append_right _).append_right _).append hreasons,
    ((hchecks.map Prod.fst).append_right _).append_right _ |>.append_right _⟩

section Evaluate

variable (sha256 : String → String) (modelValidate : Fields → Option KnowledgeProjection)

theorem examine_perm (h : SameObjects s s') {requirement : ExperienceUseRequirement}
    {ref : String} {found : Evaluation}
    (hfound : examine modelValidate s requirement ref = .ok found) :
    ∃ found', examine modelValidate s' requirement ref = .ok found' ∧ found.Rearranged found' := by
  unfold examine at hfound ⊢
  rw [← findExact_congr h]
  cases hexact : findExact s ref [.knowledgeProjection] with
  | none =>
    rw [hexact] at hfound
    exact ⟨found, hfound, .refl found⟩
  | some match_ =>
    obtain ⟨kind, raw⟩ := match_
    rw [hexact] at hfound
    dsimp only at hfound ⊢
    cases hvalid : modelValidate raw with
    | none =>
      rw [hvalid] at hfound
      exact ⟨found, hfound, .refl found⟩
    | some projection =>
      rw [hvalid] at hfound
      exact examineProjection_perm h hfound

theorem Evaluation.Rearranged.foldl_add {found found' : List Evaluation}
    (h : List.Forall₂ Evaluation.Rearranged found found') {e e' : Evaluation}
    (he : e.Rearranged e') : (found.foldl .add e).Rearranged (found'.foldl .add e') := by
  induction h generalizing e e' with
  | nil => exact he
  | cons hfirst _ ih => exact ih (he.add hfirst)

theorem examineAll_perm (h : SameObjects s s') {requirement : ExperienceUseRequirement}
    {e : Evaluation} (he : examineAll modelValidate s requirement = .ok e) :
    ∃ e', examineAll modelValidate s' requirement = .ok e' ∧ e.Rearranged e' := by
  obtain ⟨found, hfound, rfl⟩ := (examineAll_eq_ok modelValidate).mp he
  obtain ⟨found', hfound', hall⟩ := Result.mapM_rel
    (fun ref _ _ hexamined => examine_perm modelValidate h hexamined) hfound
  exact ⟨_, (examineAll_eq_ok modelValidate).mpr ⟨found', hfound', rfl⟩,
    .foldl_add hall (.refl _)⟩

/-! ## The snapshot -/

/-- Values that are told apart by their id, but for what is noise. -/
def ToldApart (values : List Fields) : Prop :=
  ∀ a ∈ values, ∀ b ∈ values, idText (withoutNoiseFields a) = idText (withoutNoiseFields b) →
    withoutNoiseFields a = withoutNoiseFields b

theorem sortedById_perm {values values' : List Fields} (hperm : values.Perm values')
    (h : ToldApart values) :
    sortedById (values.map withoutNoiseFields) = sortedById (values'.map withoutNoiseFields) := by
  refine insertionSort_of_perm (hperm.map withoutNoiseFields) (fun a ha b hb hab hba => ?_)
  obtain ⟨raw, hraw, rfl⟩ := List.mem_map.mp ha
  obtain ⟨raw', hraw', rfl⟩ := List.mem_map.mp hb
  exact h raw hraw raw' hraw' (String.le_antisymm hab hba)

theorem snapshotPayload_rearranged {requirement : ExperienceUseRequirement} {e e' : Evaluation}
    (h : e.Rearranged e') (hderivations : ToldApart e.derivations)
    (hrelations : ToldApart e.relations) :
    snapshotPayload requirement e' = snapshotPayload requirement e := by
  rw [snapshotPayload, snapshotPayload, h.projections, h.resolvedObjects, h.unresolved,
    sortedById_perm h.derivations hderivations, sortedById_perm h.relations hrelations]

theorem decideStatus_perm {statuses statuses' : List ExperienceUseStatus}
    (h : statuses.Perm statuses') : decideStatus statuses = decideStatus statuses' := by
  have hcontains (status : ExperienceUseStatus) :
      statuses.contains status = statuses'.contains status := by
    rw [Bool.eq_iff_iff, List.contains_iff_mem, List.contains_iff_mem, h.mem_iff]
  simp only [decideStatus, hcontains]

/-! ## What the snapshot is drawn from -/

/-- The collected derivations and relations stand in the lists of the state. -/
structure Evaluation.DrawnFrom (s : State) (e : Evaluation) : Prop where
  derivations : ∀ raw ∈ e.derivations, ∃ d ∈ s.records, d.recordType = .derivation ∧ raw = d.dump
  relations : ∀ raw ∈ e.relations, ∃ r ∈ s.relations, raw = r.dump

theorem Evaluation.DrawnFrom.add {e found : Evaluation} (h : e.DrawnFrom s)
    (hfound : found.DrawnFrom s) : (e.add found).DrawnFrom s where
  derivations raw hraw := (List.mem_append.mp hraw).elim (h.derivations raw)
    (hfound.derivations raw)
  relations raw hraw := (List.mem_append.mp hraw).elim (h.relations raw) (hfound.relations raw)

theorem Evaluation.drawnFrom_unavailable (projectionRef why : String) :
    (Evaluation.unavailable projectionRef why).DrawnFrom s where
  derivations _ hraw := absurd hraw List.not_mem_nil
  relations _ hraw := absurd hraw List.not_mem_nil

theorem recordType_of_isRelatedDerivation {projection : KnowledgeProjection} {d : BaseRecord}
    (h : isRelatedDerivation projection d.dump = .ok true) : d.recordType = .derivation := by
  have htype : d.dump.get "record_type" = .str d.recordType.text := rfl
  rw [isRelatedDerivation, htype] at h
  cases hrecord : d.recordType with
  | derivation => rfl
  | _ =>
    rw [hrecord] at h
    exact absurd (Except.ok.inj h) Bool.false_ne_true

theorem examine_drawnFrom {requirement : ExperienceUseRequirement} {ref : String}
    {found : Evaluation} (h : examine modelValidate s requirement ref = .ok found) :
    found.DrawnFrom s := by
  unfold examine at h
  split at h
  · exact Except.ok.inj h ▸ Evaluation.drawnFrom_unavailable ref _
  · split at h
    · exact Except.ok.inj h ▸ Evaluation.drawnFrom_unavailable ref _
    · obtain ⟨⟨derivations, relations⟩, hgraph, h⟩ := Result.bind_eq_ok.mp h
      obtain ⟨_, _, h⟩ := Result.bind_eq_ok.mp h
      obtain ⟨_, _, h⟩ := Result.bind_eq_ok.mp h
      obtain rfl := Result.pure_eq_ok.mp h
      obtain ⟨d, hderivations, hgraph⟩ := Result.bind_eq_ok.mp hgraph
      obtain ⟨r, hrelations, hgraph⟩ := Result.bind_eq_ok.mp hgraph
      obtain ⟨rfl, rfl⟩ := Prod.mk.inj (Result.pure_eq_ok.mp hgraph)
      obtain ⟨htests, rfl⟩ := Result.filterM_eq_ok.mp hderivations
      obtain ⟨-, rfl⟩ := Result.filterM_eq_ok.mp hrelations
      constructor
      · intro raw hraw
        obtain ⟨hbucket, htest⟩ := List.mem_filter.mp hraw
        obtain ⟨value, hvalue, rfl⟩ := List.mem_map.mp hbucket
        obtain ⟨b, hb⟩ := htests _ hbucket
        have hb' : b = true := by
          rw [hb] at htest
          exact htest
        exact ⟨value, hvalue, recordType_of_isRelatedDerivation (hb' ▸ hb), rfl⟩
      · intro raw hraw
        obtain ⟨value, hvalue, rfl⟩ := List.mem_map.mp (List.mem_filter.mp hraw).1
        exact ⟨value, hvalue, rfl⟩

theorem Evaluation.DrawnFrom.foldl_add {found : List Evaluation}
    (h : ∀ one ∈ found, one.DrawnFrom s) {e : Evaluation} (he : e.DrawnFrom s) :
    (found.foldl .add e).DrawnFrom s := by
  induction found generalizing e with
  | nil => exact he
  | cons one rest ih =>
    obtain ⟨hone, hrest⟩ := List.forall_mem_cons.mp h
    exact ih hrest (he.add hone)

theorem Evaluation.drawnFrom_start (requirement : ExperienceUseRequirement) :
    (Evaluation.start requirement).DrawnFrom s := by
  unfold Evaluation.start
  split
  · exact ⟨fun _ hraw => absurd hraw List.not_mem_nil, fun _ hraw => absurd hraw List.not_mem_nil⟩
  · exact ⟨fun _ hraw => absurd hraw List.not_mem_nil, fun _ hraw => absurd hraw List.not_mem_nil⟩

theorem examineAll_drawnFrom {requirement : ExperienceUseRequirement} {e : Evaluation}
    (h : examineAll modelValidate s requirement = .ok e) : e.DrawnFrom s := by
  obtain ⟨found, hfound, rfl⟩ := (examineAll_eq_ok modelValidate).mp h
  refine .foldl_add (fun one hone => ?_) (Evaluation.drawnFrom_start requirement)
  obtain ⟨ref, -, hexamined⟩ := (Result.mem_of_mapM hfound one).mp hone
  exact examine_drawnFrom modelValidate hexamined

/-- The ids of a state tell its derivations apart and its relations, but for what is noise. -/
structure TellsApart (s : State) : Prop where
  derivations : ∀ d ∈ s.records, ∀ d' ∈ s.records, d.recordType = .derivation →
    d'.recordType = .derivation → d.id = d'.id →
    withoutNoiseFields d.dump = withoutNoiseFields d'.dump
  relations : ∀ r ∈ s.relations, ∀ r' ∈ s.relations, r.id = r'.id →
    withoutNoiseFields r.dump = withoutNoiseFields r'.dump

theorem idText_record (d : BaseRecord) : idText (withoutNoiseFields d.dump) = d.id := rfl

theorem idText_relation (r : RecordRelation) : idText (withoutNoiseFields r.dump) = r.id := rfl

theorem Evaluation.DrawnFrom.toldApart {e : Evaluation} (h : e.DrawnFrom s) (hs : TellsApart s) :
    ToldApart e.derivations ∧ ToldApart e.relations := by
  constructor
  · intro a ha b hb hid
    obtain ⟨d, hd, htype, rfl⟩ := h.derivations a ha
    obtain ⟨d', hd', htype', rfl⟩ := h.derivations b hb
    rw [idText_record, idText_record] at hid
    exact hs.derivations d hd d' hd' htype htype' hid
  · intro a ha b hb hid
    obtain ⟨r, hr, rfl⟩ := h.relations a ha
    obtain ⟨r', hr', rfl⟩ := h.relations b hb
    rw [idText_relation, idText_relation] at hid
    exact hs.relations r hr r' hr' hid

/-! ## The admission -/

theorem evaluate_perm (h : SameObjects s s') (hs : TellsApart s)
    {requirement : ExperienceUseRequirement} {a : ExperienceUseAdmission}
    (ha : evaluate sha256 modelValidate s requirement = .ok a) :
    evaluate sha256 modelValidate s' requirement = .ok a := by
  obtain ⟨e, he, ha⟩ := Result.bind_eq_ok.mp ha
  obtain rfl := Result.pure_eq_ok.mp ha
  obtain ⟨e', he', hsame⟩ := examineAll_perm modelValidate h he
  obtain ⟨hderivations, hrelations⟩ := (examineAll_drawnFrom modelValidate he).toldApart hs
  refine Result.bind_eq_ok.mpr ⟨e', he', ?_⟩
  rw [snapshotPayload_rearranged hsame hderivations hrelations, decideStatus_perm hsame.statuses,
    Text.sortedUnique_of_mem_iff (fun reason => hsame.reasons.mem_iff)]
  rfl

theorem SameObjects.symm (h : SameObjects s s') : SameObjects s' s := fun k => (h k).symm

theorem TellsApart.of_sameObjects (h : SameObjects s s') (hs : TellsApart s) : TellsApart s' where
  derivations d hd d' hd' := hs.derivations d ((h .record).mem_iff.mpr hd) d'
    ((h .record).mem_iff.mpr hd')
  relations r hr r' hr' := hs.relations r ((h .relation).mem_iff.mpr hr) r'
    ((h .relation).mem_iff.mpr hr')

theorem ExperienceUseRequirement.create_congr {refs refs' versions versions' : List String}
    (hrefs : ∀ ref, ref ∈ refs ↔ ref ∈ refs') (hversions : ∀ ref, ref ∈ versions ↔ ref ∈ versions')
    (useScope : Fields) (environment : List (String × String)) (useContext : Fields) :
    create refs useScope versions environment useContext =
      create refs' useScope versions' environment useContext := by
  simp only [create, normalRefs, Text.normalized_of_mem_iff hrefs,
    Text.normalized_of_mem_iff hversions]

/-- The order in which a store lists its objects, and the order and the number of times in which
a requirement names its references, change nothing of an admission. -/
theorem evaluate_storage_order (h : SameObjects s s') (hs : TellsApart s)
    {refs refs' versions versions' : List String} (hrefs : ∀ ref, ref ∈ refs ↔ ref ∈ refs')
    (hversions : ∀ ref, ref ∈ versions ↔ ref ∈ versions') (useScope : Fields)
    (environment : List (String × String)) (useContext : Fields) (a : ExperienceUseAdmission) :
    evaluate sha256 modelValidate s
        (.create refs useScope versions environment useContext) = .ok a ↔
      evaluate sha256 modelValidate s'
        (.create refs' useScope versions' environment useContext) = .ok a := by
  rw [ExperienceUseRequirement.create_congr hrefs hversions]
  exact ⟨evaluate_perm sha256 modelValidate h hs,
    evaluate_perm sha256 modelValidate h.symm (hs.of_sameObjects h)⟩

end Evaluate

/-! ## One projection and its relations -/

/-- In an export of a store that keeps each object under its own identity, ids tell all objects
apart. -/
theorem tellsApart_exportState {st : MemoryStore} (h : st.Keyed) : TellsApart st.exportState := by
  have hsame : ∀ k, ∀ v ∈ st.exportState k, ∀ w ∈ st.exportState k,
      k.identifier v = k.identifier w → v = w := by
    intro k v hv w hw hid
    obtain ⟨i, hi⟩ := Dict.mem_values.mp hv
    obtain ⟨j, hj⟩ := Dict.mem_values.mp hw
    have hkey : i = j := (h k i v hi).symm.trans (hid.trans (h k j w hj))
    subst hkey
    exact Option.some.inj (hi.symm.trans hj)
  exact
    { derivations := fun d hd d' hd' _ _ hid =>
        congrArg (fun r => withoutNoiseFields (BaseRecord.dump r)) (hsame .record d hd d' hd' hid)
      relations := fun r hr r' hr' hid =>
        congrArg (fun r => withoutNoiseFields (RecordRelation.dump r))
          (hsame .relation r hr r' hr' hid) }

/-- The same objects, with the relations listed backwards. -/
def backwards (s : State) : State := Function.update s .relation (s .relation).reverse

theorem sameObjects_backwards (s : State) : SameObjects s (backwards s) := by
  intro k
  by_cases hk : k = .relation
  · subst hk
    rw [backwards, Function.update_self]
    exact (List.reverse_perm _).symm
  · rw [backwards, Function.update_of_ne hk]

/-- The parsing that knows one projection. -/
def readsOnly (projection : KnowledgeProjection) (raw : Fields) : Option KnowledgeProjection :=
  if (raw.get "id").eqStr projection.id then some projection else none

def candidateProjection : KnowledgeProjection :=
  { id := "proj_1", lifecycleStatus := .candidate, createdAt := 0, updatedAt := 0 }

def supportingGoal (id : String) : BaseRecord :=
  { id, recordType := .goal, createdAt := 0, lifecycleStatus := .current }

def supportsProjection (id object : String) : RecordRelation :=
  { id, relationType := .supports, subjectRef := "proj_1", objectRef := object, createdAt := 0 }

open MemoryStore in
/-- A projection and two goals that it is related to. -/
def relatingCalls : List (Time × Op) :=
  [(0, .save .knowledgeProjection candidateProjection),
   (0, .save .record (supportingGoal "record_1")), (0, .save .record (supportingGoal "record_2")),
   (0, .save .relation (supportsProjection "rel_1" "record_1")),
   (0, .save .relation (supportsProjection "rel_2" "record_2"))]

def relatedGoals : MemoryStore := run (MemoryStore.step (fun _ => "")) .empty relatingCalls

theorem keyed_relatedGoals : relatedGoals.Keyed :=
  run_invariant (fun _ _ => MemoryStore.Keyed.step) MemoryStore.keyed_empty
    (⟨trivial, trivial, trivial, trivial, trivial, trivial⟩ :
      Along (MemoryStore.step (fun _ => "")) MemoryStore.WellAddressed .empty relatingCalls)

/-- The relations are listed in either order, and the projection is named twice. -/
theorem evaluate_storage_order_two_relations :
    ∃ a, evaluate id (readsOnly candidateProjection) relatedGoals.exportState
        (.create ["proj_1"] [] [] [] []) = .ok a ∧
      evaluate id (readsOnly candidateProjection) (backwards relatedGoals.exportState)
        (.create ["proj_1", "proj_1"] [] [] [] []) = .ok a := by
  have hok : (evaluate id (readsOnly candidateProjection) relatedGoals.exportState
      (.create ["proj_1"] [] [] [] [])).isOk = true := by decide +kernel
  obtain ⟨a, ha⟩ := Result.exists_of_isOk hok
  exact ⟨a, ha, (evaluate_storage_order id (readsOnly candidateProjection)
    (sameObjects_backwards relatedGoals.exportState) (tellsApart_exportState keyed_relatedGoals)
    (by simp) (fun _ => Iff.rfl) [] [] [] a).mp ha⟩

/-- A swap puts a second relation of an id under the identity of the first relation, and the two
stand in the snapshot as the store lists them. -/
theorem snapshotDigest_depends_on_storage_order :
    let swap : MemoryStore.Op :=
      .compareAndSwap .relation "rel_1" 0 (supportsProjection "rel_2" "record_1")
    let s := (relatedGoals.step (fun _ => "") (0, swap)).exportState
    let requirement : ExperienceUseRequirement := .create ["proj_1"] [] [] [] []
    SameObjects s (backwards s) ∧
      ((evaluate id (readsOnly candidateProjection) s requirement).toOption.map
          (·.snapshotDigest)) ≠
        ((evaluate id (readsOnly candidateProjection) (backwards s) requirement).toOption.map
          (·.snapshotDigest)) :=
  ⟨sameObjects_backwards _, by decide +kernel⟩

end Experience
end PortableRuntime
