import PortableRuntime.Protocol.Valid

/-!
# Validity and the order of the objects

Two checks ask for one passing object among several and stop at the first.  On an object
whose fields have no hash they raise, but only when they come to it.  Where no object makes
them raise, validity does not depend on the order in which a bucket holds its objects.
-/

namespace PortableRuntime

/-- No check raises on the object: the fields that a check looks up in a set have a hash. -/
def Kind.hashable : (k : Kind) → Model k → Bool
  | .record, (r : BaseRecord) =>
    (verificationResultIsPassing r.dump).isOk && (pySet (r.getattr "premise_refs")).isOk &&
      (pySet (r.getattr "evidence_refs")).isOk
  | k, m => (verificationResultIsPassing (k.dump m)).isOk

def State.Hashable (s : State) : Prop := ∀ k, ∀ m ∈ s k, k.hashable m = true

theorem Kind.isOk_of_hashable {k : Kind} {m : Model k} (h : k.hashable m = true) :
    (verificationResultIsPassing (k.dump m)).isOk = true := by
  cases k with
  | record =>
    rw [Kind.hashable, Bool.and_eq_true, Bool.and_eq_true] at h
    exact h.1.1
  | _ => exact h

/-! ## Checks that do not raise -/

section Checks

variable {α : Type} {check : α → Result Bool}

theorem exists_eq_ok_of_isOk {β : Type} {x : Result β} (h : x.isOk = true) : ∃ b, x = .ok b := by
  cases x with
  | error e => exact absurd h (by simp [Except.isOk, Except.toBool])
  | ok b => exact ⟨b, rfl⟩

theorem anyM_eq_any {l : List α} (h : ∀ a ∈ l, (check a).isOk = true) :
    anyM check l = .ok (l.any (fun a => decide (check a = .ok true))) := by
  induction l with
  | nil => rfl
  | cons a rest ih =>
    obtain ⟨b, hb⟩ := exists_eq_ok_of_isOk (h a List.mem_cons_self)
    have hrest := ih (fun a' ha' => h a' (List.mem_cons_of_mem _ ha'))
    cases b with
    | true => simp [anyM, hb, bind, Except.bind, pure, Except.pure]
    | false => simp [anyM, hb, hrest, bind, Except.bind]

theorem allM_isOk {l : List α} (h : ∀ a ∈ l, (check a).isOk = true) :
    (allM check l).isOk = true := by
  induction l with
  | nil => rfl
  | cons a rest ih =>
    obtain ⟨b, hb⟩ := exists_eq_ok_of_isOk (h a List.mem_cons_self)
    have hrest := ih (fun a' ha' => h a' (List.mem_cons_of_mem _ ha'))
    cases b with
    | true => simpa [allM, hb, bind, Except.bind] using hrest
    | false => simp [allM, hb, bind, Except.bind, pure, Except.pure, Except.isOk, Except.toBool]

/-- Whether one of several checks passes does not depend on their order. -/
theorem anyM_perm {l l' : List α} (hperm : l.Perm l') (h : ∀ a ∈ l, (check a).isOk = true) :
    anyM check l' = anyM check l := by
  rw [anyM_eq_any h, anyM_eq_any (fun a ha => h a (hperm.mem_iff.mpr ha)), hperm.any_eq]

end Checks

namespace State

variable {s s' : State} {now : Time}

/-! ## Lookups as functions -/

section Lookups

variable (h : s.Rearranged s') (hs : s.WellIdentified)
include h hs

theorem Rearranged.kindOf_eq : s'.kindOf = s.kindOf := funext (h.kindOf hs)

theorem Rearranged.hasId_eq : s'.hasId = s.hasId := funext (h.hasId hs)

theorem Rearranged.find_eq (k : Kind) : State.find (s' k) = State.find (s k) :=
  funext (h.find hs k)

theorem Rearranged.byId_eq (k : Kind) : (byId (s' k)).get? = (byId (s k)).get? :=
  funext (h.get?_byId hs k)

theorem Rearranged.parsedRecords_eq : s'.parsedRecords.get? = s.parsedRecords.get? :=
  h.byId_eq hs .record

theorem Rearranged.recordTypeOf_eq : s'.recordTypeOf = s.recordTypeOf := by
  funext ref
  rw [State.recordTypeOf, State.recordTypeOf, State.records, State.records, h.find_eq hs .record]

theorem Rearranged.dumps_eq : s'.dumps.get? = s.dumps.get? := funext (h.get?_dumps hs)

theorem Rearranged.localRefs_eq : s'.localRefs = s.localRefs := by
  funext refs
  rw [State.localRefs, State.localRefs, h.hasId_eq hs]

theorem Rearranged.actualType_eq : s'.actualType = s.actualType := by
  funext ref
  simp only [State.actualType, h.kindOf_eq hs, h.recordTypeOf_eq hs]

/-! ## Rules on one object -/

theorem Rearranged.relationErrors_eq : relationErrors s' = relationErrors s := by
  funext relation
  simp only [relationErrors, targetShapeOk, h.hasId_eq hs, h.kindOf_eq hs, h.recordTypeOf_eq hs]

theorem Rearranged.referenceErrors_eq (k : Kind) : referenceErrors s' k = referenceErrors s k := by
  have hedge : edgeErrors s' k = edgeErrors s k := by
    funext id raw edge
    simp only [edgeErrors, h.hasId_eq hs]
  funext m
  simp only [referenceErrors, hedge]

theorem Rearranged.authorizationErrors_eq : authorizationErrors s' = authorizationErrors s := by
  funext grant
  simp only [authorizationErrors, h.hasId_eq hs]

theorem Rearranged.useErrors_eq : useErrors s' = useErrors s := by
  funext use
  simp only [useErrors, State.authorizations, h.find_eq hs .authorization]

theorem Rearranged.revisionErrors_eq : revisionErrors now s' = revisionErrors now s := by
  funext record
  simp only [revisionErrors, revisionAuthorizationErrors, revisionGrant, revisionGrantErrors,
    revisionEndpointErrors, State.recordAt, namedUse, State.authorizations, State.uses,
    h.byId_eq hs .authorization, h.find_eq hs .authorizationUse, h.parsedRecords_eq hs]

theorem Rearranged.supersedesErrors_eq : supersedesErrors s' = supersedesErrors s := by
  funext relation
  simp only [supersedesErrors, supersedesProofErrors, namedUse, State.authorizations, State.uses,
    h.parsedRecords_eq hs, h.find_eq hs .authorization, h.find_eq hs .authorizationUse]

theorem Rearranged.runErrors_eq : runErrors s' = runErrors s := by
  funext run
  simp only [runErrors, proofErrors, State.worksById, State.works, h.byId_eq hs .work,
    h.parsedRecords_eq hs]

end Lookups

/-! ## Rules that look for one object among several -/

theorem pairedRuns_perm (h : s.Rearranged s') (hs : s.WellIdentified) (work : Work) :
    (s.pairedRuns work).Perm (s'.pairedRuns work) := by
  rw [pairedRuns, pairedRuns, hs.runsById_values, (h.wellIdentified hs).runsById_values]
  exact (h .run).filter _

theorem Rearranged.workErrors_eq_nil (h : s.Rearranged s') (hs : s.WellIdentified) {work : Work}
    (hwork : workErrors s work = []) : workErrors s' work = [] := by
  have hperm := pairedRuns_perm h hs work
  rw [workErrors] at hwork ⊢
  split_ifs at hwork ⊢ with hcompleted hnone hnone'
  · rfl
  · rw [List.isEmpty_iff] at hnone hnone'
    exact absurd (List.perm_nil.mp (hnone ▸ hperm)) hnone'
  · rw [List.flatMap_eq_nil_iff] at hwork ⊢
    exact fun run hrun => hwork run (hperm.mem_iff.mpr hrun)

theorem length_sortedUnique_le_one {l : List String} :
    (Text.sortedUnique l).length ≤ 1 ↔ ∀ a ∈ l, ∀ b ∈ l, a = b := by
  rw [Text.sortedUnique, Text.sorted, List.length_insertionSort]
  constructor
  · intro hlength a ha b hb
    rw [← List.mem_dedup] at ha hb
    rcases hl : l.dedup with _ | ⟨c, _ | ⟨d, rest⟩⟩
    · simp [hl] at ha
    · rw [hl, List.mem_singleton] at ha hb
      rw [ha, hb]
    · simp [hl] at hlength
  · intro hall
    rcases hl : l.dedup with _ | ⟨c, _ | ⟨d, rest⟩⟩
    · simp
    · simp
    · have hmem (x : String) (hx : x ∈ c :: d :: rest) : x ∈ l := by
        rw [← List.mem_dedup, hl]
        exact hx
      have hnodup := hl ▸ l.nodup_dedup
      have heq := hall c (hmem c (by simp)) d (hmem d (by simp))
      simp [heq] at hnodup

/-- Each predecessor has one active superseder. -/
theorem supersederErrors_eq_nil : supersederErrors s = [] ↔
    ∀ e ∈ s.activeSuperseders, ∀ e' ∈ s.activeSuperseders, e.1 = e'.1 → e.2 = e'.2 := by
  rw [supersederErrors, List.flatMap_eq_nil_iff]
  simp only [List.mem_dedup, errorIf_eq_nil, decide_eq_false_iff_not, not_lt,
    length_sortedUnique_le_one, List.mem_map, List.mem_filter, decide_eq_true_eq]
  constructor
  · intro hall e he e' he' hsame
    exact hall e.1 ⟨e, he, rfl⟩ e.2 ⟨e, ⟨he, rfl⟩, rfl⟩ e'.2 ⟨e', ⟨he', hsame.symm⟩, rfl⟩
  · rintro hall _ ⟨e, he, rfl⟩ _ ⟨a, ⟨ha, hae⟩, rfl⟩ _ ⟨b, ⟨hb, hbe⟩, rfl⟩
    exact hall a ha b hb (hae.trans hbe.symm)

theorem activeSuperseders_perm (h : s.Rearranged s') (hs : s.WellIdentified) :
    s.activeSuperseders.Perm s'.activeSuperseders := by
  rw [activeSuperseders, activeSuperseders, h.parsedRecords_eq hs]
  exact (((h .relation).filter _).filter _).map _

theorem lineageEdges_perm (h : s.Rearranged s') (hs : s.WellIdentified) :
    s.lineageEdges.Perm s'.lineageEdges := by
  rw [lineageEdges, lineageEdges, h.hasId_eq hs]
  exact (((h .relation).filter _).filter _).map _

theorem lineageErrors_eq_nil : lineageErrors s = [] ↔ Lineage.Acyclic s.lineageEdges := by
  rw [lineageErrors, List.map_eq_nil_iff]
  exact Lineage.cycleNodes_eq_nil (fun a ha => mem_keepFirst_id.mpr ha)

/-! ## Checks over several objects -/

theorem Hashable.passingRef_isOk (hash : s.Hashable) (hs : s.WellIdentified) (ref : String) :
    (passingRef s.dumps ref).isOk = true := by
  rw [passingRef]
  cases hraw : s.dumps.get? ref with
  | none => rfl
  | some raw =>
    obtain ⟨k, m, hm, -, rfl⟩ := (get?_dumps hs).mp hraw
    exact Kind.isOk_of_hashable (hash k m hm)

theorem Hashable.allPassing_isOk (hash : s.Hashable) (hs : s.WellIdentified)
    (refs : List String) : (allPassing s.dumps refs).isOk = true := by
  rw [allPassing]
  split
  · rfl
  · exact allM_isOk (fun ref _ => hash.passingRef_isOk hs ref)

theorem Hashable.derivationBinds_isOk (hash : s.Hashable) {p : KnowledgeProjection}
    {assertionRef : String} {derivation : BaseRecord} (hmem : derivation ∈ s.records) :
    (derivationBinds s p assertionRef derivation).isOk = true := by
  have hfields : Kind.hashable .record derivation = true := hash .record derivation hmem
  rw [Kind.hashable, Bool.and_eq_true, Bool.and_eq_true] at hfields
  obtain ⟨premises, hpremises⟩ := exists_eq_ok_of_isOk hfields.1.2
  obtain ⟨evidence, hevidence⟩ := exists_eq_ok_of_isOk hfields.2
  simp only [derivationBinds, hpremises, hevidence, bind, Except.bind]
  rfl

section Several

variable (h : s.Rearranged s') (hs : s.WellIdentified) (hash : s.Hashable)
include h hs hash

theorem Rearranged.hasEffectiveVerification_eq (target : BaseRecord) :
    hasEffectiveVerification target s' = hasEffectiveVerification target s := by
  have hpassing : allPassing s'.dumps = allPassing s.dumps := by
    have href : passingRef s'.dumps = passingRef s.dumps := by
      funext ref
      rw [passingRef, passingRef, h.dumps_eq hs]
    funext refs
    rw [allPassing, allPassing, href]
  simp only [hasEffectiveVerification, hpassing, State.relations]
  rw [anyM_perm ((h .relation).filter _) (fun rel _ => hash.allPassing_isOk hs _)]

theorem Rearranged.promotionErrors_eq : promotionErrors now s' = promotionErrors now s := by
  funext record
  simp only [promotionErrors, h.hasEffectiveVerification_eq hs hash,
    hasStructuralAuthorizationProof_rearranged h hs]

omit hash in
theorem Rearranged.derivationBinds_eq : derivationBinds s' = derivationBinds s := by
  have hjudgment : judgmentError s' = judgmentError s := by
    funext p ref
    simp only [judgmentError, h.parsedRecords_eq hs, h.localRefs_eq hs]
  have hrelations (test : RecordRelation → Bool) : s'.relations.any test = s.relations.any test :=
    (h .relation).symm.any_eq
  funext p assertionRef derivation
  simp only [derivationBinds, validJudgments, hjudgment, h.localRefs_eq hs, hrelations]

theorem Rearranged.bindingErrors_eq : bindingErrors s' = bindingErrors s := by
  have hperm (assertionRef : String) :
      (derivationsOf s assertionRef).Perm (derivationsOf s' assertionRef) := by
    rw [derivationsOf, derivationsOf, hs.parsedRecords_values,
      (h.wellIdentified hs).parsedRecords_values]
    exact (h .record).filter _
  funext p assertionRef
  rw [bindingErrors, bindingErrors, h.derivationBinds_eq hs, anyM_perm (hperm assertionRef)]
  intro derivation hmem
  rw [derivationsOf, hs.parsedRecords_values] at hmem
  exact hash.derivationBinds_isOk (List.mem_filter.mp hmem).1

theorem Rearranged.projectionErrors_eq : projectionErrors now s' = projectionErrors now s := by
  have hgrant : projectionGrantErrors now s' = projectionGrantErrors now s := by
    funext p ref
    simp only [projectionGrantErrors, State.authorizations, h.find_eq hs .authorization,
      grantHolds_rearranged h hs]
  have hjudgment : judgmentError s' = judgmentError s := by
    funext p ref
    simp only [judgmentError, h.parsedRecords_eq hs, h.localRefs_eq hs]
  funext p
  simp only [projectionErrors, projectionTypeErrors, unresolvedErrors,
    projectionAuthorizationErrors, judgmentErrors, hgrant, hjudgment, h.hasId_eq hs,
    h.kindOf_eq hs, h.actualType_eq hs, h.localRefs_eq hs, h.bindingErrors_eq hs hash]

end Several

theorem Rearranged.graphOk (h : s.Rearranged s') (hash : s.Hashable) (hok : GraphOk now s) :
    GraphOk now s' := by
  have hs := hok.identified
  have hmem {k : Kind} {m : Model k} (hm : m ∈ s' k) : m ∈ s k := (h k).mem_iff.mpr hm
  refine
    { identified := h.wellIdentified hs
      records := fun r hr => hok.records r (hmem hr)
      relations := fun r hr => h.relationErrors_eq hs ▸ hok.relations r (hmem hr)
      references := fun k m hm => h.referenceErrors_eq hs k ▸ hok.references k m (hmem hm)
      authorizations := fun g hg => h.authorizationErrors_eq hs ▸ hok.authorizations g (hmem hg)
      uses := fun u hu => h.useErrors_eq hs ▸ hok.uses u (hmem hu)
      promotions := fun r hr => h.promotionErrors_eq hs hash ▸ hok.promotions r (hmem hr)
      projections := fun p hp => h.projectionErrors_eq hs hash ▸ hok.projections p (hmem hp)
      revisions := fun r hr => h.revisionErrors_eq hs ▸ hok.revisions r (hmem hr)
      supersedes := fun r hr => ?_
      runs := fun r hr => h.runErrors_eq hs ▸ hok.runs r (hmem hr)
      works := fun w hw => h.workErrors_eq_nil hs (hok.works w (hmem hw))
      superseders := ?_
      lineage := ?_ }
  · have hsupersedes : r ∈ s.supersedes := ((h .relation).filter _).mem_iff.mpr hr
    exact h.supersedesErrors_eq hs ▸ hok.supersedes r hsupersedes
  · have hperm := activeSuperseders_perm h hs
    refine supersederErrors_eq_nil.mpr (fun e he e' he' => ?_)
    exact supersederErrors_eq_nil.mp hok.superseders e (hperm.mem_iff.mpr he) e'
      (hperm.mem_iff.mpr he')
  · exact lineageErrors_eq_nil.mpr ((lineageErrors_eq_nil.mp hok.lineage).mono
      (lineageEdges_perm h hs).symm.subset)

/-- Where no object makes a check raise, validity is a matter of the objects alone. -/
theorem Rearranged.valid (h : s.Rearranged s') (hash : s.Hashable) (hok : Valid now s) :
    Valid now s' := valid_iff.mpr (h.graphOk hash (valid_iff.mp hok))

theorem Hashable.rearranged (hash : s.Hashable) (h : s.Rearranged s') : s'.Hashable :=
  fun k m hm => hash k m ((h k).mem_iff.mpr hm)

end State

end PortableRuntime
