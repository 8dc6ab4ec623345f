import PortableRuntime.Protocol.Reordering

/-!
# Replacing a Revision by its applied version

A Revision counts for the rest of the state by its identity and its type, and as the
authority of the supersedes edges that cite it.  None cites a Revision that is not applied
yet, so once it is replaced by a version with the same identity the other objects are
judged as before.
-/

namespace PortableRuntime

/-- A Revision of the state and the version that takes its place. -/
structure Advances (s : State) (old new : BaseRecord) : Prop where
  mem : old ∈ s.records
  id : new.id = old.id
  oldType : old.recordType = .revision
  newType : new.recordType = .revision
  pending : old.lifecycleStatus ∈ [LifecycleStatus.proposed, .authorized]
  applied : new.lifecycleStatus = .applied
  passing : verificationResultIsPassing new.dump = verificationResultIsPassing old.dump

/-- The state with the new version in the place of the old one. -/
def State.advanced (s : State) (new : BaseRecord) : State := s.merge .record [new]

section Proofs

variable {expected : BindingExpectation} {recordLookup recordLookup' : String → Option BaseRecord}

/-- A proof that is no EvidenceArtifact fails in one way. -/
theorem validateProof_of_not_evidence {ref : String} {record : BaseRecord}
    (hget : recordLookup ref = some record) (htype : record.recordType ≠ .evidenceArtifact) :
    validateProof expected recordLookup ref =
      raiseValue "verification requires typed EvidenceArtifact proofs" := by
  simp [validateProof, hget, guardValue, htype, raiseValue, bind, Except.bind]

end Proofs

namespace State

variable {s : State} {old new : BaseRecord} {now : Time}

theorem advanced_of_ne {k : Kind} (hk : k ≠ .record) : s.advanced new k = s k := by
  rw [advanced, State.merge, Function.update_of_ne hk]

theorem records_advanced : (s.advanced new).records =
    s.records.filter (fun r => !([new].map (Kind.identifier .record)).contains r.id) ++ [new] := by
  rw [State.records, advanced, State.merge, Function.update_self, mergeBucket]
  rfl

theorem mem_records_advanced {r : BaseRecord} :
    r ∈ (s.advanced new).records ↔ (r ∈ s.records ∧ r.id ≠ new.id) ∨ r = new := by
  rw [records_advanced, List.mem_append, List.mem_filter, List.mem_singleton]
  simp [Kind.identifier]

/-- An object that is written over itself moves to the end of its bucket. -/
theorem rearranged_merge_self (hs : s.WellIdentified) {k : Kind} {m : Model k} (hm : m ∈ s k) :
    s.Rearranged (s.merge k [m]) := by
  intro k'
  by_cases hk : k' = k
  · subst hk
    rw [State.merge, Function.update_self, mergeBucket]
    have hnodup := hs.bucket_nodup k'
    have hrest : ∀ m' ∈ (s k').filter
        (fun m' => !([m].map k'.identifier).contains (k'.identifier m')), m' ≠ m := by
      rintro m' hm' rfl
      simpa using (List.mem_filter.mp hm').2
    refine (List.perm_ext_iff_of_nodup hnodup.of_map ?_).mpr (fun m' => ?_)
    · refine List.nodup_append.mpr ⟨hnodup.of_map.filter _, List.nodup_singleton m, ?_⟩
      intro a ha b hb
      rw [List.mem_singleton.mp hb]
      exact hrest a ha
    · rw [List.mem_append, List.mem_filter, List.mem_singleton]
      constructor
      · intro hmem
        by_cases hid : k'.identifier m' = k'.identifier m
        · exact .inr (List.inj_on_of_nodup_map hnodup hmem hm hid)
        · exact .inl ⟨hmem, by simpa using hid⟩
      · rintro (⟨hmem, -⟩ | rfl)
        · exact hmem
        · exact hm
  · rw [State.merge, Function.update_of_ne hk]

section Lookups

variable (hs : s.WellIdentified) (h : Advances s old new)
include h

theorem identities_advanced : (s.advanced new).identities = (s.merge .record [old]).identities := by
  rw [identities, identities]
  congr 1
  funext k
  by_cases hk : k = .record
  · subst hk
    rw [advanced, State.merge, Function.update_self, State.merge, Function.update_self, mergeBucket,
      mergeBucket, List.map_append, List.map_append]
    simp [Kind.identifier, h.id]
  · rw [advanced_of_ne hk, State.merge, Function.update_of_ne hk]

include hs

/-- The old version is the only record of its identity. -/
theorem eq_of_id {r : BaseRecord} (hr : r ∈ s.records) (hid : r.id = new.id) : r = old :=
  List.inj_on_of_nodup_map (hs.bucket_nodup .record) hr h.mem (hid.trans h.id)

theorem wellIdentified_advanced : (s.advanced new).WellIdentified := by
  have hre := (rearranged_merge_self hs (k := .record) h.mem).wellIdentified hs
  constructor
  · rw [identities_advanced h]
    exact hre.nonempty
  · rw [identities_advanced h]
    exact hre.nodup

theorem kindOf_advanced : (s.advanced new).kindOf = s.kindOf := by
  funext ref
  rw [kindOf, identities_advanced h]
  exact (rearranged_merge_self hs (k := .record) h.mem).kindOf hs ref

theorem hasId_advanced : (s.advanced new).hasId = s.hasId := by
  funext ref
  simp only [hasId, kindOf_advanced hs h]

theorem get?_parsedRecords_advanced (ref : String) :
    (s.advanced new).parsedRecords.get? ref =
      if ref = old.id then some new else s.parsedRecords.get? ref := by
  ext r
  rw [parsedRecords, records, get?_byId ((wellIdentified_advanced hs h).bucket_nodup .record)]
  split
  · rename_i href
    constructor
    · rintro ⟨hr, hid⟩
      rcases mem_records_advanced.mp hr with ⟨-, hne⟩ | rfl
      · exact absurd (hid.trans (href.trans h.id.symm)) hne
      · rfl
    · intro hr
      obtain rfl := Option.some.inj hr
      exact ⟨mem_records_advanced.mpr (.inr rfl), h.id.trans href.symm⟩
  · rename_i href
    rw [parsedRecords, records, get?_byId (hs.bucket_nodup .record)]
    constructor
    · rintro ⟨hr, hid⟩
      rcases mem_records_advanced.mp hr with ⟨hmem, -⟩ | rfl
      · exact ⟨hmem, hid⟩
      · exact absurd (hid.symm.trans h.id) href
    · rintro ⟨hmem, hid⟩
      refine ⟨mem_records_advanced.mpr (.inl ⟨hmem, fun hsame => href ?_⟩), hid⟩
      exact hid.symm.trans (hsame.trans h.id)

theorem get?_parsedRecords_old : s.parsedRecords.get? old.id = some old :=
  (get?_byId (hs.bucket_nodup .record)).mpr ⟨h.mem, rfl⟩

theorem recordTypeOf_advanced : (s.advanced new).recordTypeOf = s.recordTypeOf := by
  have hlookup {t : State} (ht : t.WellIdentified) (ref : String) :
      t.recordTypeOf ref = (t.parsedRecords.get? ref).map BaseRecord.recordType := by
    rw [recordTypeOf]
    congr 1
    ext r
    rw [records, find_eq_some (ht.bucket_nodup .record), parsedRecords, records,
      get?_byId (ht.bucket_nodup .record)]
  funext ref
  rw [hlookup (wellIdentified_advanced hs h), hlookup hs, get?_parsedRecords_advanced hs h]
  split
  · rename_i href
    rw [href, get?_parsedRecords_old hs h, Option.map_some, Option.map_some, h.newType, h.oldType]
  · rfl

theorem passingRef_advanced : passingRef (s.advanced new).dumps = passingRef s.dumps := by
  have hs' := wellIdentified_advanced hs h
  funext ref
  by_cases href : ref = old.id
  · have hold : s.dumps.get? ref = some old.dump :=
      (get?_dumps hs).mpr ⟨.record, old, h.mem, href.symm, rfl⟩
    have hnew : (s.advanced new).dumps.get? ref = some new.dump :=
      (get?_dumps hs').mpr ⟨.record, new, mem_records_advanced.mpr (.inr rfl),
        h.id.trans href.symm, rfl⟩
    rw [passingRef, passingRef, hold, hnew]
    exact h.passing
  · have hsame : (s.advanced new).dumps.get? ref = s.dumps.get? ref := by
      ext raw
      rw [get?_dumps hs', get?_dumps hs]
      constructor
      · rintro ⟨k, m, hm, hid, hraw⟩
        by_cases hk : k = .record
        · subst hk
          rcases mem_records_advanced.mp hm with ⟨hmem, -⟩ | rfl
          · exact ⟨.record, m, hmem, hid, hraw⟩
          · exact absurd (hid.symm.trans h.id) href
        · rw [advanced_of_ne hk] at hm
          exact ⟨k, m, hm, hid, hraw⟩
      · rintro ⟨k, m, hm, hid, hraw⟩
        by_cases hk : k = .record
        · subst hk
          refine ⟨.record, m, mem_records_advanced.mpr (.inl ⟨hm, fun hsame => href ?_⟩), hid, hraw⟩
          exact hid.symm.trans (hsame.trans h.id)
        · exact ⟨k, m, by rwa [advanced_of_ne hk], hid, hraw⟩
    rw [passingRef, passingRef, hsame]

/-! ## Rules on other objects -/

theorem relationErrors_advanced : relationErrors (s.advanced new) = relationErrors s := by
  funext relation
  simp only [relationErrors, targetShapeOk, hasId_advanced hs h, kindOf_advanced hs h,
    recordTypeOf_advanced hs h]

theorem referenceErrors_advanced (k : Kind) :
    referenceErrors (s.advanced new) k = referenceErrors s k := by
  have hedge : edgeErrors (s.advanced new) k = edgeErrors s k := by
    funext id raw edge
    simp only [edgeErrors, hasId_advanced hs h]
  funext m
  simp only [referenceErrors, hedge]

theorem authorizationErrors_advanced :
    authorizationErrors (s.advanced new) = authorizationErrors s := by
  funext grant
  simp only [authorizationErrors, hasId_advanced hs h]

omit hs h in
theorem useErrors_advanced : useErrors (s.advanced new) = useErrors s := by
  funext use
  simp only [useErrors, authorizations, advanced_of_ne (show Kind.authorization ≠ .record by decide)]

/-- A link resolves as before, up to the version that it resolves to. -/
theorem recordAt_advanced (ref : Json) :
    (∃ e, (s.advanced new).recordAt ref = .error e ∧ s.recordAt ref = .error e) ∨
      ∃ a b, (s.advanced new).recordAt ref = .ok a ∧ s.recordAt ref = .ok b ∧
        a.map BaseRecord.recordType = b.map BaseRecord.recordType := by
  cases hhash : hashText ref with
  | error e => exact .inl ⟨e, by simp [recordAt, hhash, bind, Except.bind]⟩
  | ok id =>
    cases id with
    | none => exact .inr ⟨none, none, by simp [recordAt, hhash, bind, Except.bind, pure, Except.pure]⟩
    | some id =>
      refine .inr ⟨(s.advanced new).parsedRecords.get? id, s.parsedRecords.get? id, ?_, ?_, ?_⟩
      · simp [recordAt, hhash, bind, Except.bind, pure, Except.pure]
      · simp [recordAt, hhash, bind, Except.bind, pure, Except.pure]
      · rw [get?_parsedRecords_advanced hs h]
        split
        · rename_i hid
          rw [hid, get?_parsedRecords_old hs h, Option.map_some, Option.map_some, h.newType,
            h.oldType]
        · rfl

theorem revisionEndpointErrors_advanced :
    revisionEndpointErrors (s.advanced new) = revisionEndpointErrors s := by
  funext record
  rw [revisionEndpointErrors, revisionEndpointErrors]
  split
  · rfl
  · rcases recordAt_advanced hs h (record.getattr "revises_ref") with
      ⟨e, hnew, hold⟩ | ⟨a, b, hnew, hold, htype⟩
    · rw [hnew, hold]
      rfl
    · rcases recordAt_advanced hs h (record.getattr "produces_ref") with
        ⟨e, hnew', hold'⟩ | ⟨a', b', hnew', hold', htype'⟩
      · rw [hnew, hold, hnew', hold']
        rfl
      · rw [hnew, hold, hnew', hold']
        cases a <;> cases b <;> cases a' <;> cases b' <;>
          simp_all [bind, Except.bind, pure, Except.pure]

theorem revisionErrors_advanced : revisionErrors now (s.advanced new) = revisionErrors now s := by
  have hauthorizations : (s.advanced new).authorizations = s.authorizations :=
    advanced_of_ne (by decide)
  have huses : (s.advanced new).uses = s.uses := advanced_of_ne (by decide)
  funext record
  simp only [revisionErrors, revisionAuthorizationErrors, revisionGrant, revisionGrantErrors,
    namedUse, hauthorizations, huses, revisionEndpointErrors_advanced hs h]

/-- An edge that passes its rule cites a Revision that is applied, so not the old version. -/
theorem supersedesErrors_advanced {relation : RecordRelation}
    (hok : supersedesErrors s relation = []) : supersedesErrors (s.advanced new) relation = [] := by
  have hauthorizations : (s.advanced new).authorizations = s.authorizations :=
    advanced_of_ne (by decide)
  have huses : (s.advanced new).uses = s.uses := advanced_of_ne (by decide)
  unfold supersedesErrors at hok ⊢
  split at hok
  · rename_i ref href
    by_cases hid : ref = old.id
    · split at hok
      · rename_i hblank
        rw [if_pos hblank]
        exact hok
      · rw [hid, get?_parsedRecords_old hs h] at hok
        simp only [h.oldType, ne_eq, not_true_eq_false, if_false, List.append_eq_nil_iff,
          errorIf_eq_nil, Bool.not_eq_false'] at hok
        have hpending := h.pending
        have happlied := List.contains_iff_mem.mp hok.1.1
        simp only [List.mem_cons, List.not_mem_nil, or_false] at hpending
        rcases hpending with hstatus | hstatus <;> rw [hstatus] at happlied <;>
          exact absurd happlied (by decide)
    · rw [get?_parsedRecords_advanced hs h, if_neg hid]
      simpa only [supersedesProofErrors, namedUse, hauthorizations, huses] using hok
  · exact hok

theorem validateProof_advanced {expected : BindingExpectation} {ref : String} :
    validateProof expected (s.advanced new).parsedRecords.get? ref =
      validateProof expected s.parsedRecords.get? ref := by
  by_cases hid : ref = old.id
  · have hnew : (s.advanced new).parsedRecords.get? ref = some new := by
      rw [get?_parsedRecords_advanced hs h, if_pos hid]
    have hold : s.parsedRecords.get? ref = some old := by
      rw [hid, get?_parsedRecords_old hs h]
    rw [validateProof_of_not_evidence hnew (by rw [h.newType]; decide),
      validateProof_of_not_evidence hold (by rw [h.oldType]; decide)]
  · rw [validateProof, validateProof,
      get?_parsedRecords_advanced hs h, if_neg hid]

theorem runErrors_advanced : runErrors (s.advanced new) = runErrors s := by
  have hworks : (s.advanced new).works = s.works := advanced_of_ne (by decide)
  have hproof (expected : BindingExpectation) :
      validateProof expected (s.advanced new).parsedRecords.get? =
        validateProof expected s.parsedRecords.get? :=
    funext (fun _ => validateProof_advanced hs h)
  funext run
  simp only [runErrors, proofErrors, worksById, hworks, CompletionAuthority.validateProofInvariant,
    validateBinding, hproof]

omit hs h in
theorem workErrors_advanced : workErrors (s.advanced new) = workErrors s := by
  have hruns : (s.advanced new).runs = s.runs := advanced_of_ne (by decide)
  have hpaired : (s.advanced new).pairedRuns = s.pairedRuns := by
    funext work
    rw [pairedRuns, pairedRuns, runsById, runsById, hruns]
  funext work
  simp only [workErrors, hpaired]

omit hs h in
theorem supersedes_advanced : (s.advanced new).supersedes = s.supersedes := by
  rw [supersedes, supersedes, relations, relations, advanced_of_ne (by decide)]

theorem supersederErrors_advanced : supersederErrors (s.advanced new) = supersederErrors s := by
  have hactive : (s.advanced new).activeSuperseders = s.activeSuperseders := by
    rw [activeSuperseders, activeSuperseders, supersedes_advanced]
    congr 1
    refine List.filter_congr (fun relation _ => ?_)
    rw [get?_parsedRecords_advanced hs h]
    split_ifs with hid
    · have hpending := h.pending
      simp only [List.mem_cons, List.not_mem_nil, or_false] at hpending
      rw [hid, get?_parsedRecords_old hs h]
      rcases hpending with hstatus | hstatus <;> simp [h.applied, hstatus, inactiveStatuses]
    · rfl
  rw [supersederErrors, supersederErrors, hactive]

theorem lineageErrors_advanced : lineageErrors (s.advanced new) = lineageErrors s := by
  rw [lineageErrors, lineageErrors, lineageEdges, lineageEdges, supersedes_advanced,
    hasId_advanced hs h]

/-! ## Promotions and projections -/

theorem promotionErrors_advanced :
    promotionErrors now (s.advanced new) = promotionErrors now s := by
  have hauthorizations : (s.advanced new).authorizations = s.authorizations :=
    advanced_of_ne (by decide)
  have huses : (s.advanced new).uses = s.uses := advanced_of_ne (by decide)
  have hrelations : (s.advanced new).relations = s.relations := advanced_of_ne (by decide)
  have hpassing : allPassing (s.advanced new).dumps = allPassing s.dumps := by
    funext refs
    rw [allPassing, allPassing, passingRef_advanced hs h]
  funext record
  have hgrants : grantProves now record (s.advanced new) = grantProves now record s := by
    funext grant
    simp only [grantProves, grantHolds, huses]
  simp only [promotionErrors, hasEffectiveVerification, hasStructuralAuthorizationProof, hpassing,
    hgrants, hauthorizations, hrelations]

theorem judgmentError_advanced : judgmentError (s.advanced new) = judgmentError s := by
  funext p ref
  simp only [judgmentError, localRefs, hasId_advanced hs h]
  rw [get?_parsedRecords_advanced hs h]
  split_ifs with hid
  · rw [hid, get?_parsedRecords_old hs h]
    simp [h.newType, h.oldType]
  · rfl

theorem derivationsOf_advanced : derivationsOf (s.advanced new) = derivationsOf s := by
  funext assertionRef
  rw [derivationsOf, derivationsOf, (wellIdentified_advanced hs h).parsedRecords_values,
    hs.parsedRecords_values, records_advanced, List.filter_append, List.filter_filter]
  have hnew : [new].filter (fun record => record.recordType = .derivation &&
      (record.getattr "conclusion_ref").eqStr assertionRef) = [] := by
    simp [h.newType]
  rw [hnew, List.append_nil]
  refine List.filter_congr (fun record hmem => ?_)
  by_cases hid : record.id = new.id
  · rw [eq_of_id hs h hmem hid]
    simp [h.oldType]
  · simp [Kind.identifier, hid]

theorem projectionErrors_advanced :
    projectionErrors now (s.advanced new) = projectionErrors now s := by
  have hauthorizations : (s.advanced new).authorizations = s.authorizations :=
    advanced_of_ne (by decide)
  have huses : (s.advanced new).uses = s.uses := advanced_of_ne (by decide)
  have hrelations : (s.advanced new).relations = s.relations := advanced_of_ne (by decide)
  have hlocal : (s.advanced new).localRefs = s.localRefs := by
    funext refs
    rw [localRefs, localRefs, hasId_advanced hs h]
  have htype : (s.advanced new).actualType = s.actualType := by
    funext ref
    simp only [actualType, kindOf_advanced hs h, recordTypeOf_advanced hs h]
  have hgrant : projectionGrantErrors now (s.advanced new) = projectionGrantErrors now s := by
    funext p ref
    simp only [projectionGrantErrors, grantHolds, hauthorizations, huses]
  have hbinds : derivationBinds (s.advanced new) = derivationBinds s := by
    funext p assertionRef derivation
    simp only [derivationBinds, validJudgments, hlocal, hrelations, judgmentError_advanced hs h]
  have hbinding : bindingErrors (s.advanced new) = bindingErrors s := by
    funext p assertionRef
    rw [bindingErrors, bindingErrors, hbinds, derivationsOf_advanced hs h]
  funext p
  simp only [projectionErrors, projectionTypeErrors, unresolvedErrors,
    projectionAuthorizationErrors, judgmentErrors, hgrant, hlocal, htype, hbinding,
    hasId_advanced hs h, kindOf_advanced hs h, judgmentError_advanced hs h]

end Lookups

/-! ## The whole state -/

/-- The rules that the new version has to pass itself. -/
structure VersionOk (now : Time) (s : State) (new : BaseRecord) : Prop where
  record : recordErrors new = []
  references : referenceErrors s .record new = []
  revision : revisionErrors now s new = .ok []

/-- A valid state stays valid exactly when the new version passes its own rules. -/
theorem valid_advanced_iff (hok : Valid now s) (h : Advances s old new) :
    Valid now (s.advanced new) ↔ VersionOk now s new := by
  have hg := valid_iff.mp hok
  have hs := hg.identified
  have hnew : new ∈ (s.advanced new).records := mem_records_advanced.mpr (.inr rfl)
  rw [valid_iff]
  constructor
  · intro hg'
    exact ⟨hg'.records new hnew,
      (congrFun (referenceErrors_advanced hs h .record) new).symm.trans
        (hg'.references .record new hnew),
      (congrFun (revisionErrors_advanced hs h) new).symm.trans (hg'.revisions new hnew)⟩
  · intro hversion
    have hpromotion : promotionErrors now s new = .ok [] := by
      rw [promotionErrors, if_pos (.inl (by rw [h.applied]; decide))]
      rfl
    have hrecord {P : BaseRecord → Prop} (hothers : ∀ r ∈ s.records, P r) (hone : P new) :
        ∀ r ∈ (s.advanced new).records, P r := by
      intro r hr
      rcases mem_records_advanced.mp hr with ⟨hmem, -⟩ | rfl
      · exact hothers r hmem
      · exact hone
    refine
      { identified := wellIdentified_advanced hs h
        records := hrecord hg.records hversion.record
        relations := fun r hr => ?_
        references := fun k m hm => ?_
        authorizations := fun g hgrant => ?_
        uses := fun u hu => ?_
        promotions := ?_
        projections := fun p hp => ?_
        revisions := ?_
        supersedes := fun r hr => ?_
        runs := fun r hr => ?_
        works := fun w hw => ?_
        superseders := (supersederErrors_advanced hs h).trans hg.superseders
        lineage := (lineageErrors_advanced hs h).trans hg.lineage }
    · rw [relations, advanced_of_ne (by decide)] at hr
      exact (congrFun (relationErrors_advanced hs h) r).trans (hg.relations r hr)
    · rw [referenceErrors_advanced hs h k]
      by_cases hk : k = .record
      · subst hk
        exact hrecord (hg.references .record) hversion.references m hm
      · rw [advanced_of_ne hk] at hm
        exact hg.references k m hm
    · rw [authorizations, advanced_of_ne (by decide)] at hgrant
      exact (congrFun (authorizationErrors_advanced hs h) g).trans (hg.authorizations g hgrant)
    · rw [uses, advanced_of_ne (by decide)] at hu
      exact (congrFun useErrors_advanced u).trans (hg.uses u hu)
    · rw [promotionErrors_advanced hs h]
      exact hrecord hg.promotions hpromotion
    · rw [projections, advanced_of_ne (by decide)] at hp
      exact (congrFun (projectionErrors_advanced hs h) p).trans (hg.projections p hp)
    · rw [revisionErrors_advanced hs h]
      exact hrecord hg.revisions hversion.revision
    · rw [supersedes_advanced] at hr
      exact supersedesErrors_advanced hs h (hg.supersedes r hr)
    · rw [runs, advanced_of_ne (by decide)] at hr
      exact (congrFun (runErrors_advanced hs h) r).trans (hg.runs r hr)
    · rw [works, advanced_of_ne (by decide)] at hw
      exact (congrFun workErrors_advanced w).trans (hg.works w hw)

end State
end PortableRuntime
