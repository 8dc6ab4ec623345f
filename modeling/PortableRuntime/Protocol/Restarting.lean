import PortableRuntime.Protocol.Replacing

/-!
# A Work that runs again

The rules look at the status of a Work only where it is completed or where a Run of it has
succeeded, and never at the time of its last update.  A Work that is neither can be set
running, and every rule says what it said before.
-/

namespace PortableRuntime

namespace Work

def restarted (w : Work) (now : Time) : Work := { w with status := .running, updatedAt := now }

/-- The fields of a dump before the status. -/
def dumpFront (w : Work) : Fields :=
  w.base ++ [("kind", .str w.kind), ("title", .str w.title), ("description", .str w.description)]

/-- The fields of a dump between the status and the time of the last update. -/
def dumpMiddle (w : Work) : Fields :=
  [("priority", .int w.priority), ("inputs", .ofStrings w.inputs),
    ("artifact_refs", .ofStrings w.artifactRefs), ("constraints", .obj w.constraints),
    ("acceptance_criteria", .ofStrings w.acceptanceCriteria),
    ("requested_capabilities", .ofStrings w.requestedCapabilities),
    ("parent_work_id", .ofOption w.parentWorkId)]

theorem dump_eq (w : Work) : w.dump = w.dumpFront ++ ("status", .str w.status.text) ::
    (w.dumpMiddle ++ ("updated_at", .datetime w.updatedAt) :: w.extra) := by
  simp [dump, dumpFront, dumpMiddle]

/-- What is read of a dump, apart from the status and the time of the last update. -/
theorem get_dump {field : String} (hstatus : field ≠ "status") (hupdated : field ≠ "updated_at")
    (w : Work) : w.dump.get field = (w.dumpFront ++ (w.dumpMiddle ++ w.extra)).get field := by
  rw [dump_eq, Fields.get_skip hstatus.symm, ← List.append_assoc, Fields.get_skip hupdated.symm,
    List.append_assoc]

end Work

/-- Two states that differ in their Works only, and in nothing that the rules read of them. -/
structure Retouched (s s' : State) : Prop where
  others : ∀ k, k ≠ .work → s' k = s k
  identities : s.identities.Perm s'.identities
  passing : passingRef s'.dumps = passingRef s.dumps
  references : (∀ w ∈ s'.works, referenceErrors s' .work w = []) ↔
    ∀ w ∈ s.works, referenceErrors s .work w = []
  runs : ∀ r ∈ s.runs, runErrors s' r = runErrors s r
  works : (∀ w ∈ s'.works, workErrors s' w = []) ↔ ∀ w ∈ s.works, workErrors s w = []

namespace Retouched

variable {s s' : State} {now : Time}

theorem symm (h : Retouched s s') : Retouched s' s where
  others k hk := (h.others k hk).symm
  identities := h.identities.symm
  passing := h.passing.symm
  references := h.references.symm
  runs r hr := by
    have hsame : s'.runs = s.runs := h.others .run (by decide)
    exact (h.runs r (hsame ▸ hr)).symm
  works := h.works.symm

section Buckets

variable (h : Retouched s s')
include h

theorem wellIdentified (hs : s.WellIdentified) : s'.WellIdentified where
  nonempty i hi := hs.nonempty i (h.identities.mem_iff.mpr hi)
  nodup := ((h.identities.map Prod.fst).nodup_iff).mp hs.nodup

theorem records : s'.records = s.records := h.others .record (by decide)

theorem relations : s'.relations = s.relations := h.others .relation (by decide)

theorem authorizations : s'.authorizations = s.authorizations :=
  h.others .authorization (by decide)

theorem uses : s'.uses = s.uses := h.others .authorizationUse (by decide)

theorem projections : s'.projections = s.projections :=
  h.others .knowledgeProjection (by decide)

theorem supersedes : s'.supersedes = s.supersedes := by
  rw [State.supersedes, State.supersedes, h.relations]

theorem parsedRecords : s'.parsedRecords = s.parsedRecords := by
  rw [State.parsedRecords, State.parsedRecords, h.records]

theorem recordTypeOf : s'.recordTypeOf = s.recordTypeOf := by
  funext ref
  rw [State.recordTypeOf, State.recordTypeOf, h.records]

end Buckets

/-! ## Each rule -/

section Rules

variable (h : Retouched s s') (hs : s.WellIdentified)
include h

theorem namedUse : namedUse s' = namedUse s := by
  funext metadata
  simp only [PortableRuntime.namedUse, h.uses]

theorem useErrors : useErrors s' = useErrors s := by
  funext use
  simp only [PortableRuntime.useErrors, h.authorizations]

theorem revisionErrors : revisionErrors now s' = revisionErrors now s := by
  funext record
  simp only [PortableRuntime.revisionErrors, revisionAuthorizationErrors, revisionGrant,
    revisionGrantErrors, revisionEndpointErrors, State.recordAt, h.namedUse, h.authorizations,
    h.parsedRecords]

theorem supersedesErrors : supersedesErrors s' = supersedesErrors s := by
  funext relation
  simp only [PortableRuntime.supersedesErrors, supersedesProofErrors, h.namedUse,
    h.authorizations, h.parsedRecords]

theorem supersederErrors : supersederErrors s' = supersederErrors s := by
  have hactive : s'.activeSuperseders = s.activeSuperseders := by
    rw [State.activeSuperseders, State.activeSuperseders, h.supersedes, h.parsedRecords]
  rw [PortableRuntime.supersederErrors, PortableRuntime.supersederErrors, hactive]

theorem promotionErrors : promotionErrors now s' = promotionErrors now s := by
  have hpassing : allPassing s'.dumps = allPassing s.dumps := by
    funext refs
    rw [allPassing, allPassing, h.passing]
  funext record
  have hgrants : grantProves now record s' = grantProves now record s := by
    funext grant
    simp only [grantProves, grantHolds, h.uses]
  simp only [PortableRuntime.promotionErrors, hasEffectiveVerification,
    hasStructuralAuthorizationProof, hpassing, hgrants, h.authorizations, h.relations]

include hs

theorem kindOf : s'.kindOf = s.kindOf := by
  funext ref
  ext k
  rw [State.kindOf_eq_some (h.wellIdentified hs), State.kindOf_eq_some hs,
    ← State.mem_identities, ← State.mem_identities, h.identities.mem_iff]

theorem hasId : s'.hasId = s.hasId := by
  funext ref
  simp only [State.hasId, h.kindOf hs]

theorem relationErrors : relationErrors s' = relationErrors s := by
  funext relation
  simp only [PortableRuntime.relationErrors, targetShapeOk, h.hasId hs, h.kindOf hs,
    h.recordTypeOf]

theorem referenceErrors (k : Kind) : referenceErrors s' k = referenceErrors s k := by
  have hedge : edgeErrors s' k = edgeErrors s k := by
    funext id raw edge
    simp only [edgeErrors, h.hasId hs]
  funext m
  simp only [PortableRuntime.referenceErrors, hedge]

theorem authorizationErrors : authorizationErrors s' = authorizationErrors s := by
  funext grant
  simp only [PortableRuntime.authorizationErrors, h.hasId hs]

theorem lineageErrors : lineageErrors s' = lineageErrors s := by
  simp only [PortableRuntime.lineageErrors, State.lineageEdges, h.supersedes, h.hasId hs]

theorem projectionErrors : projectionErrors now s' = projectionErrors now s := by
  have hlocal : s'.localRefs = s.localRefs := by
    funext refs
    rw [State.localRefs, State.localRefs, h.hasId hs]
  have htype : s'.actualType = s.actualType := by
    funext ref
    simp only [State.actualType, h.kindOf hs, h.recordTypeOf]
  have hgrant : projectionGrantErrors now s' = projectionGrantErrors now s := by
    funext p ref
    simp only [projectionGrantErrors, grantHolds, h.authorizations, h.uses]
  have hjudgment : judgmentError s' = judgmentError s := by
    funext p ref
    simp only [judgmentError, hlocal, h.parsedRecords]
  have hbinds : derivationBinds s' = derivationBinds s := by
    funext p assertionRef derivation
    simp only [derivationBinds, validJudgments, hlocal, h.relations, hjudgment]
  have hbinding : bindingErrors s' = bindingErrors s := by
    funext p assertionRef
    simp only [bindingErrors, hbinds, derivationsOf, h.parsedRecords]
  funext p
  simp only [PortableRuntime.projectionErrors, projectionTypeErrors, unresolvedErrors,
    projectionAuthorizationErrors, judgmentErrors, hgrant, hlocal, htype, hbinding, hjudgment,
    h.hasId hs, h.kindOf hs]

end Rules

theorem graphOk (h : Retouched s s') (hok : GraphOk now s) : GraphOk now s' := by
  have hs := hok.identified
  refine
    { identified := h.wellIdentified hs
      records := fun r hr => hok.records r (h.records ▸ hr)
      relations := fun r hr =>
        (congrFun (h.relationErrors hs) r).trans (hok.relations r (h.relations ▸ hr))
      references := fun k m hm => ?_
      authorizations := fun g hg =>
        (congrFun (h.authorizationErrors hs) g).trans (hok.authorizations g (h.authorizations ▸ hg))
      uses := fun u hu => (congrFun h.useErrors u).trans (hok.uses u (h.uses ▸ hu))
      promotions := fun r hr =>
        (congrFun h.promotionErrors r).trans (hok.promotions r (h.records ▸ hr))
      projections := fun p hp =>
        (congrFun (h.projectionErrors hs) p).trans (hok.projections p (h.projections ▸ hp))
      revisions := fun r hr =>
        (congrFun h.revisionErrors r).trans (hok.revisions r (h.records ▸ hr))
      supersedes := fun r hr =>
        (congrFun h.supersedesErrors r).trans (hok.supersedes r (h.supersedes ▸ hr))
      runs := fun r hr => ?_
      works := h.works.mpr hok.works
      superseders := h.supersederErrors.trans hok.superseders
      lineage := (h.lineageErrors hs).trans hok.lineage }
  · by_cases hk : k = .work
    · subst hk
      exact h.references.mpr (hok.references .work) m hm
    · rw [h.others k hk] at hm
      exact (congrFun (h.referenceErrors hs k) m).trans (hok.references k m hm)
  · have hsame : s'.runs = s.runs := h.others .run (by decide)
    rw [hsame] at hr
    exact (h.runs r hr).trans (hok.runs r hr)

theorem valid_iff (h : Retouched s s') : Valid now s' ↔ Valid now s := by
  rw [PortableRuntime.valid_iff, PortableRuntime.valid_iff]
  exact ⟨h.symm.graphOk, h.graphOk⟩

end Retouched

/-! ## A Work set running -/

namespace State

variable {s : State} {w : Work} {now later : Time}

/-- The state with the Work set running. -/
def restarted (s : State) (w : Work) (now : Time) : State := s.merge .work [w.restarted now]

theorem restarted_of_ne {k : Kind} (hk : k ≠ .work) : s.restarted w now k = s k := by
  rw [restarted, State.merge, Function.update_of_ne hk]

theorem mem_works_restarted {w' : Work} : w' ∈ (s.restarted w now).works ↔
    (w' ∈ s.works ∧ w'.id ≠ w.id) ∨ w' = w.restarted now := by
  have hbucket : (s.restarted w now).works =
      mergeBucket .work s.works [w.restarted now] := by
    rw [works, restarted, State.merge, Function.update_self]
    rfl
  rw [hbucket, mergeBucket, List.mem_append, List.mem_filter, List.mem_singleton]
  simp [Kind.identifier, Work.restarted]

/-- What a rule reads of a Work, it reads of the Work that runs again. -/
theorem get_dump_restarted {field : String} (hstatus : field ≠ "status")
    (hupdated : field ≠ "updated_at") :
    (w.restarted now).dump.get field = w.dump.get field := by
  rw [Work.get_dump hstatus hupdated, Work.get_dump hstatus hupdated]
  rfl

theorem passing_dump_restarted :
    verificationResultIsPassing (w.restarted now).dump = verificationResultIsPassing w.dump := by
  have hget (field : String) (hstatus : field ≠ "status") (hupdated : field ≠ "updated_at") :
      (w.restarted now).dump.get field = w.dump.get field :=
    get_dump_restarted hstatus hupdated
  simp only [verificationResultIsPassing, hget "metadata" (by decide) (by decide),
    hget "verification_result" (by decide) (by decide), hget "kind" (by decide) (by decide),
    hget "record_type" (by decide) (by decide)]

theorem referenceErrors_work_restarted :
    referenceErrors s .work (w.restarted now) = referenceErrors s .work w := by
  have hedges : iterRefEdges .work (w.restarted now).dump = iterRefEdges .work w.dump := by
    simp only [iterRefEdges, @get_dump_restarted w now "parent_work_id"
      (by decide) (by decide), @get_dump_restarted w now "artifact_refs"
      (by decide) (by decide)]
  have hedge : edgeErrors s .work w.id (w.restarted now).dump = edgeErrors s .work w.id w.dump := by
    funext edge
    simp [edgeErrors, proposalEdge]
  show (iterRefEdges .work (w.restarted now).dump).flatMap
      (edgeErrors s .work w.id (w.restarted now).dump) =
    (iterRefEdges .work w.dump).flatMap (edgeErrors s .work w.id w.dump)
  rw [hedges, hedge]

section Member

variable (hs : s.WellIdentified) (hw : w ∈ s.works)
include hs hw

theorem identities_restarted : s.identities.Perm (s.restarted w now).identities := by
  have hself := (rearranged_merge_self hs (k := .work) hw).identities
  have hsame : (s.restarted w now).identities = (s.merge .work [w]).identities := by
    rw [identities, identities]
    congr 1
    funext k
    by_cases hk : k = .work
    · subst hk
      rw [restarted, State.merge, Function.update_self, State.merge, Function.update_self,
        mergeBucket, mergeBucket, List.map_append, List.map_append]
      rfl
    · rw [restarted_of_ne hk, State.merge, Function.update_of_ne hk]
  rw [hsame]
  exact hself

theorem wellIdentified_restarted : (s.restarted w now).WellIdentified where
  nonempty i hi := hs.nonempty i ((identities_restarted hs hw).mem_iff.mpr hi)
  nodup := (((identities_restarted hs hw).map Prod.fst).nodup_iff).mp hs.nodup

/-- The Work is the only one of its identity. -/
theorem eq_of_work_id {w' : Work} (hw' : w' ∈ s.works) (hid : w'.id = w.id) : w' = w :=
  List.inj_on_of_nodup_map (hs.bucket_nodup .work) hw' hw hid

theorem get?_dumps_restarted {ref : String} (href : ref ≠ w.id) :
    (s.restarted w now).dumps.get? ref = s.dumps.get? ref := by
  ext raw
  rw [get?_dumps (wellIdentified_restarted hs hw), get?_dumps hs]
  constructor
  · rintro ⟨k, m, hm, hid, hraw⟩
    by_cases hk : k = .work
    · subst hk
      rcases mem_works_restarted.mp hm with ⟨hmem, -⟩ | rfl
      · exact ⟨.work, m, hmem, hid, hraw⟩
      · exact absurd hid.symm href
    · rw [restarted_of_ne hk] at hm
      exact ⟨k, m, hm, hid, hraw⟩
  · rintro ⟨k, m, hm, hid, hraw⟩
    by_cases hk : k = .work
    · subst hk
      have hne : (m : Work).id ≠ w.id := fun hsame => href (hid.symm.trans hsame)
      exact ⟨.work, m, mem_works_restarted.mpr (.inl ⟨hm, hne⟩), hid, hraw⟩
    · exact ⟨k, m, by rwa [restarted_of_ne hk], hid, hraw⟩

theorem passingRef_restarted : passingRef (s.restarted w now).dumps = passingRef s.dumps := by
  funext ref
  by_cases href : ref = w.id
  · have hbefore : s.dumps.get? ref = some w.dump :=
      (get?_dumps hs).mpr ⟨.work, w, hw, href.symm, rfl⟩
    have hafter : (s.restarted w now).dumps.get? ref = some (w.restarted now).dump :=
      (get?_dumps (wellIdentified_restarted hs hw)).mpr
        ⟨.work, w.restarted now, mem_works_restarted.mpr (.inr rfl), href.symm, rfl⟩
    rw [passingRef, passingRef, hbefore, hafter]
    exact passing_dump_restarted
  · rw [passingRef, passingRef, get?_dumps_restarted hs hw href]

theorem get?_worksById_restarted {ref : String} (href : ref ≠ w.id) :
    (s.restarted w now).worksById.get? ref = s.worksById.get? ref := by
  ext w'
  rw [worksById, works, get?_byId ((wellIdentified_restarted hs hw).bucket_nodup .work),
    worksById, works, get?_byId (hs.bucket_nodup .work)]
  constructor
  · rintro ⟨hmem, hid⟩
    rcases mem_works_restarted.mp hmem with ⟨hold, -⟩ | rfl
    · exact ⟨hold, hid⟩
    · exact absurd hid.symm href
  · rintro ⟨hmem, hid⟩
    refine ⟨mem_works_restarted.mpr (.inl ⟨hmem, fun hsame => href ?_⟩), hid⟩
    exact hid.symm.trans hsame

/-- A Work that is not completed, and of which no Run has succeeded, is set running without a
change of any verdict. -/
theorem retouched_restarted (hopen : w.status ≠ .completed)
    (hidle : ∀ r ∈ s.runs, r.workId = w.id → r.status ≠ .succeeded) :
    Retouched s (s.restarted w now) := by
  have hids := @identities_restarted s w now hs hw
  have hhas : (s.restarted w now).hasId = s.hasId := by
    funext ref
    have hkind : (s.restarted w now).kindOf ref = s.kindOf ref := by
      ext k
      rw [kindOf_eq_some (wellIdentified_restarted hs hw), kindOf_eq_some hs, ← mem_identities,
        ← mem_identities, hids.mem_iff]
    simp only [hasId, hkind]
  have hreference (w' : Work) :
      referenceErrors (s.restarted w now) .work w' = referenceErrors s .work w' := by
    have hedge : edgeErrors (s.restarted w now) .work = edgeErrors s .work := by
      funext id raw edge
      simp only [edgeErrors, hhas]
    simp only [referenceErrors, hedge]
  have hruns : (s.restarted w now).runs = s.runs := restarted_of_ne (by decide)
  have hpaired : (s.restarted w now).pairedRuns = s.pairedRuns := by
    funext w'
    rw [pairedRuns, pairedRuns, runsById, runsById, hruns]
  have hverdict (w' : Work) : workErrors (s.restarted w now) w' = workErrors s w' := by
    rw [workErrors, workErrors, hpaired]
  refine
    { others := fun k hk => restarted_of_ne hk
      identities := hids
      passing := passingRef_restarted hs hw
      references := ⟨fun h w' hw' => ?_, fun h w' hw' => ?_⟩
      runs := fun r hr => ?_
      works := ⟨fun h w' hw' => ?_, fun h w' hw' => ?_⟩ }
  · by_cases hid : w'.id = w.id
    · have hnew := h (w.restarted now) (mem_works_restarted.mpr (.inr rfl))
      rw [hreference, referenceErrors_work_restarted] at hnew
      rw [eq_of_work_id hs hw hw' hid]
      exact hnew
    · rw [← hreference]
      exact h w' (mem_works_restarted.mpr (.inl ⟨hw', hid⟩))
  · rw [hreference]
    rcases mem_works_restarted.mp hw' with ⟨hold, -⟩ | rfl
    · exact h w' hold
    · rw [referenceErrors_work_restarted]
      exact h w hw
  · rw [runErrors, runErrors]
    by_cases hsucceeded : r.status = .succeeded
    · have hother : r.workId ≠ w.id := fun hsame => hidle r hr hsame hsucceeded
      have hproof : proofErrors (s.restarted w now) = proofErrors s := by
        funext w' r'
        rw [proofErrors, proofErrors, parsedRecords, parsedRecords, records, records,
          restarted_of_ne (by decide)]
      rw [get?_worksById_restarted hs hw hother, hproof]
    · rw [if_pos hsucceeded, if_pos hsucceeded]
  · by_cases hid : w'.id = w.id
    · rw [eq_of_work_id hs hw hw' hid, workErrors, if_pos hopen]
    · rw [← hverdict]
      exact h w' (mem_works_restarted.mpr (.inl ⟨hw', hid⟩))
  · rw [hverdict]
    rcases mem_works_restarted.mp hw' with ⟨hold, -⟩ | rfl
    · exact h w' hold
    · rfl

end Member

/-- Of a Work that is not completed no Run has succeeded in a valid state. -/
theorem status_of_valid (hok : Valid now s) (hw : w ∈ s.works) (hopen : w.status ≠ .completed) :
    ∀ r ∈ s.runs, r.workId = w.id → r.status ≠ .succeeded := by
  have hg := valid_iff.mp hok
  intro r hr hof hsucceeded
  have hfound : s.worksById.get? r.workId = some w := by
    rw [worksById, works, get?_byId (hg.identified.bucket_nodup .work)]
    exact ⟨hw, hof.symm⟩
  have herrors := hg.runs r hr
  rw [runErrors, if_neg (not_not_intro hsucceeded), hfound, List.append_eq_nil_iff,
    errorIf_eq_nil] at herrors
  exact absurd herrors.1 (by simp [hopen])

/-- Of a completed Work some Run has succeeded in a valid state. -/
theorem exists_succeeded_of_valid (hok : Valid now s) (hw : w ∈ s.works)
    (hcompleted : w.status = .completed) :
    ∃ r ∈ s.runs, r.workId = w.id ∧ r.status = .succeeded := by
  have hg := valid_iff.mp hok
  have herrors := hg.works w hw
  rw [workErrors, if_neg (not_not_intro hcompleted)] at herrors
  by_cases hnone : s.pairedRuns w = []
  · rw [hnone] at herrors
    exact absurd herrors (by simp)
  · obtain ⟨r, hr⟩ := List.exists_mem_of_ne_nil _ hnone
    rw [pairedRuns, hg.identified.runsById_values, List.mem_filter] at hr
    simp only [Bool.and_eq_true, decide_eq_true_eq] at hr
    exact ⟨r, hr.1, hr.2⟩

/-- A state that was valid once stays valid with a Work set running exactly when the Work is not
completed and the state itself is still valid. -/
theorem valid_restarted_iff {before : Time} (hok : Valid before s) (hw : w ∈ s.works) :
    Valid later (s.restarted w now) ↔ w.status ≠ .completed ∧ Valid later s := by
  have hs := (valid_iff.mp hok).identified
  by_cases hopen : w.status = .completed
  · refine iff_of_false (fun hafter => ?_) (fun h => h.1 hopen)
    obtain ⟨r, hr, hof, hsucceeded⟩ := exists_succeeded_of_valid hok hw hopen
    -- The Work of the succeeded Run is no longer completed.
    have hnew : w.restarted now ∈ (s.restarted w now).works :=
      mem_works_restarted.mpr (.inr rfl)
    have hrun : r ∈ (s.restarted w now).runs := by
      rw [runs, restarted_of_ne (by decide)]
      exact hr
    exact status_of_valid hafter hnew (by simp [Work.restarted]) r hrun hof hsucceeded
  · rw [(retouched_restarted hs hw hopen (status_of_valid hok hw hopen)).valid_iff]
    exact ⟨fun h => ⟨hopen, h⟩, fun h => h.2⟩

end State

end PortableRuntime
