import PortableRuntime.Protocol.Reordering

/-!
# Appending an event to a valid state

A new event brings a new identity into the state.  No rule looks an event up by what it
holds, so the rules that can change their verdict are those of the objects that name the
identity: it resolves there now, and as an event.
-/

namespace PortableRuntime

def RecordRelation.Names (relation : RecordRelation) (id : String) : Prop :=
  relation.subjectRef = id ∨ relation.objectRef = id

/-- The references of a projection whose targets the validator looks up. -/
def KnowledgeProjection.lookedUpRefs (p : KnowledgeProjection) : List String :=
  p.currentAssertionRefs ++ p.evidenceSummaryRefs ++ p.epistemicJudgmentRefs ++
    p.scopeVersionRefs ++ p.authorizationRefs

def KnowledgeProjection.Names (p : KnowledgeProjection) (id : String) : Prop :=
  ∃ ref ∈ p.lookedUpRefs, ref = id ∨ Text.strip ref = id

/-- The state with an event at the end of its journal. -/
def State.appended (s : State) (e : Event) : State := s.merge .event [e]

/-- What an event has to be for a state to take it: its identity is a new one, it makes no
check raise, and the objects that name the identity pass their rules with an event there. -/
structure EventFits (now : Time) (s : State) (e : Event) : Prop where
  nonempty : e.id ≠ ""
  unused : ∀ k, ∀ m ∈ s k, k.identifier m ≠ e.id
  hashable : Kind.hashable .event e = true
  relations : ∀ r ∈ s.relations, r.Names e.id → relationErrors (s.appended e) r = []
  projections : ∀ p ∈ s.projections, p.Names e.id → projectionErrors now (s.appended e) p = .ok []
  lineage : (∃ r ∈ s.supersedes, r.Names e.id) → lineageErrors (s.appended e) = []

namespace State

variable {s : State} {e : Event} {now : Time}

theorem appended_of_ne {k : Kind} (hk : k ≠ .event) : s.appended e k = s k := by
  rw [appended, State.merge, Function.update_of_ne hk]

section Unused

variable (hunused : ∀ k, ∀ m ∈ s k, k.identifier m ≠ e.id)
include hunused

theorem appended_event : s.appended e .event = s.events ++ [e] := by
  rw [appended, State.merge, Function.update_self, mergeBucket]
  congr 1
  refine List.filter_eq_self.mpr (fun m hm => ?_)
  have hne : m.id ≠ e.id := hunused .event m hm
  simpa [Kind.identifier] using hne

theorem mem_appended {k : Kind} {m : Model k} (hm : m ∈ s.appended e k) :
    m ∈ s k ∨ k.identifier m = e.id := by
  by_cases hk : k = .event
  · subst hk
    rw [appended_event hunused] at hm
    rcases List.mem_append.mp hm with hold | hnew
    · exact .inl hold
    · exact .inr (congrArg (Kind.identifier .event) (List.mem_singleton.mp hnew))
  · rw [appended_of_ne hk] at hm
    exact .inl hm

theorem mem_appended_of_mem {k : Kind} {m : Model k} (hm : m ∈ s k) : m ∈ s.appended e k := by
  by_cases hk : k = .event
  · subst hk
    rw [appended_event hunused]
    exact List.mem_append_left _ hm
  · rwa [appended_of_ne hk]

end Unused

theorem identities_appended (hunused : ∀ k, ∀ m ∈ s k, k.identifier m ≠ e.id) :
    (s.appended e).identities.Perm (s.identities ++ [(e.id, Kind.event)]) := by
  have hone : Kind.all.flatMap (fun k => if k = .event then [(e.id, k)] else []) =
      [(e.id, Kind.event)] := rfl
  have hsplit : (s.appended e).identities = Kind.all.flatMap (fun k =>
      (s k).map (fun m => (k.identifier m, k)) ++ if k = .event then [(e.id, k)] else []) := by
    rw [identities]
    congr 1
    funext k
    by_cases hk : k = .event
    · subst hk
      rw [appended_event hunused, if_pos rfl, List.map_append]
      rfl
    · rw [appended_of_ne hk, if_neg hk, List.append_nil]
  rw [hsplit, ← hone, identities]
  exact (List.flatMap_append_perm _ _ _).symm

theorem WellIdentified.appended (hs : s.WellIdentified) (hne : e.id ≠ "")
    (hunused : ∀ k, ∀ m ∈ s k, k.identifier m ≠ e.id) : (s.appended e).WellIdentified where
  nonempty := by
    intro i hi
    rcases List.mem_append.mp ((identities_appended hunused).mem_iff.mp hi) with hold | hnew
    · exact hs.nonempty i hold
    · rw [List.mem_singleton.mp hnew]
      exact hne
  nodup := by
    rw [((identities_appended hunused).map Prod.fst).nodup_iff, List.map_append,
      List.nodup_append]
    refine ⟨hs.nodup, List.nodup_singleton _, ?_⟩
    intro a ha b hb hab
    obtain ⟨⟨id, k⟩, hi, rfl⟩ := List.mem_map.mp ha
    obtain ⟨m, hm, hid⟩ := mem_identities.mp hi
    exact hunused k m hm (hid.trans (hab.trans (List.mem_singleton.mp hb)))

/-! ## Lookups at other identities -/

section Lookups

variable (hs : s.WellIdentified) (h : EventFits now s e)
include hs h

theorem kindOf_appended {ref : String} (href : ref ≠ e.id) :
    (s.appended e).kindOf ref = s.kindOf ref := by
  have hs' := hs.appended h.nonempty h.unused
  ext k
  rw [kindOf_eq_some hs', kindOf_eq_some hs, ← mem_identities, ← mem_identities,
    (identities_appended h.unused).mem_iff]
  simp [href]

theorem hasId_appended {ref : String} (href : ref ≠ e.id) :
    (s.appended e).hasId ref = s.hasId ref := by
  simp only [State.hasId, kindOf_appended hs h href]

theorem hasId_appended_of_hasId {ref : String} (href : s.hasId ref = true) :
    (s.appended e).hasId ref = true := by
  by_cases hid : ref = e.id
  · obtain ⟨k, m, hm, hsame⟩ := (hasId_iff hs).mp href
    exact absurd (hsame.trans hid) (h.unused k m hm)
  · rw [hasId_appended hs h hid, href]

end Lookups

/-! ## Rules that read no event -/

@[simp] theorem works_appended : (s.appended e).works = s.works := appended_of_ne (by decide)

@[simp] theorem runs_appended : (s.appended e).runs = s.runs := appended_of_ne (by decide)

@[simp] theorem records_appended : (s.appended e).records = s.records := appended_of_ne (by decide)

@[simp] theorem relations_appended : (s.appended e).relations = s.relations :=
  appended_of_ne (by decide)

@[simp] theorem projections_appended : (s.appended e).projections = s.projections :=
  appended_of_ne (by decide)

@[simp] theorem authorizations_appended : (s.appended e).authorizations = s.authorizations :=
  appended_of_ne (by decide)

@[simp] theorem uses_appended : (s.appended e).uses = s.uses := appended_of_ne (by decide)

@[simp] theorem supersedes_appended : (s.appended e).supersedes = s.supersedes := by
  simp [State.supersedes]

@[simp] theorem parsedRecords_appended : (s.appended e).parsedRecords = s.parsedRecords := by
  simp [State.parsedRecords]

@[simp] theorem recordTypeOf_appended : (s.appended e).recordTypeOf = s.recordTypeOf := by
  funext ref
  simp [State.recordTypeOf]

@[simp] theorem namedUse_appended : namedUse (s.appended e) = namedUse s := by
  funext metadata
  simp [namedUse]

theorem useErrors_appended : useErrors (s.appended e) = useErrors s := by
  funext use
  simp [useErrors]

theorem revisionErrors_appended : revisionErrors now (s.appended e) = revisionErrors now s := by
  funext record
  simp [revisionErrors, revisionAuthorizationErrors, revisionGrant, revisionGrantErrors,
    revisionEndpointErrors, State.recordAt]

theorem supersedesErrors_appended : supersedesErrors (s.appended e) = supersedesErrors s := by
  funext relation
  simp [supersedesErrors, supersedesProofErrors]

theorem runErrors_appended : runErrors (s.appended e) = runErrors s := by
  funext run
  simp [runErrors, proofErrors, State.worksById]

theorem workErrors_appended : workErrors (s.appended e) = workErrors s := by
  funext work
  simp [workErrors, State.pairedRuns, State.runsById]

theorem supersederErrors_appended : supersederErrors (s.appended e) = supersederErrors s := by
  simp [supersederErrors, State.activeSuperseders]

theorem grantHolds_appended : grantHolds now (s.appended e) = grantHolds now s := by
  funext grant request useRef
  simp [grantHolds]

theorem hasStructuralAuthorizationProof_appended (target : BaseRecord) :
    hasStructuralAuthorizationProof now target (s.appended e) =
      hasStructuralAuthorizationProof now target s := by
  have hproves : grantProves now target (s.appended e) = grantProves now target s := by
    funext grant
    simp only [grantProves, grantHolds_appended]
  rw [hasStructuralAuthorizationProof, authorizations_appended, hproves,
    hasStructuralAuthorizationProof]

/-! ## Rules that resolve identities -/

section Resolving

variable (hs : s.WellIdentified) (h : EventFits now s e)
include hs h

theorem relationErrors_appended {r : RecordRelation} (hr : ¬ r.Names e.id) :
    relationErrors (s.appended e) r = relationErrors s r := by
  obtain ⟨hsubject, hobject⟩ := not_or.mp hr
  simp only [relationErrors, targetShapeOk, recordTypeOf_appended, kindOf_appended hs h hsubject,
    kindOf_appended hs h hobject, List.flatMap_cons, List.flatMap_nil,
    hasId_appended hs h hsubject, hasId_appended hs h hobject]

theorem edgeErrors_appended {k : Kind} {id : String} {raw : Fields} {edge : RefEdge}
    (hedge : edgeErrors s k id raw edge = []) : edgeErrors (s.appended e) k id raw edge = [] := by
  cases hid : s.hasId edge.ref with
  | true => simp [edgeErrors, hasId_appended_of_hasId hs h hid]
  | false =>
    rw [edgeErrors, hid, Bool.false_or] at hedge
    rw [edgeErrors]
    split_ifs at hedge ⊢ <;> simp_all

theorem referenceErrors_appended {k : Kind} {m : Model k} (hm : referenceErrors s k m = []) :
    referenceErrors (s.appended e) k m = [] := by
  by_cases hk : k = .knowledge
  · rwa [referenceErrors, if_pos hk] at hm ⊢
  · rw [referenceErrors, if_neg hk, List.flatMap_eq_nil_iff] at hm ⊢
    exact fun edge hedge => edgeErrors_appended hs h (hm edge hedge)

theorem authorizationErrors_appended {grant : AuthorizationGrant}
    (hgrant : authorizationErrors s grant = []) : authorizationErrors (s.appended e) grant = [] := by
  rw [authorizationErrors, List.append_eq_nil_iff] at hgrant ⊢
  refine ⟨hgrant.1, ?_⟩
  cases hsource : grant.sourceDecisionRef with
  | none => rfl
  | some source =>
    have hresolved := hgrant.2
    simp only [hsource, errorIf_eq_nil] at hresolved ⊢
    cases hid : s.hasId source with
    | true => simp [hasId_appended_of_hasId hs h hid]
    | false =>
      simp only [hid, Bool.not_false, Bool.and_true] at hresolved
      rw [Bool.and_eq_false_iff] at hresolved ⊢
      rcases hresolved with hempty | hexternal
      · exact .inl (by simp [hempty])
      · exact .inr hexternal

/-! ## Promotions -/

omit hs in
theorem hashable_appended (hash : s.Hashable) : (s.appended e).Hashable := by
  intro k m hm
  by_cases hk : k = .event
  · subst hk
    rw [appended_event h.unused] at hm
    rcases List.mem_append.mp hm with hold | hnew
    · exact hash .event m hold
    · rw [List.mem_singleton.mp hnew]
      exact h.hashable
  · rw [appended_of_ne hk] at hm
    exact hash k m hm

theorem passingRef_appended {ref : String} (href : passingRef s.dumps ref = .ok true) :
    passingRef (s.appended e).dumps ref = .ok true := by
  cases hraw : s.dumps.get? ref with
  | none => simp [passingRef, hraw] at href
  | some raw =>
    obtain ⟨k, m, hm, hid, hdump⟩ := (get?_dumps hs).mp hraw
    have hraw' : (s.appended e).dumps.get? ref = some raw :=
      (get?_dumps (hs.appended h.nonempty h.unused)).mpr
        ⟨k, m, mem_appended_of_mem h.unused hm, hid, hdump⟩
    rw [passingRef, hraw] at href
    rwa [passingRef, hraw']

theorem allPassing_appended {refs : List String} (hrefs : allPassing s.dumps refs = .ok true) :
    allPassing (s.appended e).dumps refs = .ok true := by
  rw [allPassing_eq_true] at hrefs ⊢
  exact ⟨hrefs.1, fun ref href => passingRef_appended hs h (hrefs.2 ref href)⟩

theorem hasEffectiveVerification_appended (hash : s.Hashable) {target : BaseRecord}
    (hverified : hasEffectiveVerification target s = .ok true) :
    hasEffectiveVerification target (s.appended e) = .ok true := by
  have hs' := hs.appended h.nonempty h.unused
  have hash' := hashable_appended h hash
  rw [hasEffectiveVerification, Result.bind_eq_ok] at hverified
  obtain ⟨own, hown, hverified⟩ := hverified
  cases own with
  | true =>
    rw [hasEffectiveVerification, Result.bind_eq_ok]
    exact ⟨true, allPassing_appended hs h hown, rfl⟩
  | false =>
    obtain ⟨rel, hrel, hpass⟩ := exists_of_anyM_eq_true hverified
    obtain ⟨own', hown'⟩ := exists_eq_ok_of_isOk (hash'.allPassing_isOk hs'
      (metadataRefs target.metadata
        ["verification_refs", "verification_ref", "closed_verification_refs"]))
    rw [hasEffectiveVerification, Result.bind_eq_ok]
    refine ⟨own', hown', ?_⟩
    cases own' with
    | true => rfl
    | false =>
      show anyM _ _ = _
      rw [anyM_eq_any (fun r _ => hash'.allPassing_isOk hs' _), Except.ok.injEq,
        List.any_eq_true]
      exact ⟨rel, by rwa [relations_appended], decide_eq_true (allPassing_appended hs h hpass)⟩

theorem promotionErrors_appended (hash : s.Hashable) {record : BaseRecord}
    (hrecord : promotionErrors now s record = .ok []) :
    promotionErrors now (s.appended e) record = .ok [] := by
  by_cases hgated : Gated record
  · rw [promotionErrors_of_gated hgated] at hrecord ⊢
    exact ⟨hasEffectiveVerification_appended hs h hash hrecord.verified, hrecord.shape,
      (hasStructuralAuthorizationProof_appended record).trans hrecord.granted⟩
  · rwa [promotionErrors_of_not_gated hgated now (s.appended e) (s := s)]

/-! ## Projections -/

section Unnamed

variable {p : KnowledgeProjection} (hp : ¬ p.Names e.id)
include hp

omit hs h in
theorem ne_of_lookedUp {ref : String} (href : ref ∈ p.lookedUpRefs) :
    ref ≠ e.id ∧ Text.strip ref ≠ e.id :=
  ⟨fun heq => hp ⟨ref, href, .inl heq⟩, fun heq => hp ⟨ref, href, .inr heq⟩⟩

theorem localRefs_appended {refs : List String} (hrefs : refs ⊆ p.lookedUpRefs) :
    (s.appended e).localRefs refs = s.localRefs refs := by
  rw [State.localRefs, State.localRefs]
  refine List.filter_congr (fun ref href => ?_)
  have hstrip : ∃ raw ∈ refs, Text.strip raw = ref := by
    simp only [stringRefs, Json.ofStrings, List.mem_dedup, List.mem_map, List.mem_filter] at href
    obtain ⟨j, ⟨⟨raw, hraw, rfl⟩, -⟩, rfl⟩ := href
    exact ⟨raw, hraw, rfl⟩
  obtain ⟨raw, hraw, rfl⟩ := hstrip
  exact hasId_appended hs h (ne_of_lookedUp hp (hrefs hraw)).2

theorem actualType_appended {ref : String} (href : ref ∈ p.lookedUpRefs) :
    (s.appended e).actualType ref = s.actualType ref := by
  simp only [State.actualType, kindOf_appended hs h (ne_of_lookedUp hp href).1,
    recordTypeOf_appended]

omit hs h hp in
theorem projectionRefs_subset {entry : String × List String × List String}
    (hentry : entry ∈ projectionRefs p) : entry.2.1 ⊆ p.lookedUpRefs := by
  intro ref href
  simp only [projectionRefs, List.mem_cons, List.not_mem_nil, or_false] at hentry
  rcases hentry with rfl | rfl | rfl | rfl <;> simp_all [KnowledgeProjection.lookedUpRefs]

theorem projectionTypeErrors_appended :
    projectionTypeErrors (s.appended e) p = projectionTypeErrors s p := by
  have hauthorization : p.authorizationRefs ⊆ p.lookedUpRefs := List.subset_append_right _ _
  rw [projectionTypeErrors, projectionTypeErrors]
  congr 1
  · refine List.flatMap_congr (fun entry hentry => List.flatMap_congr (fun ref href => ?_))
    have hmem := projectionRefs_subset hentry href
    simp only [actualType_appended hs h hp hmem, hasId_appended hs h (ne_of_lookedUp hp hmem).1]
  · refine List.flatMap_congr (fun ref href => ?_)
    have hne := (ne_of_lookedUp hp (hauthorization href)).1
    rw [hasId_appended hs h hne, kindOf_appended hs h hne]

theorem unresolvedErrors_appended : unresolvedErrors (s.appended e) p = unresolvedErrors s p := by
  rw [unresolvedErrors, unresolvedErrors]
  refine List.flatMap_congr (fun entry hentry => ?_)
  obtain ⟨field, refs, allowed⟩ := entry
  have hinner : refs.flatMap (fun ref => errorIf (!(s.appended e).hasId ref)
        s!"knowledge projection {p.id} has unresolved {field} ref {Text.pyRepr ref}") =
      refs.flatMap (fun ref => errorIf (!s.hasId ref)
        s!"knowledge projection {p.id} has unresolved {field} ref {Text.pyRepr ref}") := by
    refine List.flatMap_congr (fun ref href => ?_)
    rw [hasId_appended hs h (ne_of_lookedUp hp (projectionRefs_subset hentry href)).1]
  simp only [hinner]

omit hs h hp in
theorem projectionAuthorizationErrors_appended :
    projectionAuthorizationErrors now (s.appended e) p = projectionAuthorizationErrors now s p := by
  have hgrant : projectionGrantErrors now (s.appended e) = projectionGrantErrors now s := by
    funext p ref
    simp only [projectionGrantErrors, authorizations_appended, grantHolds_appended]
  rw [projectionAuthorizationErrors, hgrant, projectionAuthorizationErrors]

/-- A projection that does not name the identity is judged as before. -/
theorem projectionErrors_appended :
    projectionErrors now (s.appended e) p = projectionErrors now s p := by
  have hassertions : p.currentAssertionRefs ⊆ p.lookedUpRefs := fun ref href => by
    simp [KnowledgeProjection.lookedUpRefs, href]
  have hevidence : p.evidenceSummaryRefs ⊆ p.lookedUpRefs := fun ref href => by
    simp [KnowledgeProjection.lookedUpRefs, href]
  have hjudgments : p.epistemicJudgmentRefs ⊆ p.lookedUpRefs := fun ref href => by
    simp [KnowledgeProjection.lookedUpRefs, href]
  have hscope : p.scopeVersionRefs ⊆ p.lookedUpRefs := fun ref href => by
    simp [KnowledgeProjection.lookedUpRefs, href]
  have hjudgment : judgmentError (s.appended e) p = judgmentError s p := by
    funext ref
    simp only [judgmentError, parsedRecords_appended, localRefs_appended hs h hp hassertions]
  have hbinds : derivationBinds (s.appended e) p = derivationBinds s p := by
    funext assertionRef derivation
    simp only [derivationBinds, validJudgments, hjudgment, relations_appended,
      localRefs_appended hs h hp hjudgments, localRefs_appended hs h hp hevidence,
      localRefs_appended hs h hp hscope]
  have hbinding : bindingErrors (s.appended e) p = bindingErrors s p := by
    funext assertionRef
    simp only [bindingErrors, hbinds, derivationsOf, parsedRecords_appended]
  simp only [projectionErrors, projectionTypeErrors_appended hs h hp,
    unresolvedErrors_appended hs h hp, projectionAuthorizationErrors_appended, judgmentErrors,
    hjudgment, localRefs_appended hs h hp hassertions, localRefs_appended hs h hp hjudgments,
    hbinding]

end Unnamed

end Resolving

/-! ## The whole state -/

theorem lineageErrors_appended (hs : s.WellIdentified) (h : EventFits now s e)
    (hnone : ¬ ∃ r ∈ s.supersedes, r.Names e.id) :
    lineageErrors (s.appended e) = lineageErrors s := by
  have hedges : (s.appended e).lineageEdges = s.lineageEdges := by
    rw [lineageEdges, lineageEdges, supersedes_appended]
    congr 1
    refine List.filter_congr (fun r hr => ?_)
    obtain ⟨hsubject, hobject⟩ := not_or.mp (fun hnames => hnone ⟨r, hr, hnames⟩)
    rw [hasId_appended hs h hsubject, hasId_appended hs h hobject]
  rw [lineageErrors, hedges, lineageErrors]

theorem referenceErrors_event (s : State) (e : Event) : referenceErrors s .event e = [] := by
  rw [referenceErrors, if_neg (by decide), List.flatMap_eq_nil_iff]
  intro edge hedge
  have hsubject : edge.eventSubject = true := by
    obtain ⟨edge', -, rfl⟩ := List.mem_map.mp hedge
    rfl
  simp [edgeErrors, hsubject]

theorem graphOk_appended (hash : s.Hashable) (hok : GraphOk now s) (h : EventFits now s e) :
    GraphOk now (s.appended e) := by
  have hs := hok.identified
  refine
    { identified := hs.appended h.nonempty h.unused
      records := fun r hr => hok.records r (records_appended ▸ hr)
      relations := fun r hr => ?_
      references := fun k m hm => ?_
      authorizations := fun g hg =>
        authorizationErrors_appended hs h (hok.authorizations g (authorizations_appended ▸ hg))
      uses := fun u hu => (congrFun useErrors_appended u).trans (hok.uses u (uses_appended ▸ hu))
      promotions := fun r hr =>
        promotionErrors_appended hs h hash (hok.promotions r (records_appended ▸ hr))
      projections := fun p hp => ?_
      revisions := fun r hr =>
        (congrFun revisionErrors_appended r).trans (hok.revisions r (records_appended ▸ hr))
      supersedes := fun r hr =>
        (congrFun supersedesErrors_appended r).trans (hok.supersedes r (supersedes_appended ▸ hr))
      runs := fun r hr => (congrFun runErrors_appended r).trans (hok.runs r (runs_appended ▸ hr))
      works := fun w hw =>
        (congrFun workErrors_appended w).trans (hok.works w (works_appended ▸ hw))
      superseders := supersederErrors_appended.trans hok.superseders
      lineage := ?_ }
  · rw [relations_appended] at hr
    by_cases hnames : r.Names e.id
    · exact h.relations r hr hnames
    · exact (relationErrors_appended hs h hnames).trans (hok.relations r hr)
  · rcases mem_appended h.unused hm with hold | hnew
    · exact referenceErrors_appended hs h (hok.references k m hold)
    · by_cases hk : k = .event
      · subst hk
        exact referenceErrors_event _ m
      · rw [appended_of_ne hk] at hm
        exact absurd hnew (h.unused k m hm)
  · rw [projections_appended] at hp
    by_cases hnames : p.Names e.id
    · exact h.projections p hp hnames
    · exact (projectionErrors_appended hs h hnames).trans (hok.projections p hp)
  · by_cases hnames : ∃ r ∈ s.supersedes, r.Names e.id
    · exact h.lineage hnames
    · exact (lineageErrors_appended hs h hnames).trans hok.lineage

/-- An event that fits leaves a valid state valid. -/
theorem valid_appended (hash : s.Hashable) (hok : Valid now s) (h : EventFits now s e) :
    Valid now (s.appended e) := valid_iff.mpr (graphOk_appended hash (valid_iff.mp hok) h)

end State

end PortableRuntime
