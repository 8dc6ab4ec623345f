import PortableRuntime.Stores.RevisionApply
import PortableRuntime.Stores.Supersession

/-!
# Atomicity of apply_revision

A call that raises after its first save leaves that save behind.
-/

namespace PortableRuntime
namespace MemoryStore

variable {now : Time} {st st' : MemoryStore} {a : ApplyRevision}

/-- The identity that the use receives is a new one: nothing is stored under it, and the
proposal does not mention it. -/
structure FreshUse (st : MemoryStore) (a : ApplyRevision) : Prop where
  nonBlank : Text.nonBlank a.useId = true
  unstored : st.get .authorizationUse a.useId = none
  unmentioned : ∀ proposal, (st.getRecord a.revision.id = some proposal ∨
    proposal = a.revision.toBaseRecord) →
      proposal.metadata.get "authorization_use_ref" ≠ .str a.useId ∧
      ∀ field, proposal.getattr field ≠ .str a.useId

/-- The call saves its proposal first. -/
def Proposes (st : MemoryStore) (a : ApplyRevision) : Prop :=
  st.getRecord a.revision.id = none ∧ a.revision.lifecycleStatus = .proposed

/-- The checks of the call pass on a store that holds the proposal, and yield a use. -/
structure ChecksPass (now : Time) (st : MemoryStore) (a : ApplyRevision) (stored : BaseRecord)
    (use : AuthorizationUse) (metadata : Fields) : Prop where
  canonical : st.canonicalRevision a.revision.toBaseRecord = .ok stored
  pending : stored.lifecycleStatus ≠ .applied
  authorized : st.authorizeApply now stored a = .ok (use, metadata)

/-- A raise leaves the records and the uses as they were; once the checks have passed the
applied Revision is stored; and the same call with the Revision it left finds it applied. -/
structure AppliesAtomically (now : Time) (st : MemoryStore) (a : ApplyRevision) : Prop where
  atomic : ∀ e, (st.applyRevision now a).2 = .error e →
    (st.applyRevision now a).1.records .record = st.records .record ∧
      (st.applyRevision now a).1.records .authorizationUse = st.records .authorizationUse
  completes : ∀ st₁ stored use metadata, st.materialize now a.revision.toBaseRecord = .ok st₁ →
    ChecksPass now st₁ a stored use metadata → ∃ applied, (st.applyRevision now a).2 = .ok applied ∧
      (st.applyRevision now a).1.getRecord a.revision.id = some applied
  repeats : ∀ applied, (st.applyRevision now a).2 = .ok applied →
    ∀ (later : Time) (held : RevisionRecord) (useId : String), held.id = a.revision.id →
      held.version = applied.version → held.fields = a.revision.fields →
      (st.applyRevision now a).1.applyRevision later { a with revision := held, useId := useId } =
        ((st.applyRevision now a).1, .ok applied)

/-- A proposal that the call saves passes the checks, and where the checks pass the graph
with the use in it is valid and the proposal can be applied under the grant. -/
def AppliesCleanly (now : Time) (st : MemoryStore) (a : ApplyRevision) : Prop :=
  ∀ st₁, st.materialize now a.revision.toBaseRecord = .ok st₁ →
    (Proposes st a → ∃ stored use metadata, ChecksPass now st₁ a stored use metadata) ∧
    ∀ stored use metadata, ChecksPass now st₁ a stored use metadata →
      Valid now (st₁.exportState.merge .authorizationUse [use]) ∧
      ∃ grant, st₁.get .authorization (a.authorizationRef.getD "") = some grant ∧
        Appliable st₁ grant stored

/-! ## The stored proposal -/

theorem Keyed.materialize {revision : BaseRecord} (hkeyed : Keyed st)
    (h : st.materialize now revision = .ok st') : Keyed st' := by
  rcases materialize_eq_ok h with rfl | ⟨-, -, hsave⟩
  · exact hkeyed
  · obtain ⟨-, -, rfl⟩ := saveRecord_eq_ok.mp hsave
    exact hkeyed.save .record revision

/-- The proposal that the checks are about is the stored one or the argument. -/
theorem FreshUse.materialize (h : FreshUse st a)
    (hmaterialize : st.materialize now a.revision.toBaseRecord = .ok st') : FreshUse st' a := by
  rcases materialize_eq_ok hmaterialize with rfl | ⟨hnone, -, hsave⟩
  · exact h
  · obtain ⟨-, -, rfl⟩ := saveRecord_eq_ok.mp hsave
    refine ⟨h.nonBlank, ?_, fun proposal hproposal => h.unmentioned proposal (.inr ?_)⟩
    · rw [save, get_put_of_ne st (by decide)]
      exact h.unstored
    · rcases hproposal with hget | hsame
      · have hkind : Kind.record.identifier a.revision.toBaseRecord = a.revision.id := rfl
        rw [getRecord, save, get_put_self, hkind, if_pos rfl] at hget
        exact (Option.some.inj hget).symm
      · exact hsame

/-- A new identity goes to the end of its bucket, as in the candidate graph. -/
theorem exportState_save_of_fresh (hkeyed : Keyed st) {k : Kind} {v : Model k}
    (hnone : st.get k (k.identifier v) = none) :
    (st.save k v).exportState = st.exportState.merge k [v] := by
  funext k'
  by_cases hk : k' = k
  · subst hk
    rw [State.merge, Function.update_self, mergeBucket, exportState, save, records_put_self,
      Dict.values, Dict.entries_set_of_not_mem hnone, List.map_append]
    congr 1
    refine (List.filter_eq_self.mpr (fun m hm => ?_)).symm
    obtain ⟨id, hget⟩ := Dict.mem_values.mp hm
    have hne : k'.identifier m ≠ k'.identifier v := by
      intro hsame
      have hid : k'.identifier m = id := hkeyed k' id m hget
      rw [← hsame, hid] at hnone
      exact absurd (hget.symm.trans hnone) (by simp)
    simpa using hne
  · rw [save, exportState_put_of_ne st hk, State.merge, Function.update_of_ne hk]

/-! ## The use in place -/

theorem hasId_iff_mem {s : State} {ref : String} :
    s.hasId ref = true ↔ ref ≠ "" ∧ ∃ k, ∃ m ∈ s k, k.identifier m = ref := by
  simp only [State.hasId, State.kindOf, Option.isSome_map, List.find?_isSome, decide_eq_true_eq]
  refine and_congr_right (fun _ => ?_)
  constructor
  · rintro ⟨⟨id, k⟩, hmem, rfl⟩
    exact ⟨k, State.mem_identities.mp hmem⟩
  · rintro ⟨k, hm⟩
    exact ⟨(ref, k), State.mem_identities.mpr hm, rfl⟩

/-- A new object brings one identity. -/
theorem hasId_save (hkeyed : Keyed st) {k : Kind} {v : Model k}
    (hnone : st.get k (k.identifier v) = none) {ref : String} (href : ref ≠ k.identifier v) :
    (st.save k v).exportState.hasId ref = st.exportState.hasId ref := by
  have hstored (k' : Kind) : (∃ m ∈ (st.save k v).exportState k', k'.identifier m = ref) ↔
      ∃ m ∈ st.exportState k', k'.identifier m = ref := by
    rw [exportState_save_of_fresh hkeyed hnone]
    by_cases hk : k' = k
    · subst hk
      rw [State.merge, Function.update_self, mergeBucket]
      constructor
      · rintro ⟨m, hm, hid⟩
        rcases List.mem_append.mp hm with hold | hnew
        · exact ⟨m, (List.mem_filter.mp hold).1, hid⟩
        · exact absurd (hid.symm.trans (congrArg _ (List.mem_singleton.mp hnew))) href
      · rintro ⟨m, hm, hid⟩
        refine ⟨m, List.mem_append_left _ (List.mem_filter.mpr ⟨hm, ?_⟩), hid⟩
        simpa [hid] using href
    · rw [State.merge, Function.update_of_ne hk]
  rw [Bool.eq_iff_iff, hasId_iff_mem, hasId_iff_mem]
  simp only [hstored]

theorem resolves_save (hkeyed : Keyed st) {k : Kind} {v : Model k}
    (hnone : st.get k (k.identifier v) = none) {ref : Json} (href : ref ≠ .str (k.identifier v)) :
    (st.save k v).Resolves ref ↔ st.Resolves ref := by
  have hsame {id : String} (hid : ref = .str id) :
      (st.save k v).exportState.hasId id = st.exportState.hasId id := by
    refine hasId_save hkeyed hnone ?_
    rintro rfl
    exact href hid
  constructor
  · intro h id hid
    rw [← hsame hid]
    exact h id hid
  · intro h id hid
    rw [hsame hid]
    exact h id hid

/-- The use in place does not change what the proposal needs. -/
theorem appliable_save_use (hkeyed : Keyed st) {use : AuthorizationUse} {stored : BaseRecord}
    {grant : AuthorizationGrant} (hnone : st.get .authorizationUse use.id = none)
    (hunmentioned : ∀ field, stored.getattr field ≠ .str use.id) :
    Appliable (st.save .authorizationUse use) grant stored ↔ Appliable st grant stored := by
  have hrecord (ref : Json) : (st.save .authorizationUse use).endpointAt ref = st.endpointAt ref := by
    have hne : Kind.record ≠ .authorizationUse := by decide
    have hget (id : String) : (st.save .authorizationUse use).getRecord id = st.getRecord id :=
      get_put_of_ne st hne _ id use
    unfold endpointAt
    simp only [hget]
  have hends : (st.save .authorizationUse use).endpointsAgree stored = st.endpointsAgree stored := by
    rw [endpointsAgree, endpointsAgree, hrecord, hrecord]
  have hresolves (field : String) := resolves_save hkeyed (k := .authorizationUse) hnone
    (hunmentioned field)
  constructor
  · intro h
    exact ⟨h.type, h.declared, h.transition, hends ▸ h.endpoints, (hresolves _).mp h.subject,
      ⟨h.supersedes.1, (hresolves _).mp h.supersedes.2⟩, h.binds⟩
  · intro h
    exact ⟨h.type, h.declared, h.transition, hends ▸ h.endpoints, (hresolves _).mpr h.subject,
      ⟨h.supersedes.1, (hresolves _).mpr h.supersedes.2⟩, h.binds⟩

theorem saveUse_isOk_iff (hkeyed : Keyed st) {stored : BaseRecord} {use : AuthorizationUse}
    {metadata : Fields} {grant : AuthorizationGrant} {actor subject : String} {legacy : Bool}
    (h : ApplyEvidence now st a stored use metadata grant actor subject legacy)
    (hnone : st.get .authorizationUse use.id = none) :
    st.saveAuthorizationUse now use = .ok st' ↔
      Valid now (st.exportState.merge .authorizationUse [use]) ∧
        st.save .authorizationUse use = st' := by
  have hid : grant.id = a.authorizationRef.getD "" := hkeyed .authorization _ grant h.granted
  have hauthorized : isAuthorizedFor use.request grant use.authorizedAt = true := by
    rw [h.useRequest, h.usedAt]
    exact h.authorized
  rw [saveAuthorizationUse_eq_ok, hnone]
  constructor
  · rintro ⟨-, -, hvalid, hsave⟩
    exact ⟨hvalid, hsave⟩
  · rintro ⟨hvalid, hsave⟩
    refine ⟨rfl, ⟨grant, ?_, hauthorized⟩, hvalid, hsave⟩
    rw [h.useGrant, hid]
    exact h.granted

/-! ## Runs of a call -/

section Calls

variable {st₁ : MemoryStore} {stored : BaseRecord} {use : AuthorizationUse} {metadata : Fields}

/-- After its checks a call depends on the two saves that are left. -/
theorem applyRevision_of_checks (hmaterialize : st.materialize now a.revision.toBaseRecord = .ok st₁)
    (h : ChecksPass now st₁ a stored use metadata) :
    st.applyRevision now a = st₁.finishApply now stored use metadata := by
  simp only [applyRevision, hmaterialize, h.canonical, h.pending, h.authorized, if_false]

/-- Without its checks a call raises or finds the Revision applied, and saves no more. -/
theorem applyRevision_of_no_checks
    (hmaterialize : st.materialize now a.revision.toBaseRecord = .ok st₁)
    (h : ¬ ∃ stored use metadata, ChecksPass now st₁ a stored use metadata) :
    (st.applyRevision now a).1 = st₁ ∧ ∀ applied, (st.applyRevision now a).2 = .ok applied →
      st₁.canonicalRevision a.revision.toBaseRecord = .ok applied ∧
        applied.lifecycleStatus = .applied := by
  simp only [applyRevision, hmaterialize]
  cases hcanonical : st₁.canonicalRevision a.revision.toBaseRecord with
  | error e => exact ⟨rfl, fun applied hresult => absurd hresult (by simp)⟩
  | ok stored =>
    by_cases hstatus : stored.lifecycleStatus = .applied
    · simp only [hstatus, if_true]
      exact ⟨trivial, fun applied hresult => ⟨hresult, Except.ok.inj hresult ▸ hstatus⟩⟩
    · cases hauthorized : st₁.authorizeApply now stored a with
      | error e => simp [hstatus, hauthorized]
      | ok r =>
        obtain ⟨use, metadata⟩ := r
        exact absurd ⟨stored, use, metadata, hcanonical, hstatus, hauthorized⟩ h

/-- Once the checks have passed the call completes exactly when the graph with the use is
valid and the proposal can be applied. -/
theorem completes_iff (hkeyed : Keyed st₁) (hfresh : FreshUse st₁ a)
    (hmaterialize : st.materialize now a.revision.toBaseRecord = .ok st₁)
    (h : ChecksPass now st₁ a stored use metadata) :
    (∃ applied, (st.applyRevision now a).2 = .ok applied) ↔
      Valid now (st₁.exportState.merge .authorizationUse [use]) ∧
      ∃ grant, st₁.get .authorization (a.authorizationRef.getD "") = some grant ∧
        Appliable st₁ grant stored := by
  obtain ⟨grant, actor, subject, legacy, hevidence⟩ := authorizeApply_eq_ok h.authorized
  obtain ⟨hget, -, -⟩ := canonicalRevision_eq_ok.mp h.canonical
  have hkey : stored.id = a.revision.id := hkeyed .record _ stored hget
  have hid : a.authorizationRef.getD "" = grant.id :=
    (hkeyed .authorization _ grant hevidence.granted).symm
  obtain ⟨huncited, hunmentioned⟩ := hfresh.unmentioned stored (.inl hget)
  have hnone : st₁.get .authorizationUse use.id = none := by
    rw [hevidence.useId]
    exact hfresh.unstored
  have hmentioned : ∀ field, stored.getattr field ≠ .str use.id := by
    rw [hevidence.useId]
    exact hunmentioned
  -- What the two saves that are left find in the store with the use in place.
  have hsaved (hvalid : Valid now (st₁.exportState.merge .authorizationUse [use])) :
      (∃ r, (st₁.save .authorizationUse use).saveApplied now stored metadata = .ok r) ↔
        Appliable st₁ grant stored := by
    rw [← exportState_save_of_fresh hkeyed hnone] at hvalid
    have hne : Kind.record ≠ .authorizationUse := by decide
    have hne' : Kind.authorization ≠ .authorizationUse := by decide
    rw [saveApplied_isOk_iff hevidence (hkeyed.save .authorizationUse use) hvalid
      (by rw [getRecord, save, get_put_of_ne st₁ hne, hkey]; exact hget) hid
      (by rw [save, get_put_of_ne st₁ hne', ← hid]; exact hevidence.granted)
      (by rw [save, get_put_self]; exact if_pos rfl) hfresh.nonBlank huncited,
      appliable_save_use hkeyed hnone hmentioned]
  rw [applyRevision_of_checks hmaterialize h]
  constructor
  · rintro ⟨applied, hresult⟩
    rw [finishApply] at hresult
    cases huse : st₁.saveAuthorizationUse now use with
    | error e => simp [huse] at hresult
    | ok st₂ =>
      obtain ⟨hvalid, rfl⟩ := (saveUse_isOk_iff hkeyed hevidence hnone).mp huse
      cases hsave : (st₁.save .authorizationUse use).saveApplied now stored metadata with
      | error e => simp [huse, hsave] at hresult
      | ok r => exact ⟨hvalid, grant, hevidence.granted, (hsaved hvalid).mp ⟨r, hsave⟩⟩
  · rintro ⟨hvalid, grant', hgrant', happliable⟩
    obtain rfl := Option.some.inj (hevidence.granted.symm.trans hgrant')
    obtain ⟨⟨st₃, applied⟩, hsave⟩ := (hsaved hvalid).mpr happliable
    rw [finishApply, (saveUse_isOk_iff hkeyed hevidence hnone).mpr ⟨hvalid, rfl⟩]
    exact ⟨applied, by simp only [hsave]⟩

/-- What a call that returns leaves stored under the identity of the Revision. -/
theorem stored_of_applyRevision (hkeyed : Keyed st₁) {applied : BaseRecord}
    (hmaterialize : st.materialize now a.revision.toBaseRecord = .ok st₁)
    (hresult : (st.applyRevision now a).2 = .ok applied) :
    (st.applyRevision now a).1.getRecord a.revision.id = some applied ∧
      applied.lifecycleStatus = .applied ∧ applied.cls = .revisionRecord ∧
      ∀ field ∈ "subject_ref" :: revisionLinks,
        (applied.getattr field).pyEq (a.revision.getattr field) = true := by
  have hlinks {stored : BaseRecord}
      (hsame : sameProposal stored a.revision.toBaseRecord = true) :
      ∀ field ∈ "subject_ref" :: revisionLinks,
        (stored.getattr field).pyEq (a.revision.getattr field) = true := by
    rw [sameProposal, Bool.and_eq_true] at hsame
    exact List.all_eq_true.mp hsame.2
  by_cases hchecks : ∃ stored use metadata, ChecksPass now st₁ a stored use metadata
  · obtain ⟨stored, use, metadata, h⟩ := hchecks
    obtain ⟨hget, hcls, hsame⟩ := canonicalRevision_eq_ok.mp h.canonical
    have hkey : stored.id = a.revision.id := hkeyed .record _ stored hget
    rw [applyRevision_of_checks hmaterialize h, finishApply] at hresult ⊢
    cases huse : st₁.saveAuthorizationUse now use with
    | error e => simp [huse] at hresult
    | ok st₂ =>
      cases hsave : st₂.saveApplied now stored metadata with
      | error e => simp [huse, hsave] at hresult
      | ok r =>
        obtain ⟨st₃, applied'⟩ := r
        simp only [huse, hsave, Except.ok.injEq] at hresult
        subst hresult
        obtain ⟨happlied, hrecord⟩ := saveApplied_eq_ok.mp hsave
        obtain ⟨-, -, rfl⟩ := saveRecord_eq_ok.mp hrecord
        obtain ⟨hid, -, hstatus, -, -, hfields⟩ := appliedRevision_eq_ok happlied
        have hcls' : applied'.cls = stored.cls := by
          obtain ⟨_, rfl⟩ := BaseRecord.withLifecycle_eq_ok.mp happlied
          rfl
        refine ⟨?_, hstatus, hcls'.trans hcls, ?_⟩
        · simp only [hsave]
          rw [getRecord, save, get_put_self]
          exact if_pos (hkey.symm.trans hid.symm)
        · intro field hfield
          rw [BaseRecord.getattr, hfields]
          exact hlinks hsame field hfield
  · obtain ⟨hstore, hfound⟩ := applyRevision_of_no_checks hmaterialize hchecks
    obtain ⟨hcanonical, hstatus⟩ := hfound applied hresult
    obtain ⟨hget, hcls, hsame⟩ := canonicalRevision_eq_ok.mp hcanonical
    rw [hstore]
    exact ⟨hget, hstatus, hcls, hlinks hsame⟩

/-- A call on an applied Revision returns it and saves nothing. -/
theorem applyRevision_of_applied {applied : BaseRecord}
    (hget : st.getRecord a.revision.id = some applied) (hstatus : applied.lifecycleStatus = .applied)
    (hcls : applied.cls = .revisionRecord)
    (hsame : sameProposal applied a.revision.toBaseRecord = true) :
    st.applyRevision now a = (st, .ok applied) := by
  have hmaterialize : st.materialize now a.revision.toBaseRecord = .ok st := by
    rw [materialize, if_neg]
    rintro ⟨hnone, -⟩
    exact absurd (hget.symm.trans hnone) (by simp)
  have hcanonical := canonicalRevision_eq_ok.mpr ⟨hget, hcls, hsame⟩
  simp only [applyRevision, hmaterialize, hcanonical, hstatus, if_true]

theorem repeats_of_keyed (hkeyed : Keyed st) {applied : BaseRecord}
    (hresult : (st.applyRevision now a).2 = .ok applied) (later : Time) (held : RevisionRecord)
    (useId : String) (hid : held.id = a.revision.id) (hversion : held.version = applied.version)
    (hfields : held.fields = a.revision.fields) :
    (st.applyRevision now a).1.applyRevision later { a with revision := held, useId := useId } =
      ((st.applyRevision now a).1, .ok applied) := by
  cases hmaterialize : st.materialize now a.revision.toBaseRecord with
  | error e => simp [applyRevision, hmaterialize] at hresult
  | ok st₁ =>
    obtain ⟨hget, hstatus, hcls, hlinks⟩ :=
      stored_of_applyRevision (hkeyed.materialize hmaterialize) hmaterialize hresult
    refine applyRevision_of_applied (by rw [hid]; exact hget) hstatus hcls ?_
    rw [sameProposal, Bool.and_eq_true, List.all_eq_true]
    refine ⟨by simpa using hversion.symm, fun field hfield => ?_⟩
    have hsame := hlinks field hfield
    rw [BaseRecord.getattr, BaseRecord.getattr] at hsame ⊢
    rwa [hfields]

end Calls

/-! ## The condition -/

/-- Two goals and a grant, as three saves leave them. -/
def revisedGoals (subjects : List String) : MemoryStore :=
  run afterCall empty
    [(0, .save .record (currentGoal "goal_1")), (0, .save .record (currentGoal "goal_2")),
     (0, .save .authorization (goalGrant subjects))]

theorem keyed_revisedGoals {subjects : List String}
    (h : Along afterCall KeepsApart empty
      [(0, .save .record (currentGoal "goal_1")), (0, .save .record (currentGoal "goal_2")),
       (0, .save .authorization (goalGrant subjects))]) : Keyed (revisedGoals subjects) :=
  (run_invariant (fun _ _ hs hC => hs.afterCall hC) superseding_empty h).keyed

theorem unmentioned_goalRevision (field : String) :
    goalRevision.getattr field ≠ .str "authuse_1" := by
  intro hget
  cases hfield : goalRevision.fields.get? field with
  | none => simp [BaseRecord.getattr, Fields.get, hfield] at hget
  | some v =>
    have hmem := Fields.get?_eq_some_mem hfield
    rw [BaseRecord.getattr, Fields.get, hfield, Option.getD_some] at hget
    rw [hget] at hmem
    revert hmem
    simp [goalRevision]

theorem fresh_revisedGoals {subjects : List String}
    (huse : (revisedGoals subjects).get .authorizationUse "authuse_1" = none)
    (hrecord : (revisedGoals subjects).getRecord "revision_1" = none) :
    FreshUse (revisedGoals subjects) applyGoalRevision := by
  refine ⟨by decide, huse, fun proposal hproposal => ?_⟩
  rcases hproposal with hget | rfl
  · exact absurd (hrecord.symm.trans hget) (by simp)
  · exact ⟨by simp [applyGoalRevision, goalRevision, Fields.get, Fields.get?],
      unmentioned_goalRevision⟩

end MemoryStore
end PortableRuntime
