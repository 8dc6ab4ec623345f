import PortableRuntime.Protocol.Valid
import PortableRuntime.Python.Equality
import PortableRuntime.Stores.Revisions

/-!
# What justifies a supersedes relation

The graph asks a supersedes relation for an applied Revision, unless the relation has the
shape of a reopening: an assessment and two endpoints whose identities begin with `work_`.
A record may have such an identity too, and then two records are superseded without any
Revision.  Where no reopening joins two records, every supersession of one is authorized.
-/

namespace PortableRuntime

/-! ## Justification in a valid state -/

/-- The use and the grant authorize the application of a Revision by its actor, at the
instant of the use. -/
structure AppliedUnder (revision : BaseRecord) (use : AuthorizationUse)
    (grant : AuthorizationGrant) : Prop where
  named : revision.metadata.get "authorization_use_ref" = .str use.id
  granted : use.authorizationRef = grant.id
  capability : use.capability = "revision.apply"
  actor : revision.metadata.get "actor_ref" = .str use.actorRef
  subject : revision.getattr "subject_ref" = .str use.resourceRef
  valid : validateGrant grant use.authorizedAt = []
  authorized : isAuthorizedFor use.request grant use.authorizedAt = true

/-- The state holds an applied Revision of exactly the endpoints, and its authority. -/
def Justified (s : State) (relation : RecordRelation) : Prop :=
  ∃ revision ∈ s.records, revision.recordType = .revision ∧
    revision.lifecycleStatus ∈ appliedStatuses ∧
    revision.getattr "produces_ref" = .str relation.subjectRef ∧
    revision.getattr "revises_ref" = .str relation.objectRef ∧
    ∃ use ∈ s.uses, ∃ grant ∈ s.authorizations, AppliedUnder revision use grant

/-- A supersedes relation that the graph takes for the handoff of a reopened Work. -/
def reopening (relation : RecordRelation) : Bool :=
  relation.relationType = .supersedes &&
    !(relation.metadata.get "revision_ref").isNonBlankStr && reopenHandoff relation

variable {now : Time} {s s' : State}

theorem Justified.rearranged {relation : RecordRelation} (h : Justified s relation)
    (hre : s.Rearranged s') : Justified s' relation := by
  obtain ⟨revision, hmem, htype, hstatus, hnew, hold, use, huse, grant, hgrant, hunder⟩ := h
  exact ⟨revision, (hre .record).mem_iff.mp hmem, htype, hstatus, hnew, hold, use,
    (hre .authorizationUse).mem_iff.mp huse, grant, (hre .authorization).mem_iff.mp hgrant, hunder⟩

/-- What the rule on supersedes edges finds. -/
theorem revision_of_supersedes (h : GraphOk now s) {relation : RecordRelation}
    (hrelation : relation ∈ s.supersedes) :
    reopening relation = true ∨ ∃ revision ∈ s.records, revision.recordType = .revision ∧
      revision.lifecycleStatus ∈ appliedStatuses ∧
      revision.getattr "produces_ref" = .str relation.subjectRef ∧
      revision.getattr "revises_ref" = .str relation.objectRef := by
  have herrors := h.supersedes relation hrelation
  have htype : relation.relationType = .supersedes := by
    simpa using (List.mem_filter.mp hrelation).2
  unfold supersedesErrors at herrors
  split at herrors
  · rename_i ref href
    split at herrors
    · rename_i hblank
      rw [errorIf_eq_nil, Bool.not_eq_false'] at herrors
      have hblank' : Text.nonBlank ref = false := by simpa using hblank
      left
      simp [reopening, htype, href, Json.isNonBlankStr, hblank', herrors]
    · split at herrors
      · exact absurd herrors (List.cons_ne_nil _ _)
      · rename_i revision hget
        split at herrors
        · exact absurd herrors (List.cons_ne_nil _ _)
        · rename_i hrevision
          rw [List.append_eq_nil_iff, List.append_eq_nil_iff, errorIf_eq_nil, errorIf_eq_nil,
            Bool.not_eq_false', Bool.or_eq_false_iff, Bool.not_eq_false', Bool.not_eq_false']
            at herrors
          obtain ⟨⟨hstatus, hnew, hold⟩, -⟩ := herrors
          have hmem := ((State.get?_byId (h.identified.bucket_nodup .record)).mp hget).1
          exact .inr ⟨revision, hmem, not_not.mp hrevision, List.contains_iff_mem.mp hstatus,
            Json.pyEq_str.mp hnew, Json.pyEq_str.mp hold⟩
  · rename_i hnone
    rw [errorIf_eq_nil, Bool.not_eq_false'] at herrors
    have hblank : (relation.metadata.get "revision_ref").isNonBlankStr = false := by
      cases hget : relation.metadata.get "revision_ref" with
      | str ref => exact absurd hget (hnone ref)
      | _ => rfl
    left
    simp [reopening, htype, hblank, herrors]

theorem effective_of_applied {status : LifecycleStatus} (h : status ∈ appliedStatuses) :
    effectiveStatuses.contains status = true := by
  revert h
  cases status <;> decide

/-- The grant under which a use of a valid state was valid. -/
theorem grant_of_use (h : GraphOk now s) {use : AuthorizationUse} (hmem : use ∈ s.uses) :
    ∃ grant ∈ s.authorizations, use.authorizationRef = grant.id ∧
      validateGrant grant use.authorizedAt = [] ∧
      isAuthorizedFor use.request grant use.authorizedAt = true := by
  have herrors := h.uses use hmem
  unfold useErrors at herrors
  split at herrors
  · exact absurd herrors (List.cons_ne_nil _ _)
  · rename_i grant hfind
    obtain ⟨hgrant, hid⟩ := (State.find_eq_some (h.identified.bucket_nodup .authorization)).mp hfind
    rw [errorIf_eq_nil, Bool.or_eq_false_iff, Bool.not_eq_false', Bool.not_eq_false',
      List.isEmpty_iff] at herrors
    exact ⟨grant, hgrant, hid.symm, herrors⟩

/-- What the rule on effective Revisions finds. -/
theorem use_of_applied (h : GraphOk now s) {revision : BaseRecord} (hmem : revision ∈ s.records)
    (htype : revision.recordType = .revision) (hstatus : revision.lifecycleStatus ∈ appliedStatuses) :
    ∃ use, namedUse s revision.metadata = some use ∧ use.capability = "revision.apply" ∧
      revision.metadata.get "actor_ref" = .str use.actorRef ∧
      revision.fields.getOr "subject_ref" (.str "") = .str use.resourceRef := by
  have herrors := h.revisions revision hmem
  rw [revisionErrors, if_neg (not_not.mpr htype)] at herrors
  simp only [Result.bind_eq_ok, Result.pure_eq_ok, List.append_eq_nil_iff] at herrors
  obtain ⟨errors, herrors, -, -, rfl, -⟩ := herrors
  rw [revisionAuthorizationErrors, effective_of_applied hstatus] at herrors
  simp only [Bool.not_true, Bool.false_eq_true, if_false, Result.bind_eq_ok] at herrors
  obtain ⟨named, -, herrors⟩ := herrors
  cases named with
  | none => exact absurd (Result.pure_eq_ok.mp herrors) (List.cons_ne_nil _ _)
  | some grant =>
    have hnil := Result.pure_eq_ok.mp herrors
    unfold revisionGrantErrors at hnil
    simp only [List.append_eq_nil_iff] at hnil
    cases huse : namedUse s revision.metadata with
    | none =>
      rw [huse] at hnil
      exact absurd hnil.2 (List.cons_ne_nil _ _)
    | some use =>
      rw [huse] at hnil
      simp only [List.append_eq_nil_iff, errorIf_eq_nil, Bool.or_eq_false_iff, bne_eq_false_iff_eq,
        Bool.not_eq_false'] at hnil
      obtain ⟨-, ⟨⟨⟨⟨⟨⟨-, hcapability⟩, hactor⟩, hresource⟩, -⟩, -⟩, -⟩, -⟩ := hnil
      exact ⟨use, rfl, hcapability, Json.pyEq_str.mp hactor, Json.pyEq_str.mp hresource⟩

theorem namedUse_eq_some (h : s.WellIdentified) {metadata : Fields} {use : AuthorizationUse}
    (hnamed : namedUse s metadata = some use) :
    use ∈ s.uses ∧ metadata.get "authorization_use_ref" = .str use.id := by
  unfold namedUse at hnamed
  split at hnamed
  · rename_i ref href
    obtain ⟨hmem, hid⟩ := (State.find_eq_some (h.bucket_nodup .authorizationUse)).mp hnamed
    exact ⟨hmem, by rw [href, ← hid]; rfl⟩
  · exact absurd hnamed (Option.some_ne_none use).symm

/-- An applied Revision of a valid state names a stored use that authorized it. -/
theorem appliedUnder_of_applied (h : GraphOk now s) {revision : BaseRecord}
    (hmem : revision ∈ s.records) (htype : revision.recordType = .revision)
    (hstatus : revision.lifecycleStatus ∈ appliedStatuses) :
    ∃ use ∈ s.uses, ∃ grant ∈ s.authorizations, AppliedUnder revision use grant := by
  obtain ⟨use, hnamed, hcapability, hactor, hresource⟩ := use_of_applied h hmem htype hstatus
  obtain ⟨huse, hname⟩ := namedUse_eq_some h.identified hnamed
  obtain ⟨grant, hgrant, hid, hvalid, hauthorized⟩ := grant_of_use h huse
  have hsubject : revision.getattr "subject_ref" = .str use.resourceRef := by
    have hshape := use.shape
    simp only [Bool.and_eq_true] at hshape
    rw [BaseRecord.getattr, Fields.get]
    rw [Fields.getOr] at hresource
    cases hget : Fields.get? "subject_ref" revision.fields with
    | none =>
      rw [hget, Option.getD_none] at hresource
      rw [← Json.str.inj hresource] at hshape
      exact absurd hshape.1.2 (by decide)
    | some subject =>
      rw [hget, Option.getD_some] at hresource
      rw [Option.getD_some, hresource]
  exact ⟨use, huse, grant, hgrant,
    ⟨hname, hid, hcapability, hactor, hsubject, hvalid, hauthorized⟩⟩

/-- Every supersedes relation of a valid state is justified or a reopening. -/
theorem justified_of_valid (h : Valid now s) {relation : RecordRelation}
    (hrelation : relation ∈ s.supersedes) : reopening relation = true ∨ Justified s relation := by
  have hok := valid_iff.mp h
  rcases revision_of_supersedes hok hrelation with hreopen | hrevision
  · exact .inl hreopen
  · obtain ⟨revision, hmem, htype, hstatus, hnew, hold⟩ := hrevision
    exact .inr ⟨revision, hmem, htype, hstatus, hnew, hold,
      appliedUnder_of_applied hok hmem htype hstatus⟩

namespace MemoryStore

variable {st st' : MemoryStore}

/-! ## Calls -/

/-- A save of any kind, or one of the helpers on Revisions. -/
inductive RevisionCall where
  | save (k : Kind) (value : Model k)
  | applyRevision (a : ApplyRevision)
  | supersede (oldId newId : String) (revision : Option RevisionArgument)
      (relationId createdBy : String)
  | createSupersedesRelation (newId oldId : String) (revisionRef : Option String)
      (relationId createdBy : String)

/-- The store that a call leaves, at its instant. -/
def afterCall (st : MemoryStore) : Time × RevisionCall → MemoryStore
  | (now, .save k value) => (st.saveModel now k value).toOption.getD st
  | (now, .applyRevision a) => (st.applyRevision now a).1
  | (now, .supersede oldId newId revision relationId createdBy) =>
    ((st.supersedeRecord now oldId newId revision relationId createdBy).toOption.map Prod.fst).getD st
  | (_, .createSupersedesRelation _ _ _ _ _) => st

/-- The reference resolves to a record that is no Revision. -/
def holdsFact (st : MemoryStore) (ref : String) : Prop :=
  ∃ record, st.getRecord ref = some record ∧ record.recordType ≠ .revision

/-- No reopening joins two records other than Revisions. -/
def ReopeningsApart (st : MemoryStore) : Prop :=
  ∀ id relation, st.get .relation id = some relation → reopening relation = true →
    st.holdsFact relation.subjectRef → ¬ st.holdsFact relation.objectRef

/-- Putting an object in place whose save is accepted, or the proposal that `apply_revision`
materializes, joins no two records by a reopening. -/
def KeepsApart (st : MemoryStore) : Time × RevisionCall → Prop
  | (now, .save k value) =>
    (st.saveModel now k value).isOk = true → ReopeningsApart (st.save k value)
  | (now, .applyRevision a) => st.getRecord a.revision.id = none →
      a.revision.lifecycleStatus = .proposed →
      (st.saveRecord now a.revision.toBaseRecord).isOk = true →
      ReopeningsApart (st.save .record a.revision.toBaseRecord)
  | _ => True

/-- Every stored supersedes relation between records other than Revisions is justified. -/
def SupersessionsJustified (st : MemoryStore) : Prop :=
  ∀ id relation, st.get .relation id = some relation → relation.relationType = .supersedes →
    st.holdsFact relation.subjectRef → st.holdsFact relation.objectRef →
    Justified st.exportState relation

/-! ## Reopenings -/

theorem ReopeningsApart.mono (h : ReopeningsApart st)
    (hrelation : ∀ id, st'.get .relation id = st.get .relation id)
    (hfact : ∀ ref, st'.holdsFact ref → st.holdsFact ref) : ReopeningsApart st' := by
  intro id relation hget hreopen hsubject hobject
  rw [hrelation] at hget
  exact h id relation hget hreopen (hfact _ hsubject) (hfact _ hobject)

/-- Objects of another kind do not matter. -/
theorem ReopeningsApart.save_other (h : ReopeningsApart st) (k : Kind) (v : Model k)
    (hrecord : k ≠ .record) (hrelation : k ≠ .relation) : ReopeningsApart (st.save k v) := by
  refine h.mono (fun id => get_put_of_ne st hrelation.symm _ id v) ?_
  rintro ref ⟨record, hget, htype⟩
  rw [getRecord, save, get_put_of_ne st hrecord.symm] at hget
  exact ⟨record, hget, htype⟩

/-- Nor does a new version of a stored record of the same type. -/
theorem ReopeningsApart.save_version (h : ReopeningsApart st) {record stored : BaseRecord}
    (hget : st.getRecord record.id = some stored) (htype : record.recordType = stored.recordType) :
    ReopeningsApart (st.save .record record) := by
  have hne : Kind.relation ≠ .record := by decide
  refine h.mono (fun id => get_put_of_ne st hne _ id record) ?_
  rintro ref ⟨found, hfound, hfact⟩
  rw [getRecord, save, get_put_self] at hfound
  split at hfound
  · rename_i hid
    obtain rfl := Option.some.inj hfound
    exact ⟨stored, by rw [hid]; exact hget, by rw [← htype]; exact hfact⟩
  · exact ⟨found, hfound, hfact⟩

theorem ReopeningsApart.save_relation (h : ReopeningsApart st) {relation : RecordRelation}
    (hreopen : reopening relation = false) : ReopeningsApart (st.save .relation relation) := by
  have hfact : ∀ ref, (st.save .relation relation).holdsFact ref → st.holdsFact ref := by
    rintro ref ⟨record, hget, htype⟩
    rw [getRecord, save, get_put_of_ne st (by decide)] at hget
    exact ⟨record, hget, htype⟩
  intro id found hget hfound hsubject hobject
  rw [save, get_put_self] at hget
  split at hget
  · obtain rfl := Option.some.inj hget
    exact absurd (hfound.symm.trans hreopen) (by decide)
  · exact h id found hget hfound (hfact _ hsubject) (hfact _ hobject)

/-- The relation of `supersede` cites its Revision, or nothing at all. -/
theorem reopening_supersedesRelation (now : Time) (oldId newId : String)
    (revision : Option RevisionArgument) (relationId createdBy : String) :
    reopening (supersedesRelation now oldId newId revision relationId createdBy) = false := by
  have hnone : (supersedesRelation now oldId newId revision relationId createdBy).metadata.get
      "reopen_assessment_id" = .null := by
    unfold supersedesRelation
    dsimp only
    split <;> rfl
  simp [reopening, reopenHandoff, hnone]

/-! ## What an accepted save leaves -/

/-- The invariant of a run. -/
structure Superseding (st : MemoryStore) : Prop where
  keyed : Keyed st
  justified : ∀ relation ∈ st.exportState.supersedes,
    reopening relation = true ∨ Justified st.exportState relation
  apart : ReopeningsApart st

theorem superseding_empty : Superseding empty where
  keyed := keyed_empty
  justified := fun _ h => absurd h List.not_mem_nil
  apart := fun id relation h => absurd h (by simp [get, empty])

/-- The gate of a save established the justifications anew. -/
theorem Superseding.save {now : Time} (h : Superseding st) {k : Kind} {v : Model k}
    (hvalid : Valid now (st.exportState.merge k [v])) (hapart : ReopeningsApart (st.save k v)) :
    Superseding (st.save k v) where
  keyed := h.keyed.save k v
  justified := by
    intro relation hmem
    have hre := rearranged_save h.keyed k v
    have hmem' : relation ∈ (st.exportState.merge k [v]).supersedes :=
      ((hre .relation).filter _).mem_iff.mpr hmem
    exact (justified_of_valid hvalid hmem').imp id (fun hjust => hjust.rearranged hre)
  apart := hapart

theorem Superseding.saveEvent (h : Superseding st) {e : Event}
    (hsave : st.saveEvent e = .ok st') : Superseding st' := by
  rcases appendEventAs_eq_ok hsave with ⟨-, -, -, rfl⟩ | ⟨-, rfl⟩
  · exact h
  · refine ⟨h.keyed.save .event e, ?_, h.apart.save_other .event e (by decide) (by decide)⟩
    have hsame {k : Kind} (hk : k ≠ .event) : (st.save .event e).exportState k = st.exportState k :=
      exportState_put_of_ne st hk _ e
    intro relation hmem
    rw [State.supersedes, State.relations, hsame (by decide)] at hmem
    refine (h.justified relation hmem).imp id (fun hjust => ?_)
    simpa only [Justified, State.records, State.uses, State.authorizations,
      hsame (show Kind.record ≠ .event by decide),
      hsame (show Kind.authorizationUse ≠ .event by decide),
      hsame (show Kind.authorization ≠ .event by decide)] using hjust

theorem Superseding.saveRecord {now : Time} (h : Superseding st) {record : BaseRecord}
    (hsave : st.saveRecord now record = .ok st') (hapart : ReopeningsApart (st.save .record record)) :
    Superseding st' := by
  obtain ⟨-, hvalid, rfl⟩ := saveRecord_eq_ok.mp hsave
  exact h.save hvalid hapart

theorem Superseding.applyRevision {now : Time} (h : Superseding st) {a : ApplyRevision}
    (hC : KeepsApart st (now, .applyRevision a)) : Superseding (st.applyRevision now a).1 := by
  rcases applyRevision_store now st a with heq | ⟨st₁, hmaterialize, hrest⟩
  · rw [heq]
    exact h
  · have h₁ : Superseding st₁ := by
      rcases materialize_eq_ok hmaterialize with rfl | ⟨hnone, hproposed, hsave⟩
      · exact h
      · exact h.saveRecord hsave (hC hnone hproposed (by rw [hsave]; rfl))
    rcases hrest with heq | ⟨stored, use, metadata, st₂, hstored, huse, hrest⟩
    · rw [heq]
      exact h₁
    · have h₂ : Superseding st₂ := by
        obtain ⟨-, -, hvalid, rfl⟩ := saveAuthorizationUse_eq_ok.mp huse
        exact h₁.save hvalid (h₁.apart.save_other .authorizationUse use (by decide) (by decide))
      rcases hrest with heq | ⟨st₃, applied, hsave, heq⟩
      · rw [heq]
        exact h₂
      · rw [heq]
        obtain ⟨happlied, hsave⟩ := saveApplied_eq_ok.mp hsave
        obtain ⟨hid, htype, -⟩ := appliedRevision_eq_ok happlied
        have hget : st₂.getRecord applied.id = some stored := by
          obtain ⟨-, -, -, rfl⟩ := saveAuthorizationUse_eq_ok.mp huse
          obtain ⟨hget, -⟩ := canonicalRevision_eq_ok.mp hstored
          have hkey : stored.id = a.revision.id := h₁.keyed .record _ stored hget
          rw [getRecord, MemoryStore.save, get_put_of_ne st₁ (by decide), hid, hkey]
          exact hget
        exact h₂.saveRecord hsave (h₂.apart.save_version hget htype)

theorem Superseding.supersedeRecord {now : Time} (h : Superseding st) {oldId newId : String}
    {revision : Option RevisionArgument} {relationId createdBy : String} {relation : RecordRelation}
    (hcall : st.supersedeRecord now oldId newId revision relationId createdBy =
      .ok (st', relation)) : Superseding st' := by
  obtain ⟨old, new, superseded, st₁, st₂, hold, hnew, hversion, hsave, hpromote, rfl, hrelation⟩ :=
    supersedeRecord_eq_ok hcall
  obtain ⟨hid, htype⟩ := supersededVersion_eq_ok hversion
  have hkey : old.id = oldId := h.keyed .record _ old hold
  have h₁ : Superseding st₁ :=
    h.saveRecord hsave (h.apart.save_version (by rw [hid, hkey]; exact hold) htype)
  have h₂ : Superseding st₂ := by
    rcases promoteDraft_eq_ok hpromote with rfl | ⟨current, hid', htype', hsave'⟩
    · exact h₁
    · have hnew' : ∃ found, st₁.getRecord newId = some found ∧ found.recordType = new.recordType := by
        obtain ⟨-, -, rfl⟩ := saveRecord_eq_ok.mp hsave
        rw [getRecord, MemoryStore.save, get_put_self]
        split
        · rename_i hsame
          have hids : newId = oldId := hsame.trans (hid.trans hkey)
          rw [hids, hold, Option.some.injEq] at hnew
          exact ⟨superseded, rfl, by rw [htype, hnew]⟩
        · exact ⟨new, hnew, rfl⟩
      obtain ⟨found, hfound, hsame⟩ := hnew'
      have hkey' : new.id = newId := h.keyed .record _ new hnew
      have hget : st₁.getRecord current.id = some found := by
        rw [hid', hkey']
        exact hfound
      exact h₁.saveRecord hsave' (h₁.apart.save_version hget (htype'.trans hsame.symm))
  obtain ⟨-, -, hvalid, rfl⟩ := saveRelation_eq_ok.mp hrelation
  exact h₂.save hvalid (h₂.apart.save_relation (reopening_supersedesRelation _ _ _ _ _ _))

theorem Superseding.afterCall (h : Superseding st) {call : Time × RevisionCall}
    (hC : KeepsApart st call) : Superseding (st.afterCall call) := by
  obtain ⟨now, call⟩ := call
  cases call with
  | save k v =>
    rw [MemoryStore.afterCall]
    cases hsave : st.saveModel now k v with
    | error e => exact h
    | ok st' =>
      by_cases hk : k = .event
      · subst hk
        exact h.saveEvent hsave
      · obtain ⟨-, hvalid, rfl⟩ := saveModel_eq_ok hk hsave
        exact h.save hvalid (hC (by rw [hsave]; rfl))
  | applyRevision a => exact h.applyRevision hC
  | supersede oldId newId revision relationId createdBy =>
    rw [MemoryStore.afterCall]
    cases hcall : st.supersedeRecord now oldId newId revision relationId createdBy with
    | error e => exact h
    | ok result => exact h.supersedeRecord hcall
  | createSupersedesRelation newId oldId revisionRef relationId createdBy => exact h

theorem Superseding.supersessionsJustified (h : Superseding st) : SupersessionsJustified st := by
  intro id relation hget htype hsubject hobject
  have hmem : relation ∈ st.exportState.supersedes :=
    List.mem_filter.mpr ⟨Dict.mem_values.mpr ⟨id, hget⟩, by simpa using htype⟩
  rcases h.justified relation hmem with hreopen | hjustified
  · exact absurd hobject (h.apart id relation hget hreopen hsubject)
  · exact hjustified

/-- In every run in which no reopening comes to join two records, every supersedes
relation between stored records other than Revisions is justified. -/
theorem supersession_needs_authority (calls : List (Time × RevisionCall))
    (h : Along afterCall KeepsApart empty calls) :
    SupersessionsJustified (run afterCall empty calls) := by
  have hinv : Superseding (run afterCall empty calls) :=
    run_invariant (fun _ _ hs hC => hs.afterCall hC) superseding_empty h
  exact hinv.supersessionsJustified

/-! ## A supersession with its authority, and one without -/

def currentGoal (id : String) : BaseRecord :=
  { id := id, recordType := .goal, createdAt := 0, lifecycleStatus := .current }

def goalRevision : RevisionRecord :=
  { cls := .revisionRecord, id := "revision_1", recordType := .revision, createdAt := 0,
    lifecycleStatus := .proposed,
    fields := [("subject_ref", .str "goal_1"), ("revises_ref", .str "goal_1"),
      ("produces_ref", .str "goal_2"), ("supersedes_ref", .str "goal_1")] }

def goalGrant (subjects : List String) : AuthorizationGrant :=
  { id := "authz_1", createdAt := 0, principalRef := "owner", granteeRef := "agent",
    allowedCapabilities := ["revision.apply"], validFrom := 0, subjectVersionRefs := subjects }

def applyGoalRevision : ApplyRevision :=
  { revision := goalRevision, authorizationRef := some "authz_1", actorRef := some "agent",
    useId := "authuse_1" }

def supersedingCalls : List (Time × RevisionCall) :=
  [(0, .save .record (currentGoal "goal_1")), (0, .save .record (currentGoal "goal_2")),
   (0, .save .authorization (goalGrant ["revision_1"])), (0, .applyRevision applyGoalRevision),
   (1, .supersede "goal_1" "goal_2" (some (.ref "revision_1")) "relation_1" "system")]

theorem reopeningsApart_of_relations
    (h : ∀ relation ∈ st.exportState.relations, reopening relation = false) :
    ReopeningsApart st := by
  intro id relation hget hreopen
  have hfalse := h relation (Dict.mem_values.mpr ⟨id, hget⟩)
  exact absurd (hreopen.symm.trans hfalse) (by decide)

theorem supersession_needs_authority_goals :
    SupersessionsJustified (run afterCall empty supersedingCalls) := by
  refine supersession_needs_authority _
    ⟨fun _ => ?_, fun _ => ?_, fun _ => ?_, fun _ _ _ => ?_, trivial, trivial⟩ <;>
    exact reopeningsApart_of_relations (by decide)

/-- A supersedes relation in the shape of a reopening. -/
def reopenRelation : RecordRelation :=
  { id := "relation_1", relationType := .supersedes, subjectRef := "work_2", objectRef := "work_1",
    createdAt := 0, metadata := [("reopen_assessment_id", .str "reopen_1")] }

def reopenedGoals : List (Time × RevisionCall) :=
  [(0, .save .record (currentGoal "work_1")), (0, .save .record (currentGoal "work_2")),
   (0, .save .relation reopenRelation)]

/-- Two goals whose identities begin with `work_` are superseded without any Revision. -/
theorem goal_superseded_as_work :
    ¬ ∀ calls, SupersessionsJustified (run afterCall empty calls) := by
  intro h
  have hrelation := h reopenedGoals "relation_1" reopenRelation (by rfl) rfl
    ⟨currentGoal "work_2", by rfl, by decide⟩ ⟨currentGoal "work_1", by rfl, by decide⟩
  obtain ⟨revision, hmem, htype, -⟩ := hrelation
  have hnone : ∀ record ∈ (run afterCall empty reopenedGoals).exportState.records,
      record.recordType ≠ .revision := by decide
  exact hnone revision hmem htype

end MemoryStore
end PortableRuntime
