import PortableRuntime.Protocol.Lookup

/-!
# What a valid state satisfies

`GraphOk` lists the rules of the validator one by one, each for every object it reads.
A state is valid when it satisfies them all (`valid_iff`).
-/

namespace PortableRuntime

theorem collect_eq_nil {α : Type} {check : α → Result (List String)} {l : List α} :
    collect check l = .ok [] ↔ ∀ a ∈ l, check a = .ok [] := by
  induction l with
  | nil => simp [collect]
  | cons a rest ih =>
    rw [collect, Result.bind_eq_ok, List.forall_mem_cons, ← ih]
    simp only [Result.bind_eq_ok, Result.pure_eq_ok, List.append_eq_nil_iff]
    constructor
    · rintro ⟨e, he, e', he', rfl, rfl⟩
      exact ⟨he, he'⟩
    · rintro ⟨he, he'⟩
      exact ⟨[], he, [], he', rfl, rfl⟩

structure GraphOk (now : Time) (s : State) : Prop where
  identified : s.WellIdentified
  records : ∀ r ∈ s.records, recordErrors r = []
  relations : ∀ r ∈ s.relations, relationErrors s r = []
  references : ∀ k, ∀ m ∈ s k, referenceErrors s k m = []
  authorizations : ∀ g ∈ s.authorizations, authorizationErrors s g = []
  uses : ∀ u ∈ s.uses, useErrors s u = []
  promotions : ∀ r ∈ s.records, promotionErrors now s r = .ok []
  projections : ∀ p ∈ s.projections, projectionErrors now s p = .ok []
  revisions : ∀ r ∈ s.records, revisionErrors now s r = .ok []
  supersedes : ∀ r ∈ s.supersedes, supersedesErrors s r = []
  runs : ∀ r ∈ s.runs, runErrors s r = []
  works : ∀ w ∈ s.works, workErrors s w = []
  superseders : supersederErrors s = []
  lineage : lineageErrors s = []

variable {now : Time} {s : State}

theorem State.WellIdentified.parsedRecords_values (h : s.WellIdentified) :
    s.parsedRecords.values = s.records := State.values_byId (h.bucket_nodup .record)

theorem State.WellIdentified.runsById_values (h : s.WellIdentified) :
    s.runsById.values = s.runs := State.values_byId (h.bucket_nodup .run)

theorem State.WellIdentified.worksById_values (h : s.WellIdentified) :
    s.worksById.values = s.works := State.values_byId (h.bucket_nodup .work)

theorem terminalErrors_eq_nil (h : s.WellIdentified) :
    terminalErrors s = [] ↔ (∀ r ∈ s.runs, runErrors s r = []) ∧
      ∀ w ∈ s.works, workErrors s w = [] := by
  rw [terminalErrors, List.append_eq_nil_iff, List.flatMap_eq_nil_iff, List.flatMap_eq_nil_iff,
    h.runsById_values, h.worksById_values]

theorem valid_iff : Valid now s ↔ GraphOk now s := by
  simp only [Valid, validateStateGraph, Result.bind_eq_ok, Result.pure_eq_ok,
    List.append_eq_nil_iff, List.flatMap_eq_nil_iff, State.identityErrors_eq_nil]
  constructor
  · rintro ⟨promotions, hprom, projections, hproj, revisions, hrev,
      ⟨⟨⟨⟨⟨⟨⟨⟨⟨⟨⟨⟨hid, hrec⟩, hrel⟩, href⟩, hauth⟩, huse⟩, rfl⟩, rfl⟩, rfl⟩, hsup⟩, hterm⟩, hdup⟩,
        hlin⟩⟩
    rw [hid.parsedRecords_values] at hrev
    rw [terminalErrors_eq_nil hid] at hterm
    exact ⟨hid, hrec, hrel, fun k => href k (Kind.mem_all k), hauth, huse, collect_eq_nil.mp hprom,
      collect_eq_nil.mp hproj, collect_eq_nil.mp hrev, hsup, hterm.1, hterm.2, hdup, hlin⟩
  · intro h
    refine ⟨[], collect_eq_nil.mpr h.promotions, [], collect_eq_nil.mpr h.projections, [], ?_,
      ⟨⟨⟨⟨⟨⟨⟨⟨⟨⟨⟨⟨h.identified, h.records⟩, h.relations⟩, fun k _ => h.references k⟩,
        h.authorizations⟩, h.uses⟩, rfl⟩, rfl⟩, rfl⟩, h.supersedes⟩,
        (terminalErrors_eq_nil h.identified).mpr ⟨h.runs, h.works⟩⟩, h.superseders⟩, h.lineage⟩⟩
    rw [h.identified.parsedRecords_values]
    exact collect_eq_nil.mpr h.revisions

/-! ## Promotions -/

theorem allM_eq_true {α : Type} {check : α → Result Bool} {l : List α} :
    allM check l = .ok true ↔ ∀ a ∈ l, check a = .ok true := by
  induction l with
  | nil => simp [allM]
  | cons a rest ih =>
    rw [allM, Result.bind_eq_ok, List.forall_mem_cons, ← ih]
    constructor
    · rintro ⟨b, hb, h⟩
      cases b with
      | true => exact ⟨hb, h⟩
      | false => exact absurd h (by simp [pure, Except.pure])
    · exact fun h => ⟨true, h.1, h.2⟩

theorem exists_of_anyM_eq_true {α : Type} {check : α → Result Bool} {l : List α}
    (h : anyM check l = .ok true) : ∃ a ∈ l, check a = .ok true := by
  induction l with
  | nil => simp [anyM] at h
  | cons a rest ih =>
    rw [anyM, Result.bind_eq_ok] at h
    obtain ⟨b, hb, h⟩ := h
    cases b with
    | true => exact ⟨a, List.mem_cons_self, hb⟩
    | false =>
      obtain ⟨a', ha', h'⟩ := ih h
      exact ⟨a', List.mem_cons_of_mem _ ha', h'⟩

/-- References that all resolve to passing closed verifications, and at least one. -/
def PassingRefs (s : State) (refs : List String) : Prop :=
  refs ≠ [] ∧ ∀ ref ∈ refs, passingRef s.dumps ref = .ok true

/-- The state holds a passing verification of the target: the target's metadata refers to
it, or a verifying relation of the target does. -/
def EffectivelyVerified (target : BaseRecord) (s : State) : Prop :=
  PassingRefs s (metadataRefs target.metadata
      ["verification_refs", "verification_ref", "closed_verification_refs"]) ∨
    ∃ rel ∈ s.relations, verifyingRelation target.id rel = true ∧
      PassingRefs s (metadataRefs rel.metadata
        ["verification_ref", "verification_refs", "result_ref"])

theorem allPassing_eq_true {refs : List String} :
    allPassing s.dumps refs = .ok true ↔ PassingRefs s refs := by
  rw [allPassing, PassingRefs]
  cases refs with
  | nil => simp
  | cons ref rest => simp [allM_eq_true]

theorem effectivelyVerified_of_hasEffectiveVerification {target : BaseRecord}
    (h : hasEffectiveVerification target s = .ok true) : EffectivelyVerified target s := by
  rw [hasEffectiveVerification, Result.bind_eq_ok] at h
  obtain ⟨b, hb, h⟩ := h
  cases b with
  | true => exact .inl (allPassing_eq_true.mp hb)
  | false =>
    obtain ⟨rel, hrel, hpass⟩ := exists_of_anyM_eq_true h
    rw [List.mem_filter] at hrel
    exact .inr ⟨rel, hrel.1, hrel.2, allPassing_eq_true.mp hpass⟩

theorem EffectivelyVerified.rearranged {s' : State} {target : BaseRecord}
    (h : EffectivelyVerified target s) (hre : s.Rearranged s') (hs : s.WellIdentified) :
    EffectivelyVerified target s' := by
  have hrefs : ∀ refs, PassingRefs s refs → PassingRefs s' refs := by
    intro refs hpass
    refine ⟨hpass.1, fun ref href => ?_⟩
    have := hpass.2 ref href
    rwa [passingRef, ← hre.get?_dumps hs ref] at this
  rcases h with h | ⟨rel, hrel, hver, hpass⟩
  · exact .inl (hrefs _ h)
  · exact .inr ⟨rel, (hre .relation).mem_iff.mp hrel, hver, hrefs _ hpass⟩

theorem grantHolds_rearranged {s' : State} (hre : s.Rearranged s') (hs : s.WellIdentified)
    (grant : AuthorizationGrant) (request : CanonicalAuthorizationRequest) (useRef : Json) :
    grantHolds now s' grant request useRef = grantHolds now s grant request useRef := by
  cases useRef with
  | str ref => simp only [grantHolds, State.uses, hre.find hs .authorizationUse ref]
  | _ => rfl

theorem hasStructuralAuthorizationProof_rearranged {s' : State} (hre : s.Rearranged s')
    (hs : s.WellIdentified) (target : BaseRecord) :
    hasStructuralAuthorizationProof now target s' =
      hasStructuralAuthorizationProof now target s := by
  have hproves : grantProves now target s' = grantProves now target s := by
    funext grant
    simp only [grantProves, grantHolds_rearranged hre hs]
  rw [hasStructuralAuthorizationProof, hasStructuralAuthorizationProof, hproves]
  exact (hre .authorization).symm.any_eq

/-- What the gate asks of an official Policy or ChangeObject. -/
structure PromotionOk (now : Time) (s : State) (record : BaseRecord) : Prop where
  verified : hasEffectiveVerification record s = .ok true
  shape : governanceRefErrors record = []
  granted : hasStructuralAuthorizationProof now record s = true

/-- A record is under the gate when it is official, of a promoted type, and names an
eligible predecessor. -/
def Gated (record : BaseRecord) : Prop :=
  record.lifecycleStatus = .official ∧ record.recordType ∈ promotedTypes ∧
    (record.metadata.get "previous_lifecycle_status").inSet ["candidate", "official"] = .ok true

theorem promotionErrors_of_gated {record : BaseRecord} (h : Gated record) :
    promotionErrors now s record = .ok [] ↔ PromotionOk now s record := by
  obtain ⟨hofficial, htype, hprevious⟩ := h
  rw [promotionErrors, if_neg (by simp [hofficial, htype]), hprevious]
  simp only [Result.bind_eq_ok, Except.ok.injEq, exists_eq_left', Bool.not_true,
    Bool.false_eq_true, if_false, Result.pure_eq_ok, List.append_eq_nil_iff, errorIf_eq_nil,
    Bool.not_eq_false']
  constructor
  · rintro ⟨verified, hverified, ⟨hshape, rfl⟩, hgranted⟩
    exact ⟨hverified, hshape, hgranted⟩
  · intro hok
    exact ⟨true, hok.verified, ⟨hok.shape, rfl⟩, hok.granted⟩

/-- Outside the gate the errors depend on nothing but the record. -/
theorem promotionErrors_of_not_gated {record : BaseRecord} (h : ¬ Gated record) (now' : Time)
    (s' : State) : promotionErrors now' s' record = promotionErrors now s record := by
  rw [promotionErrors, promotionErrors]
  by_cases hpromoted : record.lifecycleStatus ≠ .official ∨ !promotedTypes.contains record.recordType
  · rw [if_pos hpromoted, if_pos hpromoted]
  · rw [if_neg hpromoted, if_neg hpromoted]
    obtain ⟨hofficial, htype⟩ := not_or.mp hpromoted
    cases hprevious : (record.metadata.get "previous_lifecycle_status").inSet
        ["candidate", "official"] with
    | error e => rfl
    | ok eligible =>
      cases eligible with
      | false => rfl
      | true => exact absurd ⟨not_not.mp hofficial, by simpa using htype, hprevious⟩ h

end PortableRuntime
