import PortableRuntime.Protocol.TimeStability
import PortableRuntime.Stores.Keyed

/-!
# The promotion gate

The validator asks for the proofs of a promotion when the record's own metadata names
`candidate` or `official` as its predecessor status.  When a record that is stored as a
candidate is made official under such metadata, the state that the call leaves holds the
proofs.
-/

namespace PortableRuntime
namespace MemoryStore

variable {digest : Json → String} {now : Time} {st st' : MemoryStore}

/-- The records that a save or an import brings. -/
def broughtRecords : Op → List BaseRecord
  | .save .record v => [v]
  | .importState state => state.records
  | _ => []

def namesEligiblePredecessor (record : BaseRecord) : Prop :=
  record.metadata.get "previous_lifecycle_status" = .str "candidate" ∨
    record.metadata.get "previous_lifecycle_status" = .str "official"

/-- A record that is brought in as official over a stored candidate names an eligible
predecessor status. -/
def NamesCandidate (st : MemoryStore) (o : Op) : Prop :=
  ∀ v ∈ broughtRecords o, ∀ old, st.getRecord v.id = some old →
    old.lifecycleStatus = .candidate → v.lifecycleStatus = .official →
    namesEligiblePredecessor v

/-- The state holds both proofs of the promotion of a record. -/
def PromotionProved (now : Time) (record : BaseRecord) (s : State) : Prop :=
  EffectivelyVerified record s ∧ hasStructuralAuthorizationProof now record s = true

theorem PromotionProved.rearranged {record : BaseRecord} {s s' : State}
    (h : PromotionProved now record s) (hre : s.Rearranged s') (hs : s.WellIdentified) :
    PromotionProved now record s' :=
  ⟨h.1.rearranged hre hs, by rw [hasStructuralAuthorizationProof_rearranged hre hs]; exact h.2⟩

/-- A valid state proves the promotion of an official record that names an eligible
predecessor. -/
theorem promotionProved_of_valid {s : State} (h : Valid now s) {record : BaseRecord}
    (hmem : record ∈ s.records) (hofficial : record.lifecycleStatus = .official)
    (htype : record.recordType ∈ promotedTypes) (hnames : namesEligiblePredecessor record) :
    PromotionProved now record s := by
  have hprevious : (record.metadata.get "previous_lifecycle_status").inSet
      ["candidate", "official"] = .ok true := by
    rcases hnames with hname | hname <;> rw [hname] <;> rfl
  have hproofs := (promotionErrors_of_gated ⟨hofficial, htype, hprevious⟩).mp
    ((valid_iff.mp h).promotions record hmem)
  exact ⟨effectivelyVerified_of_hasEffectiveVerification hproofs.verified, hproofs.granted⟩

/-- A record that an accepted save or import changed stands in the state that its gate
validated, and the call leaves that state in another order. -/
theorem exists_validated_state (hk : Keyed st) {o : Op}
    (hcall : st.call digest now o = .ok st') {id : String} {old new : BaseRecord}
    (ho : broughtRecords o ≠ []) (hold : st.getRecord id = some old)
    (hnew : st'.getRecord id = some new) (hne : old ≠ new) :
    ∃ s, Valid now s ∧ new ∈ s.records ∧ s.Rearranged st'.exportState ∧
      ∃ v ∈ broughtRecords o, v.id = id ∧ v.lifecycleStatus = new.lifecycleStatus ∧
        v.metadata = new.metadata := by
  cases o with
  | save k v =>
    cases k with
    | record =>
      obtain ⟨-, hvalid, rfl⟩ := saveRecord_eq_ok.mp hcall
      rw [getRecord, save, get_put_self] at hnew
      by_cases hid : id = v.id
      · rw [show Kind.record.identifier v = v.id from rfl, if_pos hid, Option.some.injEq] at hnew
        subst hnew
        refine ⟨_, hvalid, ?_, rearranged_save hk .record v, v, by simp [broughtRecords],
          hid.symm, rfl, rfl⟩
        simp [State.records, State.merge, mergeBucket]
      · rw [show Kind.record.identifier v = v.id from rfl, if_neg hid] at hnew
        exact absurd (Option.some.inj (hold.symm.trans hnew)) hne
    | _ => exact absurd rfl ho
  | importState state =>
    obtain ⟨-, -, hvalid, -, rfl⟩ := importState_eq_ok.mp hcall
    have hre := rearranged_saveAll hk
      (fun k => nodup_of_importCandidate (valid_iff.mp hvalid).identified k)
    rcases Dict.get?_setAll (d := st.records .record) hnew with ⟨hmem, hid⟩ | ⟨-, hkeep⟩
    · refine ⟨_, hvalid, ?_, hre, ?_⟩
      · exact List.mem_append_right _ hmem
      · have hmem' : new ∈ state.records.map (fun r => { r with cls := .baseRecord }) := by
          simpa [asImported] using hmem
        obtain ⟨v, hv, rfl⟩ := List.mem_map.mp hmem'
        exact ⟨v, hv, hid, rfl, rfl⟩
    · exact absurd (Option.some.inj (hold.symm.trans hkeep)) hne
  | _ => exact absurd rfl ho

/-- In every store that well addressed calls reach, a save or an import that makes an
official record of a stored candidate under metadata that names an eligible predecessor
is accepted only if the state it leaves proves the promotion. -/
theorem promotion_gated (digest : Json → String) (ps : List (Prog (Time × Op)))
    (hps : Prog.FollowsAll (step digest) WellAddressed empty ps) (now : Time) (o : Op)
    (st' : MemoryStore) (hcall : (Prog.execAll (step digest) empty ps).call digest now o = .ok st')
    (ho : broughtRecords o ≠ [])
    (hnamed : NamesCandidate (Prog.execAll (step digest) empty ps) o)
    (id : String) (old new : BaseRecord)
    (hold : (Prog.execAll (step digest) empty ps).getRecord id = some old)
    (hnew : st'.getRecord id = some new) (hcandidate : old.lifecycleStatus = .candidate)
    (hofficial : new.lifecycleStatus = .official) (htype : new.recordType ∈ promotedTypes) :
    PromotionProved now new st'.exportState := by
  have hk : Keyed (Prog.execAll (step digest) empty ps) :=
    Prog.exec_invariant (fun _ _ hk hc => hk.step hc) keyed_empty hps
  have hne : old ≠ new := by
    rintro rfl
    exact absurd (hcandidate.symm.trans hofficial) (by decide)
  obtain ⟨s, hvalid, hmem, hre, v, hv, hvid, hstatus, hmeta⟩ :=
    exists_validated_state hk hcall ho hold hnew hne
  have hnames : namesEligiblePredecessor new := by
    have := hnamed v hv old (by rw [hvid]; exact hold) hcandidate (hstatus.trans hofficial)
    rwa [namesEligiblePredecessor, hmeta] at this
  exact (promotionProved_of_valid hvalid hmem hofficial htype hnames).rearranged hre
    (valid_iff.mp hvalid).identified

/-! ## A promotion with its proofs, and one without -/

def candidateWithProofs : List (Prog (Time × Op)) :=
  [.op (1, .save .record passingEvidence), .op (1, .save .authorization promotionGrant),
   .op (1, .save .record (policyRecord .candidate promotionMetadata))]

def candidateAlone : List (Prog (Time × Op)) :=
  [.op (1, .save .record (policyRecord .candidate []))]

theorem promotion_gated_candidateWithProofs :
    PromotionProved 2 (policyRecord .official promotionMetadata)
      (step (fun _ => "") (Prog.execAll (step (fun _ => "")) empty candidateWithProofs)
        (2, .save .record (policyRecord .official promotionMetadata))).exportState := by
  refine promotion_gated (fun _ => "") candidateWithProofs ⟨trivial, trivial, trivial, trivial⟩ 2
    (.save .record (policyRecord .official promotionMetadata)) _
    (call_eq_ok_step (o := (2, _)) (by decide)) (by simp [broughtRecords]) ?_ "policy_1"
    (policyRecord .candidate promotionMetadata) _ (by rfl) (by rfl) rfl rfl (by decide)
  intro v hv _ _ _ _
  obtain rfl := List.mem_singleton.mp hv
  exact .inl rfl

/-- A candidate becomes official without any proof when its metadata is silent. -/
theorem candidateAlone_promoted :
    ¬ ∀ (digest : Json → String) (ps : List (Prog (Time × Op))) (now : Time) (o : Op)
      (st' : MemoryStore) (id : String) (old new : BaseRecord),
      (Prog.execAll (step digest) empty ps).call digest now o = .ok st' →
      broughtRecords o ≠ [] → (Prog.execAll (step digest) empty ps).getRecord id = some old →
      st'.getRecord id = some new → old.lifecycleStatus = .candidate →
      new.lifecycleStatus = .official → new.recordType ∈ promotedTypes →
      PromotionProved now new st'.exportState := by
  intro h
  have hproved := h (fun _ => "") candidateAlone 2 (.save .record (policyRecord .official [])) _
    "policy_1" (policyRecord .candidate []) (policyRecord .official [])
    (call_eq_ok_step (o := (2, _)) (by decide)) (by simp [broughtRecords]) (by rfl) (by rfl)
    rfl rfl (by decide)
  exact absurd hproved.2 (by decide)

end MemoryStore
end PortableRuntime
