import PortableRuntime.Governance.Projection
import PortableRuntime.Protocol.State
import PortableRuntime.Python.JsonRoundTrip

/-!
# Anchors of a basis

A decision rests on objects of the canonical state graph.  Its anchors are digests of their texts,
captured when it is made and looked up again, in the store of that time, when it is committed.
-/

namespace PortableRuntime
namespace Governance

/-- `_canonical_payload_anchor`, of the digest of a text. -/
def canonicalPayloadAnchor (digest : String → String) (payload : Fields) : String :=
  "sha256:" ++ digest (Json.obj payload).canonicalJson

namespace CanonicalFreshnessAdapter

/-- The objects of an exported state. -/
def exported (s : State) : List Fields := Kind.all.flatMap (fun k => (s k).map k.dump)

/-- Those of an id, in any bucket. -/
def found (s : State) (basisRef : String) : List Fields :=
  (exported s).filter (fun value => (value.getOr "id" (.str "")).pyStr = basisRef)

/-- The anchor of the only object of an id. -/
def lookup (digest : String → String) (s : State) : FreshnessAnchorLookup := fun basisRef =>
  match found s basisRef with
  | [payload] => some (canonicalPayloadAnchor digest payload)
  | _ => none

def capture (digest : String → String) (s : State) : List String →
    Option (List (String × String))
  | [] => some []
  | basisRef :: rest =>
    match lookup digest s basisRef with
    | none => none
    | some anchor => (capture digest s rest).map ((basisRef, anchor) :: ·)

/-- What an exported state holds is JSON. -/
def Exportable (s : State) : Prop := ∀ payload ∈ exported s, (Json.obj payload).Documented

/-- An id names one object in each of two states, with the same content. -/
def SameBasis (s s' : State) (basisRef : String) : Prop :=
  ∃ payload payload', found s basisRef = [payload] ∧ found s' basisRef = [payload'] ∧
    (Json.obj payload).textual.canon = (Json.obj payload').textual.canon

variable {digest : String → String} {s s' : State}

theorem lookup_eq_some {basisRef anchor : String} :
    lookup digest s basisRef = some anchor ↔
      ∃ payload, found s basisRef = [payload] ∧ canonicalPayloadAnchor digest payload = anchor := by
  unfold lookup
  constructor
  · intro h
    split at h
    · rename_i payload hfound
      exact ⟨payload, hfound, Option.some.inj h⟩
    · cases h
  · rintro ⟨payload, hfound, hanchor⟩
    rw [hfound]
    exact congrArg some hanchor

theorem capture_eq_some {refs : List String} {anchors : List (String × String)} :
    capture digest s refs = some anchors ↔
      List.Forall₂ (fun basisRef basis => basisRef = basis.1 ∧
        lookup digest s basis.1 = some basis.2) refs anchors := by
  induction refs generalizing anchors with
  | nil => simp [capture, eq_comm]
  | cons basisRef rest ih =>
    rw [capture, List.forall₂_cons_left_iff]
    constructor
    · intro h
      cases hlookup : lookup digest s basisRef with
      | none =>
        rw [hlookup] at h
        cases h
      | some anchor =>
        rw [hlookup] at h
        obtain ⟨later, hrest, rfl⟩ := Option.map_eq_some_iff.mp h
        exact ⟨(basisRef, anchor), later, ⟨rfl, hlookup⟩, ih.mp hrest, rfl⟩
    · rintro ⟨⟨basisRef', anchor⟩, later, ⟨hname, hlookup⟩, hrest, rfl⟩
      obtain rfl : basisRef = basisRef' := hname
      rw [hlookup]
      exact Option.map_eq_some_iff.mpr ⟨later, ih.mpr hrest, rfl⟩

/-- A captured anchor is looked up again exactly where the id names the same content. -/
theorem lookup_eq_iff (hdigest : Function.Injective digest) (hs : Exportable s)
    (hs' : Exportable s') {basisRef anchor : String} (h : lookup digest s basisRef = some anchor) :
    lookup digest s' basisRef = some anchor ↔ SameBasis s s' basisRef := by
  obtain ⟨payload, hfound, hanchor⟩ := lookup_eq_some.mp h
  have hcontent : ∀ payload', found s' basisRef = [payload'] →
      (canonicalPayloadAnchor digest payload' = anchor ↔
        (Json.obj payload).textual.canon = (Json.obj payload').textual.canon) := by
    intro payload' hfound'
    have hpayload : payload ∈ exported s :=
      (List.mem_filter.mp (show payload ∈ found s basisRef by rw [hfound]; simp)).1
    have hpayload' : payload' ∈ exported s' :=
      (List.mem_filter.mp (show payload' ∈ found s' basisRef by rw [hfound']; simp)).1
    have htext : ∀ j : Json, j.textual.canonicalJson = j.canonicalJson :=
      Json.dumps_textual Json.canonicalStyle
    rw [← Json.canonicalJson_inj (hs payload hpayload) (hs' payload' hpayload'), ← hanchor,
      htext, htext, canonicalPayloadAnchor, canonicalPayloadAnchor]
    constructor
    · intro hsame
      exact (hdigest ((String.append_right_inj "sha256:").mp hsame)).symm
    · intro hsame
      rw [hsame]
  rw [lookup_eq_some]
  constructor
  · rintro ⟨payload', hfound', hanchor'⟩
    exact ⟨payload, payload', hfound, hfound', (hcontent payload' hfound').mp hanchor'⟩
  · rintro ⟨first, payload', hfirst, hfound', hsame⟩
    obtain rfl : first = payload := by simpa using hfirst.symm.trans hfound
    exact ⟨payload', hfound', (hcontent payload' hfound').mpr hsame⟩

theorem relevantBasisUnchanged_iff (hdigest : Function.Injective digest) (hs : Exportable s)
    (hs' : Exportable s') {decision : GovernanceDecision} {refs : List String}
    (h : capture digest s refs = some decision.basisAnchors) :
    relevantBasisUnchanged decision (lookup digest s') = true ↔
      ∀ basisRef ∈ refs, SameBasis s s' basisRef := by
  have hcaptured := capture_eq_some.mp h
  rw [relevantBasisUnchanged, List.all_eq_true]
  simp only [beq_iff_eq]
  clear h
  generalize decision.basisAnchors = anchors at hcaptured
  induction hcaptured with
  | nil => simp
  | cons hbasis _ ih =>
    rw [List.forall_mem_cons, List.forall_mem_cons, hbasis.1]
    exact and_congr (lookup_eq_iff hdigest hs hs' hbasis.2) ih

end CanonicalFreshnessAdapter

open CanonicalFreshnessAdapter in
/-- A commit that looks its anchors up in the store of its time is the commit without freshness,
where every object that the decision rested on is still the only one of its id and has the same
content; and it is refused everywhere else. -/
theorem commit_iff_same_basis (digest : String → String) (hdigest : Function.Injective digest)
    (s s' : State) (hs : Exportable s) (hs' : Exportable s') (g : GovernanceStore)
    (receipt : ApplicationReceipt) (decision : GovernanceDecision)
    (hdecision : g.decisions.get? receipt.application.decisionRef = some decision)
    (refs : List String) (hcapture : capture digest s refs = some decision.basisAnchors)
    (g' : GovernanceStore) :
    (∀ schemeId nextState,
      g.commitStateApplication schemeId nextState receipt (some (lookup digest s')) = .ok g' ↔
        (∀ basisRef ∈ refs, SameBasis s s' basisRef) ∧
          g.commitStateApplication schemeId nextState receipt none = .ok g') ∧
    ∀ obligationId,
      g.commitReviewDischarge obligationId receipt (some (lookup digest s')) = .ok g' ↔
        (∀ basisRef ∈ refs, SameBasis s s' basisRef) ∧
          g.commitReviewDischarge obligationId receipt none = .ok g' := by
  have hbasis := relevantBasisUnchanged_iff hdigest hs hs' hcapture
  constructor
  · intro schemeId nextState
    rw [GovernanceStore.commitStateApplication_eq_ok, GovernanceStore.commitStateApplication_eq_ok]
    constructor
    · rintro ⟨⟨current, found, h⟩, htakes, hg'⟩
      obtain rfl : found = decision := Option.some.inj (h.decided.symm.trans hdecision)
      exact ⟨hbasis.mp h.basis, ⟨current, found, { h with basis := rfl }⟩, htakes, hg'⟩
    · rintro ⟨hsame, ⟨current, found, h⟩, htakes, hg'⟩
      obtain rfl : found = decision := Option.some.inj (h.decided.symm.trans hdecision)
      exact ⟨⟨current, found, { h with basis := hbasis.mpr hsame }⟩, htakes, hg'⟩
  · intro obligationId
    rw [GovernanceStore.commitReviewDischarge_eq_ok, GovernanceStore.commitReviewDischarge_eq_ok]
    constructor
    · rintro ⟨⟨obligation, found, h⟩, htakes, hg'⟩
      obtain rfl : found = decision := Option.some.inj (h.decided.symm.trans hdecision)
      exact ⟨hbasis.mp h.basis, ⟨obligation, found, { h with basis := rfl }⟩, htakes, hg'⟩
    · rintro ⟨hsame, ⟨obligation, found, h⟩, htakes, hg'⟩
      obtain rfl : found = decision := Option.some.inj (h.decided.symm.trans hdecision)
      exact ⟨⟨obligation, found, { h with basis := hbasis.mpr hsame }⟩, htakes, hg'⟩

/-! ## A basis that is retired -/

namespace Qualification

def basisRecord (status : LifecycleStatus)
    (h : validateOrthogonal .evidenceArtifact none status = true := by decide) : BaseRecord :=
  { id := "basis", recordType := .evidenceArtifact, createdAt := 0,
    lifecycleStatus := status, orthogonal := h }

def basisState (status : LifecycleStatus)
    (h : validateOrthogonal .evidenceArtifact none status = true := by decide) : State
  | .record => [basisRecord status h]
  | _ => []

theorem exportable_basisState {status : LifecycleStatus}
    {h : validateOrthogonal .evidenceArtifact none status = true} :
    CanonicalFreshnessAdapter.Exportable (basisState status h) := by
  intro payload hpayload
  obtain rfl := List.mem_singleton.mp hpayload
  cases status <;> rfl

/-- A review is decided without a change, on evidence of a draft. -/
def anchored : GovernanceDecision :=
  { noChange with basisAnchors := [("basis", canonicalPayloadAnchor id (basisRecord .draft).dump)] }

def anchoredStore : GovernanceStore :=
  run PersistenceCall.step {}
    [.seedState "scheme" candidate, .openObligation review, .recordDecision anchored]

end Qualification

open CanonicalFreshnessAdapter Qualification in
/-- The discharge of the review is accepted while the evidence is a draft, and refused once it is
superseded, though it would be accepted without a freshness check. -/
theorem commit_iff_same_basis_retired :
    ∃ discharged, anchoredStore.commitReviewDischarge "review" dischargedReview none =
        .ok discharged ∧
      anchoredStore.commitReviewDischarge "review" dischargedReview
        (some (lookup id (basisState .draft))) = .ok discharged ∧
      anchoredStore.commitReviewDischarge "review" dischargedReview
        (some (lookup id (basisState .superseded))) ≠ .ok discharged := by
  have haccepted : (anchoredStore.commitReviewDischarge "review" dischargedReview none).isOk =
      true := by decide
  obtain ⟨discharged, hdischarged⟩ := Result.exists_of_isOk haccepted
  have hcommit (status : LifecycleStatus) (h : validateOrthogonal .evidenceArtifact none status = true) :=
    (commit_iff_same_basis id Function.injective_id (basisState .draft) (basisState status h)
      exportable_basisState exportable_basisState anchoredStore dischargedReview anchored
      rfl ["basis"] rfl discharged).2 "review"
  refine ⟨discharged, hdischarged, (hcommit .draft _).mpr ⟨?_, hdischarged⟩, fun h => ?_⟩
  · intro basisRef hmem
    obtain rfl := List.mem_singleton.mp hmem
    exact ⟨_, _, rfl, rfl, rfl⟩
  · obtain ⟨payload, payload', hfound, hfound', hsame⟩ :=
      ((hcommit .superseded _).mp h).1 "basis" List.mem_cons_self
    have hdraft : found (basisState .draft) "basis" = [(basisRecord .draft).dump] := by rfl
    have hretired : found (basisState .superseded) "basis" = [(basisRecord .superseded).dump] := by
      rfl
    obtain rfl := (List.cons.inj (hdraft.symm.trans hfound)).1
    obtain rfl := (List.cons.inj (hretired.symm.trans hfound')).1
    exact absurd hsame (by decide)

end Governance
end PortableRuntime
