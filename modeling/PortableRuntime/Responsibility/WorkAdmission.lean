import PortableRuntime.Responsibility.CommitmentChain
import PortableRuntime.Responsibility.History

/-!
# Work admission

`commit` requires an active responsibility at the commitment's version and a held
reservation.  `materialize_work` reads the commitment and its proposal and requires nothing
more, so what was current at the commitment is current for the Work exactly when the objects
recorded in between have changed nothing of it.
-/

namespace PortableRuntime
namespace ResponsibilityStore

/-- The responsibility is active at the version of the commitment and of its proposal, and
the commitment's reservation has not been released. -/
structure CurrentAdmission (s : ResponsibilityStore) (c : Commitment) (proposal : WorkProposal) :
    Prop where
  active : s.ActiveAt c.responsibilityRef c.responsibilityVersion
  proposalVersion : proposal.responsibilityVersion = c.responsibilityVersion
  unreleased : ∃ reservation, s.journalGet c.reservationRef = some (.reservation reservation) ∧
    s.releases reservation = []

/-- The lifecycle transitions of the responsibility recorded after the commitment. -/
def transitionsAfter (s : ResponsibilityStore) (c : Commitment) :
    List ResponsibilityLifecycleTransition :=
  (s.recordedAfter c.id).filterMap (transitionOf c.responsibilityRef)

/-- Since the commitment no revision of the responsibility and no release of the reservation
was recorded; and no lifecycle transition, or the last one leads back to active and is also
the last in time of all. -/
structure Undisturbed (s : ResponsibilityStore) (c : Commitment) : Prop where
  unrevised : ∀ v ∈ s.recordedAfter c.id, revisionOf c.responsibilityRef v = none
  unreleased : ∀ release, .release release ∈ s.recordedAfter c.id →
    release.reservationRef ≠ c.reservationRef
  returned : s.transitionsAfter c = [] ∨
    ∃ t, (s.transitionsAfter c).getLast? = some t ∧ t.toStatus = .active ∧
      ∀ t' ∈ s.transitions c.responsibilityRef, t'.id ≠ t.id → ¬ appliedBefore t t'

/-! ## What an object leaves alone -/

section Frame

variable {s : ResponsibilityStore} {v : ResponsibilityObject} {ref : String}
  {identity : StandingResponsibility}

theorem revisions_record_of_other (hstored : s.journalGet ref = some (.responsibility identity))
    (hfresh : s.journalGet v.id = none) (hother : revisionOf ref v = none) :
    (s.record v).revisions ref = s.revisions ref := by
  have hlisted : (s.record v).listed (·.asRevision) "ResponsibilityRevision" ref =
      s.listed (·.asRevision) "ResponsibilityRevision" ref := by
    refine listed_record_of_other hstored hfresh (fun htype href => ?_)
    cases v with
    | revision r =>
      exact absurd hother (by simp [revisionOf, ResponsibilityObject.asRevision,
        Option.filter_some, Option.some.inj href])
    | _ => exact absurd htype (by simp [ResponsibilityObject.typeName])
  rw [revisions, hlisted, revisions]

theorem currentDefinition_record_of_other {d : ResponsibilityDefinition}
    (h : s.currentDefinition ref = .ok d) (hfresh : s.journalGet v.id = none)
    (hother : revisionOf ref v = none) : (s.record v).currentDefinition ref = .ok d := by
  obtain ⟨identity, hidentity, hfold⟩ := Result.bind_eq_ok.mp h
  have hstored := getResponsibility_eq_ok.mp hidentity
  refine Result.bind_eq_ok.mpr ⟨identity, ?_, ?_⟩
  · exact getResponsibility_eq_ok.mpr (journalGet_record_of_some hfresh hstored)
  · rw [revisions_record_of_other hstored hfresh hother]
    exact hfold

/-- The responsibility is stored and admitted. -/
structure Registered (s : ResponsibilityStore) (ref : String) : Prop where
  stored : ∃ identity, s.journalGet ref = some (.responsibility identity)
  admitted : s.admissions ref ≠ []

theorem registered_of_status {status : ResponsibilityStatus}
    (h : s.currentStatus ref = .ok status) : s.Registered ref := by
  obtain ⟨identity, hidentity, hrest⟩ := Result.bind_eq_ok.mp h
  obtain ⟨hadmitted, -⟩ := Result.check_eq_ok.mp hrest
  rw [guardValue_eq_ok, Bool.not_eq_true', List.isEmpty_eq_false_iff] at hadmitted
  exact ⟨⟨identity, getResponsibility_eq_ok.mp hidentity⟩, hadmitted⟩

theorem Registered.record (h : s.Registered ref) (hfresh : s.journalGet v.id = none) :
    (s.record v).Registered ref := by
  obtain ⟨⟨identity, hidentity⟩, hadmitted⟩ := h
  refine ⟨⟨identity, journalGet_record_of_some hfresh hidentity⟩, ?_⟩
  obtain ⟨a, ha⟩ := List.exists_mem_of_ne_nil _ hadmitted
  obtain ⟨o, ho, hasA⟩ := List.mem_filterMap.mp ha
  exact List.ne_nil_of_mem (List.mem_filterMap.mpr ⟨o, mem_list_record hfresh ho, hasA⟩)

theorem transitions_record_of_other (h : s.Registered ref) (hfresh : s.journalGet v.id = none)
    (hother : transitionOf ref v = none) :
    (s.record v).transitions ref = s.transitions ref := by
  obtain ⟨⟨identity, hstored⟩, -⟩ := h
  have hlisted : (s.record v).listed (·.asTransition) "ResponsibilityLifecycleTransition" ref =
      s.listed (·.asTransition) "ResponsibilityLifecycleTransition" ref := by
    refine listed_record_of_other hstored hfresh (fun htype href => ?_)
    cases v with
    | transition t =>
      exact absurd hother (by simp [transitionOf, ResponsibilityObject.asTransition,
        Option.filter_some, Option.some.inj href])
    | _ => exact absurd htype (by simp [ResponsibilityObject.typeName])
  rw [transitions, hlisted, transitions]

theorem currentStatus_of_registered (h : s.Registered ref) :
    s.currentStatus ref = (s.transitions ref).foldlM applyTransition .active := by
  obtain ⟨⟨identity, hidentity⟩, hadmitted⟩ := h
  rw [currentStatus, getResponsibility_eq_ok.mpr hidentity]
  have hguard : (!(s.admissions ref).isEmpty) = true := by simpa using hadmitted
  rw [hguard]
  rfl

/-- Without a transition from a position on, the status is what it was there. -/
theorem status_eq_before {n : Nat} (h : (s.before n).Registered ref)
    (hnone : ∀ v ∈ (s.objects.entries.drop n).map Prod.snd, transitionOf ref v = none) :
    s.transitions ref = (s.before n).transitions ref ∧
    s.currentStatus ref = (s.before n).currentStatus ref := by
  have hframe : s.Registered ref ∧ s.transitions ref = (s.before n).transitions ref := by
    refine before_induction (I := fun s' => s'.Registered ref ∧
      s'.transitions ref = (s.before n).transitions ref) (n := n) ⟨h, rfl⟩ ?_
    intro m k v hle hentry ⟨hregistered, hsame⟩
    have hid : v.id = k := id_of_journalGet (journalGet_of_getElem? hentry)
    have hfresh : (s.before m).journalGet v.id = none := hid ▸ journalGet_before_eq_none hentry
    refine ⟨hregistered.record hfresh, ?_⟩
    rw [transitions_record_of_other hregistered hfresh (hnone v (mem_drop_values hle hentry)), hsame]
  refine ⟨hframe.2, ?_⟩
  rw [currentStatus_of_registered hframe.1, currentStatus_of_registered h, hframe.2]

/-- A reservation of a stored responsibility is unreleased when no release names it. -/
theorem releases_eq_nil {r : ResourceReservation}
    (hstored : s.journalGet r.responsibilityRef = some (.responsibility identity)) :
    s.releases r = [] ↔ ∀ k release, s.journalGet k = some (.release release) →
      release.responsibilityRef = r.responsibilityRef → release.reservationRef ≠ r.id := by
  rw [releases, List.filter_eq_nil_iff]
  constructor
  · intro h k release hrelease href hof
    have hid : release.id = k := id_of_journalGet hrelease
    refine h release (List.mem_filterMap.mpr ⟨.release release, ?_, rfl⟩) (by simp [hof])
    have hsubject : (ResponsibilityObject.release release).subjectRef = r.responsibilityRef :=
      subjectRef_of_ref (congrArg some href) (ne_empty_of_journalGet hstored)
    refine mem_list.mpr ⟨?_, by simp [hsubject], rfl⟩
    show s.journalGet release.id = _
    rw [hid, hrelease]
  · intro h release hmem hof
    obtain ⟨o, ho, hasR⟩ := List.mem_filterMap.mp hmem
    obtain rfl := ResponsibilityObject.asRelease_eq_some.mp hasR
    obtain ⟨hget, hsubject, -⟩ := mem_list.mp ho
    have hsubject : r.responsibilityRef = (ResponsibilityObject.release release).subjectRef :=
      hsubject _ rfl
    rcases subjectRef_cases (.release release) with hself | hnamed
    · rw [hsubject, hself, hget] at hstored
      exact absurd hstored (by simp)
    · refine h _ release hget ?_ (of_decide_eq_true hof)
      exact (Option.some.inj hnamed).trans hsubject.symm

end Frame

/-! ## From the commitment to now -/

section Since

variable {s : ResponsibilityStore} {c : Commitment} {n : Nat}

/-- From the commitment's position on there are the commitment and what came after it. -/
theorem recorded_from (hentry : s.objects.entries[n]? = some (c.id, .commitment c)) {m : Nat}
    {k : String} {v : ResponsibilityObject} (hle : n ≤ m)
    (hv : s.objects.entries[m]? = some (k, v)) :
    v = .commitment c ∨ v ∈ s.recordedAfter c.id := by
  rcases Nat.eq_or_lt_of_le hle with rfl | hlt
  · rw [hentry] at hv
    exact .inl (Prod.mk.inj (Option.some.inj hv)).2.symm
  · rw [recordedAfter_eq hentry]
    exact .inr (mem_drop_values hlt hv)

/-- The version is the commitment's as long as no revision is recorded. -/
theorem version_current_iff (hentry : s.objects.entries[n]? = some (c.id, .commitment c))
    {d : ResponsibilityDefinition}
    (hd : (s.before n).currentDefinition c.responsibilityRef = .ok d)
    (hversion : d.version = c.responsibilityVersion) :
    (∃ d, s.currentDefinition c.responsibilityRef = .ok d ∧
      d.version = c.responsibilityVersion) ↔
    ∀ v ∈ s.recordedAfter c.id, revisionOf c.responsibilityRef v = none := by
  constructor
  · rintro ⟨d', hd', hversion'⟩ v hv
    rw [recordedAfter_eq hentry] at hv
    obtain ⟨⟨k, _⟩, he, rfl⟩ := List.mem_map.mp hv
    obtain ⟨j, hj⟩ := List.getElem?_of_mem he
    rw [List.getElem?_drop] at hj
    rw [Option.eq_none_iff_forall_not_mem]
    intro r hr
    obtain ⟨hrevision, href⟩ := revisionOf_eq_some.mp hr
    dsimp only at hrevision
    subst hrevision
    -- The revisions counted at the commitment, at the revision, after it, and now.
    obtain ⟨identity, hidentity, -⟩ := Result.bind_eq_ok.mp hd
    have hstored := journalGet_before_mono (show n ≤ n + 1 + j by omega)
      (getResponsibility_eq_ok.mp hidentity)
    have hid : r.id = k := id_of_journalGet (journalGet_of_getElem? hj)
    have hstep := length_revisions_record (href ▸ hstored)
      (hid ▸ journalGet_before_eq_none hj)
    rw [href, ← before_succ hj] at hstep
    have hbefore : ((s.before n).revisions c.responsibilityRef).length ≤
        ((s.before (n + 1 + j)).revisions c.responsibilityRef).length :=
      length_revisions_before_le (by omega)
    have hafter : ((s.before (n + 1 + j + 1)).revisions c.responsibilityRef).length ≤
        (s.revisions c.responsibilityRef).length := length_revisions_le s _ _
    have hthen := version_eq hd
    have hnow := version_eq hd'
    omega
  · intro hnone
    refine ⟨d, ?_, hversion⟩
    refine before_induction (I := fun s' => s'.currentDefinition c.responsibilityRef = .ok d) hd ?_
    intro m k v hle hv hdef
    have hid : v.id = k := id_of_journalGet (journalGet_of_getElem? hv)
    refine currentDefinition_record_of_other hdef (hid ▸ journalGet_before_eq_none hv) ?_
    rcases recorded_from hentry hle hv with rfl | hafter
    · rfl
    · exact hnone v hafter

/-- The responsibility is active as long as no transition is recorded, or again once the last
one recorded leads back and is the last in time. -/
theorem active_iff (hhistory : History s)
    (hentry : s.objects.entries[n]? = some (c.id, .commitment c))
    (hactive : (s.before n).currentStatus c.responsibilityRef = .ok .active) :
    s.currentStatus c.responsibilityRef = .ok .active ↔
      s.transitionsAfter c = [] ∨
      ∃ t, (s.transitionsAfter c).getLast? = some t ∧ t.toStatus = .active ∧
        ∀ t' ∈ s.transitions c.responsibilityRef, t'.id ≠ t.id → ¬ appliedBefore t t' := by
  cases hlast : (s.transitionsAfter c).getLast? with
  | none =>
    have hnil : s.transitionsAfter c = [] := List.getLast?_eq_none_iff.mp hlast
    refine iff_of_true ?_ (.inl hnil)
    have hnone : ∀ v ∈ (s.objects.entries.drop n).map Prod.snd,
        transitionOf c.responsibilityRef v = none := by
      intro v hv
      obtain ⟨⟨k, _⟩, he, rfl⟩ := List.mem_map.mp hv
      obtain ⟨j, hj⟩ := List.getElem?_of_mem he
      rw [List.getElem?_drop] at hj
      rcases recorded_from hentry (Nat.le_add_right n j) hj with hcommitment | hafter
      · rw [hcommitment]
        rfl
      · exact List.filterMap_eq_nil_iff.mp hnil _ hafter
    rw [(status_eq_before (registered_of_status hactive) hnone).2, hactive]
  | some t =>
    have hne : s.transitionsAfter c ≠ [] := by
      intro hnil
      rw [hnil] at hlast
      exact absurd hlast (by simp)
    rw [transitionsAfter, recordedAfter_eq hentry] at hlast
    obtain ⟨m, k, v, hle, hv, ht, hnone⟩ := exists_last_of_filterMap hlast
    obtain ⟨rfl, href⟩ := transitionOf_eq_some.mp ht
    obtain ⟨call, -, hfrom⟩ := hhistory m k _ hv
    have hid : t.id = k := id_of_journalGet (journalGet_of_getElem? hv)
    have hfresh : (s.before m).journalGet t.id = none := hid ▸ journalGet_before_eq_none hv
    have hregistered := (registered_of_status hfrom).record (v := .transition t) hfresh
    rw [← before_succ hv, href] at hregistered
    obtain ⟨hsame, hstatus⟩ := status_eq_before hregistered hnone
    have hnonblank : t.responsibilityRef ≠ "" := by
      obtain ⟨⟨identity, hidentity⟩, -⟩ := registered_of_status hfrom
      exact ne_empty_of_journalGet hidentity
    have hafter := @currentStatus_record_transition _ _ .active hfresh hfrom
    rw [← before_succ hv, href, ← hstatus] at hafter
    have hothers : (∀ t' ∈ (s.before m).transitions c.responsibilityRef, ¬ appliedBefore t t') ↔
        ∀ t' ∈ s.transitions c.responsibilityRef, t'.id ≠ t.id → ¬ appliedBefore t t' := by
      rw [hsame, before_succ hv, ← href]
      constructor
      · intro h t' ht' hother
        rcases (mem_transitions_record hfresh hnonblank).mp ht' with hold | rfl
        · exact h t' hold
        · exact absurd rfl hother
      · intro h t' ht'
        refine h t' ((mem_transitions_record hfresh hnonblank).mpr (.inl ht')) (fun hsameId => ?_)
        have hstored := journalGet_of_mem_transitions ((List.mem_insertionSort appliedBefore).mp ht')
        rw [hsameId, hfresh] at hstored
        exact absurd hstored (by simp)
    rw [hafter, hothers]
    constructor
    · rintro ⟨hlatest, hto⟩
      exact .inr ⟨t, rfl, hto.symm, hlatest⟩
    · rintro (hnil | ⟨t', ht', hto, hlatest⟩)
      · exact absurd hnil hne
      · obtain rfl := Option.some.inj ht'
        exact ⟨hlatest, hto.symm⟩

/-- The reservation is unreleased as long as no release of it is recorded. -/
theorem unreleased_iff {r : ResourceReservation} {identity : StandingResponsibility}
    (hhistory : History s) (hentry : s.objects.entries[n]? = some (c.id, .commitment c))
    (hr : (s.before n).journalGet c.reservationRef = some (.reservation r))
    (hstored : (s.before n).journalGet r.responsibilityRef = some (.responsibility identity))
    (hnone : (s.before n).releases r = []) :
    s.releases r = [] ↔
      ∀ release, .release release ∈ s.recordedAfter c.id →
        release.reservationRef ≠ c.reservationRef := by
  have hid : r.id = c.reservationRef := id_of_journalGet hr
  rw [releases_eq_nil (journalGet_of_before hstored), hid]
  rw [releases_eq_nil hstored, hid] at hnone
  constructor
  · intro h release hmem hof
    rw [recordedAfter_eq hentry] at hmem
    obtain ⟨⟨k, _⟩, he, hk⟩ := List.mem_map.mp hmem
    obtain rfl : _ = ResponsibilityObject.release release := hk
    obtain ⟨j, hj⟩ := List.getElem?_of_mem he
    rw [List.getElem?_drop] at hj
    -- The release was checked against the reservation it names.
    obtain ⟨call, r', hr', href, -⟩ := hhistory _ _ _ hj
    rw [hof] at hr'
    have hsame := journalGet_of_before hr'
    rw [journalGet_of_before hr] at hsame
    obtain rfl : r = r' := by simpa using hsame
    exact h k release (journalGet_of_getElem? hj) href.symm hof
  · intro h k release hrelease href hof
    obtain ⟨m, hm⟩ := exists_getElem?_of_journalGet hrelease
    rcases Nat.lt_or_ge m n with hlt | hge
    · refine hnone k release ?_ href hof
      refine Dict.get?_eq_some.mpr (List.mem_of_getElem? (i := m) ?_)
      rw [entries_before, List.getElem?_take_of_lt hlt, hm]
    · rcases recorded_from hentry hge hm with hcommitment | hafter
      · exact absurd hcommitment (by simp)
      · exact h release hafter hof

end Since

/-- What admitted a commitment is still current exactly when nothing recorded since has
disturbed it. -/
theorem currentAdmission_iff {s : ResponsibilityStore} {c : Commitment} {proposal : WorkProposal}
    (hhistory : History s) (hreservations : ReservationsOfProposals s)
    (hc : s.journalGet c.id = some (.commitment c))
    (hproposal : s.journalGet c.proposalRef = some (.proposal proposal)) :
    s.CurrentAdmission c proposal ↔ s.Undisturbed c := by
  obtain ⟨n, hentry⟩ := exists_getElem?_of_journalGet hc
  obtain ⟨call, now, proposal', priority, portfolio, r, -, hadmissible⟩ := hhistory n _ _ hentry
  obtain rfl : proposal = proposal' := by
    have hget := journalGet_of_before hadmissible.proposalStored
    rw [hproposal] at hget
    simpa using hget
  obtain ⟨⟨d, hd, hversion⟩, hactive⟩ := hadmissible.active
  have hr := hadmissible.reservationStored
  have href : r.responsibilityRef = c.responsibilityRef := by
    obtain ⟨proposal', hproposal', hof⟩ := hreservations _ r (journalGet_of_before hr)
    have hid : proposal.id = c.proposalRef := id_of_journalGet hproposal
    rw [hadmissible.reservationOf, hid, hproposal] at hproposal'
    obtain rfl : proposal = proposal' := by simpa using hproposal'
    exact hof.symm.trans hadmissible.proposalRef
  obtain ⟨⟨identity, hidentity⟩, -⟩ := registered_of_status hactive
  have hheld : (s.before n).releases r = [] := by
    have hheld := hadmissible.held
    rw [reservationReleased, Bool.or_eq_false_iff, Bool.not_eq_false', List.isEmpty_iff] at hheld
    exact hheld.1
  have hversionIff := version_current_iff hentry hd hversion
  have hactiveIff := active_iff hhistory hentry hactive
  have hreleaseIff := unreleased_iff hhistory hentry hr (href ▸ hidentity) hheld
  constructor
  · rintro ⟨⟨hdefinition, hstatus⟩, -, r', hr', hunreleased⟩
    rw [journalGet_of_before hr] at hr'
    obtain rfl : r = r' := by simpa using hr'
    exact ⟨hversionIff.mp hdefinition, hreleaseIff.mp hunreleased, hactiveIff.mp hstatus⟩
  · rintro ⟨hunrevised, hunreleased, hreturned⟩
    exact ⟨⟨hversionIff.mpr hunrevised, hactiveIff.mpr hreturned⟩, hadmissible.proposalVersion,
      r, journalGet_of_before hr, hreleaseIff.mpr hunreleased⟩

/-- Work is created from a commitment that is current exactly when nothing recorded since the
commitment has disturbed it. -/
theorem materialized_current_iff (ids : StableId) (calls : List KernelCall) {id : String}
    {clock : Time} {gate : Result Unit} {work : Work} {s' : ResponsibilityStore}
    (h : (run (KernelCall.step ids) empty calls).materializeWork ids id clock gate =
      .ok (work, s')) :
    ∃ c proposal,
      (run (KernelCall.step ids) empty calls).journalGet id = some (.commitment c) ∧
      (run (KernelCall.step ids) empty calls).journalGet c.proposalRef =
        some (.proposal proposal) ∧
      ((run (KernelCall.step ids) empty calls).CurrentAdmission c proposal ↔
        (run (KernelCall.step ids) empty calls).Undisturbed c) := by
  obtain ⟨c, proposal, hc, hproposal, -⟩ := materializeWork_cases h
  have hhistory : History (run (KernelCall.step ids) empty calls) :=
    run_preserves (fun _ call hs => hs.step call) History.empty
  have hreservations : ReservationsOfProposals (run (KernelCall.step ids) empty calls) :=
    run_preserves (fun _ call hs => hs.step call) ReservationsOfProposals.empty
  have hid : c.id = id := id_of_journalGet hc
  exact ⟨c, proposal, hc, hproposal,
    currentAdmission_iff hhistory hreservations (hid ▸ hc) hproposal⟩

end ResponsibilityStore

namespace Listing

def revision : ResponsibilityRevision :=
  { id := "revision", createdAt := 7, responsibilityRef := "sr_listing", fromVersion := 1,
    statement := "Maintain listing integrity in every market" }

def suspension : ResponsibilityLifecycleTransition :=
  { id := "suspension", createdAt := 7, responsibilityRef := "sr_listing",
    responsibilityVersion := 1, fromStatus := .active, toStatus := .suspended, appliedAt := 7 }

def discharge : ResponsibilityLifecycleTransition :=
  { id := "discharge", createdAt := 7, responsibilityRef := "sr_listing",
    responsibilityVersion := 1, fromStatus := .active, toStatus := .discharged, appliedAt := 7,
    decisionRef := some "decision:explicit-discharge" }

def release : ResourceReservationRelease :=
  { id := "release", createdAt := 7, reservationRef := "reservation",
    responsibilityRef := "sr_listing", releaseKind := .released, releasedAt := 7 }

/-- The store after the commitment and some more calls. -/
def since (calls : List KernelCall) : ResponsibilityStore :=
  run (KernelCall.step ids) .empty (committed ++ calls)

/-- The store has no Work of the commitment, and `materialize_work` creates it. -/
def CreatesWork (s : ResponsibilityStore) : Prop :=
  (s.works.get? (ids.text "work" ["commitment", "proposal"])).isNone = true ∧
  (s.materializeWork ids "commitment" 8 (.ok ())).isOk = true

end Listing

namespace ResponsibilityStore

/-- Work of the listing commitment, when nothing has been recorded since. -/
theorem materialized_current_listing :
    Listing.CreatesWork (Listing.since []) ∧
    (Listing.since []).CurrentAdmission Listing.commitment Listing.proposal := by
  have hcommitment : (Listing.since []).getCommitment "commitment" = .ok Listing.commitment := by
    decide
  have hproposal : (Listing.since []).getProposal "proposal" = .ok Listing.proposal := by
    decide
  have hcreates : Listing.CreatesWork (Listing.since []) := ⟨by decide, by decide⟩
  have hnothing : (Listing.since []).recordedAfter "commitment" = [] := by
    rw [← List.isEmpty_iff]
    decide
  obtain ⟨⟨work, s'⟩, hwork⟩ := Result.exists_of_isOk hcreates.2
  obtain ⟨c, proposal, hc, hp, hcurrent⟩ := materialized_current_iff Listing.ids _ hwork
  have hc' := hc.symm.trans (getCommitment_eq_ok.mp hcommitment)
  obtain rfl : c = Listing.commitment := by simpa using hc'
  have hp' := hp.symm.trans (getProposal_eq_ok.mp hproposal)
  obtain rfl : proposal = Listing.proposal := by simpa using hp'
  refine ⟨hcreates, hcurrent.mpr ⟨?_, ?_, .inl ?_⟩⟩
  · intro v hv
    exact absurd (hnothing ▸ hv : v ∈ ([] : List ResponsibilityObject)) List.not_mem_nil
  · intro release hrelease
    exact absurd (hnothing ▸ hrelease : _ ∈ ([] : List ResponsibilityObject)) List.not_mem_nil
  · exact List.filterMap_eq_nil_iff.mpr (fun v hv =>
      absurd (hnothing ▸ hv : v ∈ ([] : List ResponsibilityObject)) List.not_mem_nil)

/-- Work is created although the responsibility was revised, suspended or discharged, or the
reservation released, after the commitment. -/
theorem materialized_stale_listing :
    (Listing.CreatesWork (Listing.since [.revise Listing.revision]) ∧
      ¬ (Listing.since [.revise Listing.revision]).CurrentAdmission Listing.commitment
        Listing.proposal) ∧
    (Listing.CreatesWork (Listing.since [.transition Listing.suspension]) ∧
      ¬ (Listing.since [.transition Listing.suspension]).CurrentAdmission Listing.commitment
        Listing.proposal) ∧
    (Listing.CreatesWork (Listing.since [.transition Listing.discharge]) ∧
      ¬ (Listing.since [.transition Listing.discharge]).CurrentAdmission Listing.commitment
        Listing.proposal) ∧
    (Listing.CreatesWork (Listing.since [.releaseReservation Listing.release]) ∧
      ¬ (Listing.since [.releaseReservation Listing.release]).CurrentAdmission Listing.commitment
        Listing.proposal) := by
  refine ⟨⟨⟨by decide, by decide⟩, fun h => ?_⟩,
    ⟨⟨by decide, by decide⟩, fun h => ?_⟩,
    ⟨⟨by decide, by decide⟩, fun h => ?_⟩,
    ⟨⟨by decide, by decide⟩, fun h => ?_⟩⟩
  · have hversion : (Listing.since [.revise Listing.revision]).currentDefinition
        Listing.commitment.responsibilityRef |>.map (·.version) |> (· = .ok 2) := by decide
    obtain ⟨⟨d, hd, hd'⟩, -⟩ := h.active
    rw [hd] at hversion
    have htwo : d.version = 2 := Except.ok.inj hversion
    rw [htwo] at hd'
    exact absurd hd' (by decide)
  · have hstatus : (Listing.since [.transition Listing.suspension]).currentStatus
        Listing.commitment.responsibilityRef = .ok .suspended := by decide
    rw [h.active.2] at hstatus
    exact absurd hstatus (by decide)
  · have hstatus : (Listing.since [.transition Listing.discharge]).currentStatus
        Listing.commitment.responsibilityRef = .ok .discharged := by decide
    rw [h.active.2] at hstatus
    exact absurd hstatus (by decide)
  · obtain ⟨r, hr, hunreleased⟩ := h.unreleased
    have hreservation : (Listing.since [.releaseReservation Listing.release]).getReservation
        Listing.commitment.reservationRef = .ok Listing.reservation := by decide
    have hr' := hr.symm.trans (getReservation_eq_ok.mp hreservation)
    obtain rfl : r = Listing.reservation := by simpa using hr'
    have hreleased : ((Listing.since [.releaseReservation Listing.release]).releases
        Listing.reservation).isEmpty = false := by decide
    rw [hunreleased] at hreleased
    exact absurd hreleased (by decide)

end ResponsibilityStore
end PortableRuntime
