import PortableRuntime.Responsibility.Overcommit

/-!
# The chain behind a commitment

`commit` checks each named object against the proposal, but not the portfolio decision's
pool against the reservation's, nor whether another commitment already stands on the
reservation.  An accepted commitment is coherent exactly when these two hold
(`commit_coherent_iff`); and while they hold of every accepted commitment, what is committed
on a pool stays within what was reserved from it.
-/

namespace PortableRuntime
namespace ResponsibilityStore

/-- A commitment stands on one proposal and one responsibility at its current version, with
an admitted judgment, an admitted portfolio decision and a held reservation of that proposal,
both on one pool; and no other commitment stands on the reservation. -/
def Coherent (s : ResponsibilityStore) (now : Time) (c : Commitment) : Prop :=
  ∃ proposal priority portfolio reservation,
    s.Admissible now c proposal priority portfolio reservation ∧
    reservation.responsibilityRef = c.responsibilityRef ∧
    portfolio.resourcePoolRef = reservation.resourcePoolRef ∧
    ∀ k other, s.journalGet k = some (.commitment other) → other.id ≠ c.id →
      other.reservationRef ≠ c.reservationRef

/-- The portfolio decision and the reservation are on one pool. -/
def SamePool (s : ResponsibilityStore) (c : Commitment) : Prop :=
  ∀ portfolio reservation, s.journalGet c.portfolioAdmissionRef = some (.portfolio portfolio) →
    s.journalGet c.reservationRef = some (.reservation reservation) →
    portfolio.resourcePoolRef = reservation.resourcePoolRef

/-- The reservation backs no commitment of another id. -/
def Unshared (s : ResponsibilityStore) (c : Commitment) : Prop :=
  ∀ k other, s.journalGet k = some (.commitment other) → other.id ≠ c.id →
    other.reservationRef ≠ c.reservationRef

/-- Each reservation is of the responsibility of its proposal. -/
def ReservationsOfProposals (s : ResponsibilityStore) : Prop :=
  ∀ k r, s.journalGet k = some (.reservation r) → ∃ proposal,
    s.journalGet r.proposalRef = some (.proposal proposal) ∧
    proposal.responsibilityRef = r.responsibilityRef

theorem ReservationsOfProposals.step {ids : StableId} {s : ResponsibilityStore}
    (call : KernelCall) (h : ReservationsOfProposals s) :
    ReservationsOfProposals (call.step ids s) := by
  refine step_induction (fun _ _ hs => hs) (fun s v hs hfresh hadmits => ?_) h
  intro k r hr
  rw [journalGet_record] at hr
  split at hr
  · obtain rfl : v = .reservation r := by simpa using hr
    obtain ⟨t, proposal, available, -, hproposal, hof, -, -⟩ := hadmits
    exact ⟨proposal, journalGet_record_of_some hfresh hproposal, hof⟩
  · obtain ⟨proposal, hproposal, hof⟩ := hs k r hr
    exact ⟨proposal, journalGet_record_of_some hfresh hproposal, hof⟩

/-- What an accepted commitment lacks of a coherent chain. -/
theorem commit_coherent_iff {s : ResponsibilityStore} {now : Time} {c : Commitment}
    {w : ResponsibilityObject} {s' : ResponsibilityStore} (hs : ReservationsOfProposals s)
    (h : s.commit c now = .ok (w, s')) : s.Coherent now c ↔ s.SamePool c ∧ s.Unshared c := by
  constructor
  · rintro ⟨proposal, priority, portfolio, reservation, hadmissible, -, hpool, hunshared⟩
    refine ⟨fun portfolio' reservation' hportfolio hreservation => ?_, hunshared⟩
    rw [hadmissible.portfolioStored] at hportfolio
    rw [hadmissible.reservationStored] at hreservation
    obtain rfl : portfolio = portfolio' := by simpa using hportfolio
    obtain rfl : reservation = reservation' := by simpa using hreservation
    exact hpool
  · rintro ⟨hpool, hunshared⟩
    obtain ⟨⟨proposal, priority, portfolio, reservation, hadmissible⟩, -⟩ := admissible_of_commit h
    obtain ⟨proposal', hproposal', hof⟩ := hs _ reservation hadmissible.reservationStored
    have hid : proposal.id = c.proposalRef := id_of_journalGet hadmissible.proposalStored
    rw [hadmissible.reservationOf, hid, hadmissible.proposalStored] at hproposal'
    obtain rfl : proposal = proposal' := by simpa using hproposal'
    refine ⟨proposal, priority, portfolio, reservation, hadmissible, ?_, ?_, hunshared⟩
    · exact hof.symm.trans hadmissible.proposalRef
    · exact hpool portfolio reservation hadmissible.portfolioStored hadmissible.reservationStored

/-! ## What is committed on a pool -/

def commitments (s : ResponsibilityStore) : List Commitment :=
  s.listed (·.asCommitment) "Commitment" none

def reservations (s : ResponsibilityStore) : List ResourceReservation :=
  s.listed (·.asReservation) "ResourceReservation" none

/-- The commitments whose portfolio decision admits them to a pool. -/
def admittedTo (s : ResponsibilityStore) (poolId : String) : List Commitment :=
  s.commitments.filter (fun c => ((s.journalGet c.portfolioAdmissionRef).bind
    (·.asPortfolio)).any (fun portfolio => portfolio.resourcePoolRef = poolId))

def committedAmount (s : ResponsibilityStore) (poolId : String) (d : Dimension) : Nat :=
  ((s.admittedTo poolId).map (·.resources.amount d)).sum

def reservedAmount (s : ResponsibilityStore) (poolId : String) (d : Dimension) : Nat :=
  ((s.reservations.filter (fun r => r.resourcePoolRef = poolId)).map (·.resources.amount d)).sum

/-- Each commitment stands on a reservation of its own, of its resources and on the pool that
admitted it. -/
structure Backed (s : ResponsibilityStore) : Prop where
  reserved : ∀ k c, s.journalGet k = some (.commitment c) → ∃ portfolio reservation,
    s.journalGet c.portfolioAdmissionRef = some (.portfolio portfolio) ∧
    s.journalGet c.reservationRef = some (.reservation reservation) ∧
    portfolio.resourcePoolRef = reservation.resourcePoolRef ∧
    (c.resources == reservation.resources) = true
  unshared : ∀ k c k' c', s.journalGet k = some (.commitment c) →
    s.journalGet k' = some (.commitment c') → c.reservationRef = c'.reservationRef → c.id = c'.id

theorem mem_commitments {s : ResponsibilityStore} {c : Commitment} :
    c ∈ s.commitments ↔ s.journalGet c.id = some (.commitment c) := by
  rw [commitments, listed, List.mem_filterMap]
  constructor
  · rintro ⟨o, ho, hc⟩
    obtain rfl := ResponsibilityObject.asCommitment_eq_some.mp hc
    exact (mem_list.mp ho).1
  · intro h
    exact ⟨.commitment c, mem_list.mpr ⟨h, by simp, rfl⟩, rfl⟩

theorem mem_reservations {s : ResponsibilityStore} {r : ResourceReservation} :
    r ∈ s.reservations ↔ s.journalGet r.id = some (.reservation r) := by
  rw [reservations, listed, List.mem_filterMap]
  constructor
  · rintro ⟨o, ho, hr⟩
    obtain rfl := ResponsibilityObject.asReservation_eq_some.mp hr
    exact (mem_list.mp ho).1
  · intro h
    exact ⟨.reservation r, mem_list.mpr ⟨h, by simp, rfl⟩, rfl⟩

theorem nodup_list {s : ResponsibilityStore} {objectType : String} {ref : Option String} :
    (s.list objectType ref).Nodup := by
  have hvalues : s.objects.values.Nodup := by
    refine List.Nodup.of_map (·.id) ?_
    have hkeys : s.objects.values.map (·.id) = s.objects.keys := by
      rw [Dict.values, List.map_map, Dict.keys]
      exact List.map_congr_left (fun e he => s.keyed e.1 e.2 (Dict.get?_eq_some.mpr he))
    exact hkeys ▸ s.objects.nodup
  exact (List.perm_insertionSort _ _).nodup_iff.mpr ((hvalues.filter _).filter _)

theorem nodup_commitments {s : ResponsibilityStore} : s.commitments.Nodup := by
  refine nodup_list.filterMap (fun a a' c hc hc' => ?_)
  rw [ResponsibilityObject.asCommitment_eq_some.mp hc,
    ResponsibilityObject.asCommitment_eq_some.mp hc']

/-- The reservation a commitment names. -/
def backing (s : ResponsibilityStore) (c : Commitment) : Option ResourceReservation :=
  (s.journalGet c.reservationRef).bind (·.asReservation)

theorem backing_eq_some {s : ResponsibilityStore} {c : Commitment} {r : ResourceReservation} :
    s.backing c = some r ↔ s.journalGet c.reservationRef = some (.reservation r) := by
  rw [backing, Option.bind_eq_some_iff]
  simp

/-- What is committed on a pool was reserved from it. -/
theorem Backed.committed_le_reserved {s : ResponsibilityStore} (h : Backed s) (poolId : String)
    (d : Dimension) : s.committedAmount poolId d ≤ s.reservedAmount poolId d := by
  have hadmitted : ∀ c ∈ s.admittedTo poolId, ∃ r, s.backing c = some r ∧
      r.resourcePoolRef = poolId ∧ c.resources.amount d = r.resources.amount d := by
    intro c hc
    rw [admittedTo, List.mem_filter, mem_commitments] at hc
    obtain ⟨portfolio, r, hportfolio, hr, hpool, hresources⟩ := h.reserved _ c hc.1
    rw [hportfolio] at hc
    have hto : portfolio.resourcePoolRef = poolId := by
      simpa [ResponsibilityObject.asPortfolio] using hc.2
    exact ⟨r, backing_eq_some.mpr hr, hpool ▸ hto,
      ResourceVector.amount_eq_of_beq hresources d⟩
  have hsum : s.committedAmount poolId d =
      (((s.admittedTo poolId).filterMap s.backing).map (·.resources.amount d)).sum := by
    rw [committedAmount]
    congr 1
    generalize s.admittedTo poolId = cs at hadmitted
    induction cs with
    | nil => rfl
    | cons c rest ih =>
      obtain ⟨r, hr, -, hamount⟩ := hadmitted c List.mem_cons_self
      rw [List.filterMap_cons, hr, List.map_cons, List.map_cons, hamount,
        ih (fun c' hc' => hadmitted c' (List.mem_cons_of_mem c hc'))]
  have hnodup : ((s.admittedTo poolId).filterMap s.backing).Nodup := by
    have hfilter : (s.admittedTo poolId).Nodup := nodup_commitments.filter _
    refine List.pairwise_filterMap.mpr (hfilter.imp_of_mem ?_)
    intro c c' hc hc' hne r hr r' hr' heq
    subst heq
    -- The two name one reservation, and a reservation backs one commitment.
    have hc := mem_commitments.mp (List.mem_filter.mp hc).1
    have hc' := mem_commitments.mp (List.mem_filter.mp hc').1
    have href : c.reservationRef = c'.reservationRef :=
      (id_of_journalGet (backing_eq_some.mp hr)).symm.trans
        (id_of_journalGet (backing_eq_some.mp hr'))
    rw [h.unshared _ c _ c' hc hc' href, hc'] at hc
    exact hne (by simpa using hc.symm)
  have hsub : (s.admittedTo poolId).filterMap s.backing ⊆
      s.reservations.filter (fun r => r.resourcePoolRef = poolId) := by
    intro r hr
    obtain ⟨c, hc, hback⟩ := List.mem_filterMap.mp hr
    obtain ⟨r', hr', hpool, -⟩ := hadmitted c hc
    obtain rfl : r = r' := Option.some.inj (hback.symm.trans hr')
    have hstored := backing_eq_some.mp hback
    refine List.mem_filter.mpr ⟨mem_reservations.mpr ?_, decide_eq_true hpool⟩
    have hid : r.id = c.reservationRef := id_of_journalGet hstored
    rwa [hid]
  rw [hsum]
  obtain ⟨l, hperm, hsublist⟩ := List.subperm_of_subset hnodup hsub
  rw [← (hperm.map _).sum_eq]
  exact (hsublist.map _).sum_le_sum (fun _ _ => Nat.zero_le _)

/-! ## Runs -/

/-- The commitment that a call offers, if the kernel accepts it, is coherent. -/
def CommitsCoherently (s : ResponsibilityStore) : KernelCall → Prop
  | .commit c now => (s.commit c now).isOk = true → s.Coherent now c
  | _ => True

/-- The commitment that a call offers, if the kernel accepts it, keeps to one pool and to a
reservation of its own. -/
def CommitsSoundly (s : ResponsibilityStore) : KernelCall → Prop
  | .commit c now => (s.commit c now).isOk = true → s.SamePool c ∧ s.Unshared c
  | _ => True

theorem commitsCoherently_iff {s : ResponsibilityStore} (call : KernelCall)
    (hs : ReservationsOfProposals s) : s.CommitsCoherently call ↔ s.CommitsSoundly call := by
  cases call with
  | commit c now =>
    refine forall_congr' (fun hok => ?_)
    obtain ⟨⟨w, s'⟩, hcommit⟩ := Result.exists_of_isOk hok
    exact commit_coherent_iff hs hcommit
  | _ => exact Iff.rfl

theorem Backed.record {s : ResponsibilityStore} {v : ResponsibilityObject} (h : Backed s)
    (hfresh : s.journalGet v.id = none)
    (hv : ∀ c, v = .commitment c → s.SamePool c ∧ s.Unshared c ∧
      ∃ now proposal priority portfolio reservation,
        s.Admissible now c proposal priority portfolio reservation) : Backed (s.record v) := by
  have hold : ∀ {k c}, (s.record v).journalGet k = some (.commitment c) →
      v = .commitment c ∨ s.journalGet k = some (.commitment c) := by
    intro k c hk
    rw [journalGet_record] at hk
    split at hk
    · exact .inl (by simpa using hk)
    · exact .inr hk
  constructor
  · intro k c hc
    rcases hold hc with hnew | hstored
    · obtain ⟨hpool, -, now, proposal, priority, portfolio, reservation, hadmissible⟩ := hv c hnew
      exact ⟨portfolio, reservation,
        journalGet_record_of_some hfresh hadmissible.portfolioStored,
        journalGet_record_of_some hfresh hadmissible.reservationStored,
        hpool portfolio reservation hadmissible.portfolioStored hadmissible.reservationStored,
        hadmissible.reservationResources⟩
    · obtain ⟨portfolio, reservation, hportfolio, hreservation, hrest⟩ := h.reserved k c hstored
      exact ⟨portfolio, reservation, journalGet_record_of_some hfresh hportfolio,
        journalGet_record_of_some hfresh hreservation, hrest⟩
  · intro k c k' c' hc hc' href
    by_contra hne
    rcases hold hc with hnew | hstored
    · rcases hold hc' with hnew' | hstored'
      · obtain rfl : c = c' := by simpa [hnew] using hnew'
        exact hne rfl
      · exact (hv c hnew).2.1 k' c' hstored' (Ne.symm hne) href.symm
    · rcases hold hc' with hnew' | hstored'
      · exact (hv c' hnew').2.1 k c hstored hne href
      · exact hne (h.unshared k c k' c' hstored hstored' href)

/-- A commitment is recorded only by the call that offers it. -/
theorem step_commit {ids : StableId} {s : ResponsibilityStore} (c : Commitment) (now : Time) :
    KernelCall.step ids s (.commit c now) = s ∨
    (s.journalGet c.id = none ∧ (s.commit c now).isOk = true ∧
      (∃ proposal priority portfolio reservation,
        s.Admissible now c proposal priority portfolio reservation) ∧
      KernelCall.step ids s (.commit c now) = s.record (.commitment c)) := by
  cases hcommit : s.commit c now with
  | error e =>
    refine .inl ?_
    simp [KernelCall.step, KernelCall.perform, hcommit, Functor.map, Except.map]
  | ok p =>
    have hstep : KernelCall.step ids s (.commit c now) = p.2 := by
      simp [KernelCall.step, KernelCall.perform, hcommit, Functor.map, Except.map]
    obtain ⟨hadmissible, hsave⟩ := admissible_of_commit hcommit
    rcases saveAppendOnly_cases hsave with hsame | ⟨hfresh, hnew⟩
    · exact .inl (hstep.trans hsame)
    · exact .inr ⟨hfresh, rfl, hadmissible, hstep.trans hnew⟩

theorem Backed.step {ids : StableId} {s : ResponsibilityStore} {call : KernelCall}
    (h : Backed s) (hsound : s.CommitsSoundly call) : Backed (call.step ids s) := by
  by_cases hcall : ∃ c now, call = .commit c now
  · obtain ⟨c, now, rfl⟩ := hcall
    rcases @step_commit ids s c now with hsame | ⟨hfresh, hok, hadmissible, hnew⟩
    · rwa [hsame]
    · rw [hnew]
      refine h.record hfresh (fun c' hc' => ?_)
      obtain rfl : c = c' := by simpa using hc'
      obtain ⟨hpool, hunshared⟩ := hsound hok
      exact ⟨hpool, hunshared, now, hadmissible⟩
  · refine step_induction (fun _ _ hs => ⟨hs.reserved, hs.unshared⟩) (fun s v hs hfresh hadmits => ?_) h
    refine hs.record hfresh (fun c hc => ?_)
    subst hc
    obtain ⟨t, _, _, _, _, hthis, -⟩ := hadmits
    exact absurd ⟨c, t, hthis⟩ hcall

theorem Backed.empty : Backed empty where
  reserved k c hc := absurd hc (by simp [journalGet, ResponsibilityStore.empty])
  unshared k c k' c' hc := absurd hc (by simp [journalGet, ResponsibilityStore.empty])

theorem ReservationsOfProposals.empty : ReservationsOfProposals empty :=
  fun k r hr => absurd hr (by simp [journalGet, ResponsibilityStore.empty])

/-- The commitments that a run accepts are coherent exactly when each keeps to one pool and to
a reservation of its own; and then what the pools' commitments take was reserved from them. -/
theorem chains_coherent_iff (ids : StableId) (calls : List KernelCall) :
    (Along (KernelCall.step ids) CommitsCoherently empty calls ↔
      Along (KernelCall.step ids) CommitsSoundly empty calls) ∧
    (Along (KernelCall.step ids) CommitsSoundly empty calls → ∀ poolId d,
      (run (KernelCall.step ids) empty calls).committedAmount poolId d ≤
        (run (KernelCall.step ids) empty calls).reservedAmount poolId d) := by
  constructor
  · exact along_iff_along (I := ReservationsOfProposals) (fun s call hs => hs.step call)
      (fun s call hs => commitsCoherently_iff call hs) ReservationsOfProposals.empty
  · intro hsound
    have hbacked : Backed (run (KernelCall.step ids) empty calls) :=
      run_invariant (fun _ _ hs hC => hs.step hC) Backed.empty hsound
    exact hbacked.committed_le_reserved

end ResponsibilityStore

namespace Listing

def otherPool : ResourcePool := { pool with id := "other_pool", idNonblank := by decide }

def otherPortfolio : PortfolioAdmissionDecision :=
  { portfolio with
    id := "other_portfolio", resourcePoolRef := "other_pool", idNonblank := by decide }

/-- The same request, admitted by the decision on the other pool. -/
def mixedCommitment : Commitment :=
  { commitment with
    id := "mixed", portfolioAdmissionRef := "other_portfolio", idNonblank := by decide }

/-- The same request once more. -/
def secondCommitment : Commitment :=
  { commitment with id := "second", idNonblank := by decide }

def twoPools : List KernelCall :=
  reserved ++ [.createResourcePool otherPool, .recordPortfolioAdmission otherPortfolio]

end Listing

namespace ResponsibilityStore

/-- The one commitment of the listing chain is coherent, and takes what was reserved. -/
theorem chains_coherent_listing :
    Along (KernelCall.step Listing.ids) CommitsCoherently empty Listing.committed ∧
    (run (KernelCall.step Listing.ids) empty Listing.committed).committedAmount "pool"
        .apiCalls ≤
      (run (KernelCall.step Listing.ids) empty Listing.committed).reservedAmount "pool"
        .apiCalls := by
  have hpool : (run (KernelCall.step Listing.ids) empty Listing.reserved).SamePool
      Listing.commitment := by
    intro portfolio reservation hportfolio hreservation
    have hfirst : ((run (KernelCall.step Listing.ids) empty Listing.reserved).journalGet
        Listing.commitment.portfolioAdmissionRef).bind
          (fun v => v.asPortfolio.map (·.resourcePoolRef)) = some "pool" := by decide
    have hsecond : ((run (KernelCall.step Listing.ids) empty Listing.reserved).journalGet
        Listing.commitment.reservationRef).bind
          (fun v => v.asReservation.map (·.resourcePoolRef)) = some "pool" := by decide
    rw [hportfolio] at hfirst
    rw [hreservation] at hsecond
    exact (Option.some.inj hfirst).trans (Option.some.inj hsecond).symm
  have hunshared : (run (KernelCall.step Listing.ids) empty Listing.reserved).Unshared
      Listing.commitment := by
    intro k other hother
    have hnone : (run (KernelCall.step Listing.ids) empty Listing.reserved).commitments.isEmpty =
        true := by decide
    rw [← id_of_journalGet hother] at hother
    exact absurd (mem_commitments.mpr hother) (by simp [List.isEmpty_iff.mp hnone])
  have hsound : Along (KernelCall.step Listing.ids) CommitsSoundly empty Listing.committed := by
    refine along_append.mpr ⟨?_, fun _ => ⟨hpool, hunshared⟩, trivial⟩
    exact ⟨trivial, trivial, trivial, trivial, trivial, trivial, trivial, trivial⟩
  have hchains := chains_coherent_iff Listing.ids Listing.committed
  exact ⟨hchains.1.mpr hsound, hchains.2 hsound "pool" .apiCalls⟩

/-- The kernel accepts a commitment over two pools, and two commitments on one reservation
whose committed calls are twice the reserved ones. -/
theorem chains_incoherent_listing :
    ¬ Along (KernelCall.step Listing.ids) CommitsCoherently empty
      (Listing.twoPools ++ [.commit Listing.mixedCommitment 6]) ∧
    ¬ Along (KernelCall.step Listing.ids) CommitsCoherently empty
      (Listing.committed ++ [.commit Listing.secondCommitment 6]) ∧
    (run (KernelCall.step Listing.ids) empty
      (Listing.committed ++ [.commit Listing.secondCommitment 6])).committedAmount "pool"
        .apiCalls = 4 ∧
    (run (KernelCall.step Listing.ids) empty
      (Listing.committed ++ [.commit Listing.secondCommitment 6])).reservedAmount "pool"
        .apiCalls = 2 := by
  refine ⟨fun h => ?_, fun h => ?_, by decide, by decide⟩
  · obtain ⟨_, _, portfolio, reservation, hadmissible, -, hpool, -⟩ :=
      (along_append.mp h).2.1 (by decide)
    have hportfolio : ((run (KernelCall.step Listing.ids) empty Listing.twoPools).journalGet
        "other_portfolio").bind (fun v => v.asPortfolio.map (·.resourcePoolRef)) =
          some "other_pool" := by decide
    have hreservation : ((run (KernelCall.step Listing.ids) empty Listing.twoPools).journalGet
        "reservation").bind (fun v => v.asReservation.map (·.resourcePoolRef)) =
          some "pool" := by decide
    rw [show "other_portfolio" = Listing.mixedCommitment.portfolioAdmissionRef from rfl,
      hadmissible.portfolioStored] at hportfolio
    rw [show "reservation" = Listing.mixedCommitment.reservationRef from rfl,
      hadmissible.reservationStored] at hreservation
    have hother : portfolio.resourcePoolRef = "other_pool" := Option.some.inj hportfolio
    have hfirst : reservation.resourcePoolRef = "pool" := Option.some.inj hreservation
    rw [hother, hfirst] at hpool
    exact absurd hpool (by decide)
  · obtain ⟨_, _, _, _, -, -, -, hunshared⟩ := (along_append.mp h).2.1 (by decide)
    have hfirst : ((run (KernelCall.step Listing.ids) empty Listing.committed).journalGet
        "commitment").bind (fun v => v.asCommitment.map (fun c => (c.id, c.reservationRef))) =
          some ("commitment", "reservation") := by decide
    obtain ⟨v, hstored, hv⟩ := Option.bind_eq_some_iff.mp hfirst
    obtain ⟨c, hc, hfields⟩ := Option.map_eq_some_iff.mp hv
    obtain rfl := ResponsibilityObject.asCommitment_eq_some.mp hc
    rw [Prod.mk.injEq] at hfields
    refine hunshared _ c hstored ?_ hfields.2
    rw [hfields.1]
    decide

end ResponsibilityStore
end PortableRuntime
