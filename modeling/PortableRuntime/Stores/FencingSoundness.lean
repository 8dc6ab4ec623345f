import PortableRuntime.Stores.LeaseExclusion

/-!
# Fencing against the table of leases

A release keeps the generation and clears the owner and the expiry, and the check reads a
cleared field as nothing to compare.  So it is the name of the owner that fences: while
the row names one, only the holder passes.
-/

namespace PortableRuntime

open LeaseReport

namespace SqliteStore

variable {st : SqliteStore} {runId : String}

/-- The request passes fencing against the run as the store reads it. -/
def Accepts (st : SqliteStore) (request : CapabilityRequest) (runId : String) (now : Time) :
    Prop :=
  (validateFencing request (st.getRun runId) now).1 = true

/-- The owner that the request names holds the lease: it acquired it last and has not
released it, under the generation that the request names, and the lease is unexpired. -/
def HeldByRequest (log : List LeaseReport) (lease : LeaseRow) (request : CapabilityRequest)
    (now : Time) : Prop :=
  ∃ owner, holder log = some owner ∧ extractLeaseOwner request = some owner ∧
    (generations log).getLast? = some request.leaseGeneration ∧
    ∃ expiresAt, lease.expiresAt = some expiresAt ∧ now < expiresAt

/-- No expiry of the row has come. -/
def Unexpired (lease : LeaseRow) (now : Time) : Prop :=
  ∀ expiresAt, lease.expiresAt = some expiresAt → now < expiresAt

/-- The row has what the check needs to tell the request from the holder's: an owner with
a name, or a generation that the request misses or an expiry that has passed.  An owner
without a name counts only for a request that presents the empty name itself. -/
def FencedOff (lease : LeaseRow) (request : CapabilityRequest) (now : Time) : Prop :=
  truthy lease.owner = true ∨
  (lease.generation ≠ 0 ∧
    (request.leaseGeneration ≠ lease.generation ∨ ¬ Unexpired lease now)) ∨
  (lease.owner = some "" ∧ extractLeaseOwner request = some "" ∧
    (lease.generation ≠ 0 ∨ (request.leaseGeneration = 0 ∧ Unexpired lease now)))

namespace Ledger

variable {log : List LeaseReport} {lease : LeaseRow} {request : CapabilityRequest} {now : Time}

/-- What fencing accepts, read off the row. -/
theorem accepts_iff (h : Ledger runId log st) (hrow : st.leases.get? runId = some lease)
    (hrequest : request.runId = some runId) :
    Accepts st request runId now ↔
      (truthy lease.owner = false ∧ lease.generation = 0) ∨
      (request.leaseGeneration = lease.generation ∧
        (truthy lease.owner = true → extractLeaseOwner request = lease.owner) ∧
        Unexpired lease now) := by
  obtain ⟨run, hrun⟩ := Option.isSome_iff_exists.mp (h.stored lease hrow)
  obtain ⟨payload, -, hoverlay⟩ := Option.map_eq_some_iff.mp hrun
  simp only [hrow] at hoverlay
  rw [Accepts, hrun, validateFencing_eq_true hrequest, ← hoverlay]
  rfl

/-- Holding the lease, read off the row. -/
theorem heldByRequest_iff (h : Ledger runId log st) (hrow : st.leases.get? runId = some lease) :
    HeldByRequest log lease request now ↔
      lease.owner ≠ none ∧ extractLeaseOwner request = lease.owner ∧
      request.leaseGeneration = lease.generation ∧ Unexpired lease now := by
  have hholder : LeaseReport.holder log = lease.owner := by rw [h.holder, hrow]; rfl
  have hlast : (generations log).getLast? = some lease.generation := by rw [h.last, hrow]; rfl
  have hexpiry := h.expiry lease hrow
  rw [HeldByRequest, hholder, hlast]
  constructor
  · rintro ⟨owner, howner, hpresented, hgeneration, expiresAt, hexpires, hunexpired⟩
    refine ⟨by simp [howner], hpresented.trans howner.symm, (Option.some.inj hgeneration).symm, ?_⟩
    intro expiresAt' hexpires'
    rwa [← Option.some.inj (hexpires.symm.trans hexpires')]
  · rintro ⟨howned, hpresented, hgeneration, hunexpired⟩
    obtain ⟨owner, howner⟩ := Option.ne_none_iff_exists'.mp howned
    have hexpires : lease.expiresAt ≠ none := fun hnone => howned (hexpiry.mpr hnone)
    obtain ⟨expiresAt, hexpiresAt⟩ := Option.ne_none_iff_exists'.mp hexpires
    exact ⟨owner, howner, hpresented.trans howner, by rw [hgeneration], expiresAt, hexpiresAt,
      hunexpired expiresAt hexpiresAt⟩

end Ledger

/-- For every history of a store without leases, every run whose lease has a row, every
request that names the run and every time: fencing is sound for that request exactly when
the row fences it off. -/
theorem fencing_sound_iff (digest : Json → String) (start : SqliteStore)
    (hfresh : start.leases = Dict.empty) (calls : List (Clock × LeaseCall)) (runId : String)
    (lease : LeaseRow)
    (hleased : (run (leaseStep digest) start calls).leases.get? runId = some lease)
    (request : CapabilityRequest) (hrequest : request.runId = some runId) (now : Time) :
    (Accepts (run (leaseStep digest) start calls) request runId now →
      HeldByRequest (start.leaseReports digest runId calls) lease request now) ↔
    FencedOff lease request now := by
  have h := ledger_of_run digest runId hfresh calls
  rw [h.accepts_iff hleased hrequest, h.heldByRequest_iff hleased]
  have hexpiry := h.expiry lease hleased
  rw [FencedOff]
  cases howner : lease.owner with
  | none =>
    have hunexpired : Unexpired lease now := by
      intro expiresAt hexpires
      exact absurd ((hexpiry.mp howner).symm.trans hexpires) (by simp)
    by_cases hzero : lease.generation = 0
    · simp [truthy, hzero]
    · by_cases hgeneration : request.leaseGeneration = lease.generation
      · simp [truthy, hzero, hgeneration, hunexpired]
      · simp [truthy, hzero, hgeneration]
  | some owner =>
    by_cases hname : owner = ""
    · -- An owner without a name is compared with nobody, and an unleased row with nothing.
      by_cases hzero : lease.generation = 0
      · simp [truthy, hname, hzero]
      · by_cases hgeneration : request.leaseGeneration = lease.generation
        · by_cases hunexpired : Unexpired lease now
          · simp [truthy, hname, hzero, hgeneration, hunexpired]
          · simp [truthy, hname, hzero, hgeneration, hunexpired]
        · simp [truthy, hname, hzero, hgeneration]
    · have htext : truthy (some owner) = true := truthy_eq_true.mpr ⟨owner, rfl, hname⟩
      constructor
      · intro _
        exact .inl htext
      · rintro - (⟨hfalse, -⟩ | ⟨hgeneration, howned, hunexpired⟩)
        · exact absurd (htext.symm.trans hfalse) (by simp)
        · exact ⟨by simp, howned htext, hgeneration, hunexpired⟩

/-! ## The holder, and a worker that released -/

def providerRequest (owner : String) : CapabilityRequest :=
  { id := "request_1", capability := "generic.write", runId := some "run_1",
    leaseGeneration := 1, leaseOwner := some owner }

def held : LeaseRow := ⟨some "worker_a", 1, some 30, some 0⟩

def released : LeaseRow := ⟨none, 1, none, none⟩

theorem fencing_sound_holder :
    HeldByRequest (unleasedTable.leaseReports (fun _ => "") "run_1" (handover.take 1)) held
      (providerRequest "worker_a") 5 := by
  refine (fencing_sound_iff (fun _ => "") unleasedTable rfl (handover.take 1) "run_1" held rfl
    (providerRequest "worker_a") rfl 5).mpr (.inl (by decide)) ?_
  rw [Accepts]
  decide

/-- After the release anybody who presents the old generation passes, the worker that
released included. -/
theorem released_generation_passes :
    ¬ ∀ (digest : Json → String) (start : SqliteStore) (calls : List (Clock × LeaseCall))
      (runId : String) (lease : LeaseRow) (request : CapabilityRequest) (now : Time),
      start.leases = Dict.empty → request.runId = some runId →
      (run (leaseStep digest) start calls).leases.get? runId = some lease →
      Accepts (run (leaseStep digest) start calls) request runId now →
      HeldByRequest (start.leaseReports digest runId calls) lease request now := by
  intro h
  have hheld := h (fun _ => "") unleasedTable (handover.take 2) "run_1" released
    (providerRequest "worker_a") 5 rfl rfl rfl (by rw [Accepts]; decide)
  obtain ⟨owner, howner, -⟩ := hheld
  have hnobody : holder (unleasedTable.leaseReports (fun _ => "") "run_1" (handover.take 2)) = none :=
    rfl
  exact absurd (hnobody.symm.trans howner) (by simp)

end SqliteStore
end PortableRuntime
