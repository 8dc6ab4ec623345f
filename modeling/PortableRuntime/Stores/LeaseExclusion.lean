import PortableRuntime.Stores.LeaseLedger

/-!
# Lease exclusion and increasing generations

The table of the SQLite store issues increasing generations whatever is written to the
run.  The in-memory store forgets a lease when it is released, so it depends on the
mirror that a stale save of the run overwrites.
-/

namespace PortableRuntime

open LeaseReport

namespace MemoryStore

variable {digest : Json → String} {st : MemoryStore} {runId : String}

/-- `MirrorsReturned` at every call of a history. -/
def MirrorKept (digest : Json → String) (runId : String) :
    List LeaseReport → MemoryStore → List (Clock × LeaseCall) → Prop
  | _, _, [] => True
  | log, st, c :: rest => MirrorsReturned runId log st c ∧
    MirrorKept digest runId (log ++ (leaseReport runId st c).toList) (st.leaseStep digest c) rest

/-- Nobody acquires the lease of `runId` while another owner's is unexpired. -/
def Exclusive (runId : String) (log : List LeaseReport) (st : MemoryStore) : Prop :=
  ∀ clock owner other ttl lease, holder log = some owner → other ≠ owner →
    st.leases.get? runId = some lease → clock.monotonic < lease.expiresAt →
    st.acquireLease clock runId other ttl = (false, st)

theorem Held.exclusive {log : List LeaseReport} (h : Held runId log st) :
    Exclusive runId log st := by
  intro clock owner other ttl lease hholder hother hlease hunexpired
  have howner : lease.owner = owner := by
    have := h.holder.symm.trans hholder
    rw [hlease] at this
    exact Option.some.inj this
  refine acquireLease_blocked ttl ?_
  rw [hlease, Option.any_some, leaseBlocks]
  simp [hunexpired, howner, Ne.symm hother]

theorem held_of_run (digest : Json → String) (hfresh : st.leases = Dict.empty)
    (hrun : (st.getRun runId).isSome) (calls : List (Clock × LeaseCall)) :
    Held runId (st.leaseReports digest runId calls) (run (leaseStep digest) st calls) := by
  have hstart : Held runId [] st := ⟨hrun, by simp [hfresh, holder]⟩
  exact emitted_invariant (J := Held runId) (fun log s c h => h.leaseStep digest c) hstart

/-- The generations of a history increase exactly when every acquisition of a free lease
finds the returned generations in the mirror. -/
theorem mirrorKept_iff {log : List LeaseReport} (calls : List (Clock × LeaseCall)) :
    Ledger runId log st → Held runId log st →
      (MirrorKept digest runId log st calls ↔
        (generations (log ++ st.leaseReports digest runId calls)).Pairwise (· < ·)) := by
  induction calls generalizing log st with
  | nil =>
    intro hledger _
    simpa [MirrorKept, leaseReports, emitted] using hledger.increasing
  | cons c rest ih =>
    intro hledger hheld
    obtain ⟨hkeeps, hrepeats⟩ := hledger.leaseStep digest hheld.stored c
    have hlog : log ++ st.leaseReports digest runId (c :: rest) =
        log ++ (leaseReport runId st c).toList ++
          (st.leaseStep digest c).leaseReports digest runId rest := by
      rw [leaseReports, emitted, List.append_assoc]
      rfl
    rw [hlog, MirrorKept]
    constructor
    · intro hkept
      exact (ih (hkeeps hkept.1) (hheld.leaseStep digest c)).mp hkept.2
    · intro hincreasing
      have hhere : MirrorsReturned runId log st c := by
        by_contra hstale
        refine hrepeats hstale ?_
        rw [generations, List.filterMap_append] at hincreasing
        exact (List.pairwise_append.mp hincreasing).1
      exact ⟨hhere, (ih (hkeeps hhere) (hheld.leaseStep digest c)).mpr hincreasing⟩

theorem ledger_of_fresh (hfresh : st.leases = Dict.empty) : Ledger runId [] st := by
  refine ⟨.nil, ?_, ?_, ?_, ?_⟩ <;> simp [hfresh, generations, returnedGenerations]

end MemoryStore

namespace SqliteStore

variable {st : SqliteStore} {runId : String}

/-- Nobody acquires the lease of `runId` while another owner's is unexpired. -/
def Exclusive (runId : String) (log : List LeaseReport) (st : SqliteStore) : Prop :=
  ∀ now owner other ttl lease expiresAt result, holder log = some owner → other ≠ owner →
    st.leases.get? runId = some lease → lease.expiresAt = some expiresAt → now < expiresAt →
    st.acquireLease now runId other ttl = .ok result → result = (false, st)

theorem Ledger.exclusive {log : List LeaseReport} (h : Ledger runId log st) :
    Exclusive runId log st := by
  intro now owner other ttl lease expiresAt result hholder hother hlease hexpiry hunexpired hcall
  have howner : lease.owner = some owner := by
    have := h.holder.symm.trans hholder
    rwa [hlease] at this
  rcases acquireLease_eq_ok hcall with ⟨hrefused, hsame⟩ | ⟨-, run, -, hfree, -⟩
  · exact Prod.ext hrefused hsame
  · rw [hlease, Option.getD_some, leaseBlocks, howner, hexpiry] at hfree
    simp [hunexpired, Ne.symm hother] at hfree

end SqliteStore

/-- For every history of lease calls, stale saves and imports from a store without
leases: the in-memory store issues increasing generations exactly when each acquisition
of a free lease finds the returned generations in the mirror, the SQLite store always
does, and neither grants a lease that another owner holds unexpired. -/
theorem leases_exclusive (digest : Json → String) (runId : String)
    (calls : List (Clock × LeaseCall)) :
    (∀ st : MemoryStore, st.leases = Dict.empty → (st.getRun runId).isSome →
      (MemoryStore.MirrorKept digest runId [] st calls ↔
        (generations (st.leaseReports digest runId calls)).Pairwise (· < ·)) ∧
      MemoryStore.Exclusive runId (st.leaseReports digest runId calls)
        (run (MemoryStore.leaseStep digest) st calls)) ∧
    (∀ st : SqliteStore, st.leases = Dict.empty →
      (generations (st.leaseReports digest runId calls)).Pairwise (· < ·) ∧
      SqliteStore.Exclusive runId (st.leaseReports digest runId calls)
        (run (SqliteStore.leaseStep digest) st calls)) := by
  constructor
  · intro st hfresh hrun
    have hheld := MemoryStore.held_of_run digest hfresh hrun []
    refine ⟨?_, (MemoryStore.held_of_run digest hfresh hrun calls).exclusive⟩
    exact MemoryStore.mirrorKept_iff calls (MemoryStore.ledger_of_fresh hfresh) hheld
  · intro st hfresh
    have hledger := SqliteStore.ledger_of_run digest runId hfresh calls
    exact ⟨hledger.increasing, hledger.exclusive⟩

/-! ## A mirror that shows the lease, and a stale one -/

/-- A run nobody has leased. -/
def queuedRun : Run := { id := "run_1", createdAt := 0, workId := "work_1" }

def queuedWork : Work := { id := "work_1", createdAt := 0, title := "", updatedAt := 0 }

def unleasedStore : MemoryStore :=
  (MemoryStore.empty.save .work queuedWork).save .run queuedRun

def unleasedTable : SqliteStore :=
  (SqliteStore.empty.save .work queuedWork).save .run queuedRun

def handover : List (Clock × LeaseCall) :=
  [(⟨0, 0⟩, .acquire "run_1" "worker_a" 30), (⟨1, 1⟩, .release "run_1" "worker_a"),
   (⟨2, 2⟩, .acquire "run_1" "worker_b" 30)]

/-- Between the acquisition and the release the run is saved as it was before. -/
def staleHandover : List (Clock × LeaseCall) :=
  [(⟨0, 0⟩, .acquire "run_1" "worker_a" 30), (⟨0, 0⟩, .saveRun queuedRun),
   (⟨1, 1⟩, .release "run_1" "worker_a"), (⟨2, 2⟩, .acquire "run_1" "worker_b" 30)]

theorem leases_exclusive_handover :
    (generations (unleasedStore.leaseReports (fun _ => "") "run_1" handover)).Pairwise (· < ·) ∧
      (generations (unleasedTable.leaseReports (fun _ => "") "run_1" staleHandover)).Pairwise
        (· < ·) := by
  refine ⟨(((leases_exclusive (fun _ => "") "run_1" handover).1 unleasedStore rfl rfl).1).mp ?_,
    ((leases_exclusive (fun _ => "") "run_1" staleHandover).2 unleasedTable rfl).1⟩
  refine ⟨?_, ?_, ?_, trivial⟩
  · intro _ _ _ _ g hg
    exact absurd hg List.not_mem_nil
  · intro _ _ h
    exact absurd h (by simp)
  · intro _ _ _ _ g hg
    have hone : g ∈ [(1 : Int)] := hg
    exact (List.mem_singleton.mp hone).le

/-- Two workers hold one generation of the in-memory store. -/
theorem staleHandover_repeats_generation :
    ¬ ∀ (digest : Json → String) (st : MemoryStore) (runId : String)
      (calls : List (Clock × LeaseCall)), st.leases = Dict.empty → (st.getRun runId).isSome →
      (generations (st.leaseReports digest runId calls)).Pairwise (· < ·) := by
  intro h
  have hlist := h (fun _ => "") unleasedStore "run_1" staleHandover rfl rfl
  have hgenerations : generations
      (unleasedStore.leaseReports (fun _ => "") "run_1" staleHandover) = [1, 1] := by
    decide
  rw [hgenerations] at hlist
  exact absurd hlist (by decide)

end PortableRuntime
