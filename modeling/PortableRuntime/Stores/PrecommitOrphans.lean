import PortableRuntime.Core.Dispatch
import PortableRuntime.Stores.StaleWorkers

/-!
# Precommits without a provider call

Every gate between the precommit and the provider aborts the records when it refuses.  The
two exits before those gates do not: the accounting of the action and the provider lookup.
-/

namespace PortableRuntime
namespace ExecutionStore

/-- For every store, request and behaviour of the collaborators in which the writes of an
abort succeed: a side effect leaves no orphan exactly when its accounting and the provider
lookup return and so does the release of its slot, or an exception leaves `execute`. -/
theorem no_orphan_iff {σ : Type} (ops : ExecutionStore σ) {now later : Time} {st st' : σ}
    {request : CapabilityRequest} {records : ExecutionRecordIds} {p : Precommit}
    (permit : InvocationPermit) (c : Collaborators)
    (hside : p.sideEffect = true)
    (hprecommit : ops.precommitExecutionRecords now st request p = .ok (records, st'))
    (hwrites : ∀ code reason, c.refusal permit = .ok (some (code, reason)) →
      ∃ aborted, ops.abortPreinvocationRecords later st' request p.providerId records code reason =
        .ok aborted) :
    ops.NoOrphan records
        (ops.executePrecommitted later st' request p.providerId records p.sideEffect permit c) ↔
      c.recordAction.isOk = true ∧
        (c.Escapes permit ∨ (c.registryGet.isOk = true ∧ c.completeAction = some (.ok ()))) := by
  rw [precommitExecutionRecords, if_pos hside] at hprecommit
  obtain ⟨sid, aid, action, hrunning⟩ := running_of_precommit hprecommit
  have horphaned := not_cancelled_of_running hrunning
  have hreleased := c.releaseSlot_cases
  rw [hside, executePrecommitted, ← Collaborators.releaseSlot_eq_one, Collaborators.Escapes]
  simp only [← Collaborators.releaseSlot_eq_error]
  cases hrecord : c.recordAction with
  | error e =>
    refine iff_of_false ?_ (by simp [Except.isOk, Except.toBool])
    intro h
    exact horphaned (h.aborted rfl rfl).1
  | ok _ =>
    cases hlookup : c.registryGet with
    | error e =>
      -- The lookup fails after the slot was taken: it is released, but nothing is aborted.
      rcases hreleased with hslot | hslot | ⟨e', hslot⟩
      · rw [hslot]
        refine iff_of_false (fun h => horphaned (h.aborted rfl rfl).1) ?_
        simp [Except.isOk, Except.toBool]
      · rw [hslot]
        refine iff_of_false (fun h => horphaned (h.aborted rfl rfl).1) ?_
        simp [Except.isOk, Except.toBool]
      · rw [hslot]
        refine iff_of_true ⟨by simp, by simp⟩ ?_
        simp [Except.isOk, Except.toBool]
    | ok _ =>
      cases hrefusal : c.refusal permit with
      | error e =>
        refine iff_of_true ⟨by simp, by simp⟩ ?_
        simp [Except.isOk, Except.toBool]
      | ok failure =>
        cases failure with
        | some failure =>
          obtain ⟨aborted, habort⟩ := hwrites failure.1 failure.2 hrefusal
          have hcancelled := cancelled_of_abort hrunning habort
          simp only [habort]
          rcases hreleased with hslot | hslot | ⟨e', hslot⟩
          · rw [hslot]
            refine iff_of_true ⟨fun _ _ => ⟨hcancelled, fun _ => Nat.one_pos⟩, by simp⟩ ?_
            simp [Except.isOk, Except.toBool]
          · rw [hslot]
            refine iff_of_false (fun h => absurd ((h.aborted rfl rfl).2 rfl) (Nat.lt_irrefl 0)) ?_
            simp [Except.isOk, Except.toBool]
          · rw [hslot]
            refine iff_of_false (fun h => absurd ((h.aborted rfl rfl).2 rfl) (Nat.lt_irrefl 0)) ?_
            simp [Except.isOk, Except.toBool]
        | none =>
          rcases hreleased with hslot | hslot | ⟨e', hslot⟩
          · rw [hslot]
            refine iff_of_true ⟨by simp, fun _ _ => rfl⟩ ?_
            simp [Except.isOk, Except.toBool]
          · rw [hslot]
            refine iff_of_false (fun h => absurd (h.released rfl rfl) Nat.zero_ne_one) ?_
            simp [Except.isOk, Except.toBool]
          · rw [hslot]
            refine iff_of_false (fun h => absurd (h.released rfl rfl) Nat.zero_ne_one) ?_
            simp [Except.isOk, Except.toBool]

/-! ## A refused dispatch, and a provider that is gone -/

def writing : CapabilityRequest := writeRequest "request_1" "write" "worker_a" 1

def firstWrite : Precommit := precommitOf "step_a" "attempt_a" "action_a"

def openPermit : InvocationPermit :=
  { governanceRequirementDigest := "none", governanceSnapshotDigest := "none" }

/-- Governance blocks the use after the precommit. -/
def blockedUse : Collaborators :=
  { evaluateGovernance := .ok { status := .blocked, reason := "review is open" }
    commitDispatch := { status := .notApplicable } }

/-- The provider was unregistered between its selection and its lookup. -/
def lostProvider : Collaborators :=
  { blockedUse with registryGet := .error (.valueError "unknown provider") }

def memory : ExecutionStore MemoryStore := (MemoryStore.leased (fun _ => "")).toExecutionStore

def precommitted : MemoryStore :=
  (memory.precommitExecutionRecords 1 unleasedStore writing firstWrite).toOption.elim
    unleasedStore Prod.snd

def writtenRecords : ExecutionRecordIds := ⟨some "step_a", some "attempt_a", some "action_a"⟩

theorem precommit_firstWrite :
    memory.precommitExecutionRecords 1 unleasedStore writing firstWrite =
      .ok (writtenRecords, precommitted) := by
  have hrecords : (memory.precommitExecutionRecords 1 unleasedStore writing firstWrite).toOption.map
      Prod.fst = some writtenRecords := by decide
  obtain ⟨r, hr⟩ := Result.exists_of_isOk
    (x := memory.precommitExecutionRecords 1 unleasedStore writing firstWrite) (by decide)
  rw [hr] at hrecords
  have hstore : precommitted = r.2 := by
    rw [precommitted, hr]
    rfl
  rw [hr, hstore, ← Option.some.inj hrecords]

theorem no_orphan_blockedUse :
    memory.NoOrphan writtenRecords (memory.executePrecommitted 2 precommitted writing "provider_1"
      writtenRecords true openPermit blockedUse) := by
  refine (no_orphan_iff memory openPermit blockedUse rfl precommit_firstWrite ?_).mpr
    ⟨rfl, .inr ⟨rfl, rfl⟩⟩
  intro code reason hrefusal
  obtain ⟨rfl, rfl⟩ := Prod.mk.inj (Option.some.inj (Except.ok.inj hrefusal))
  exact Result.exists_of_isOk (by decide)

/-- The records of a lost provider stay running. -/
theorem lostProvider_orphaned :
    ¬ ∀ (σ : Type) (ops : ExecutionStore σ) (now later : Time) (st st' : σ)
      (request : CapabilityRequest) (records : ExecutionRecordIds) (p : Precommit)
      (permit : InvocationPermit) (c : Collaborators), p.sideEffect = true →
      ops.precommitExecutionRecords now st request p = .ok (records, st') →
      (∀ code reason, c.refusal permit = .ok (some (code, reason)) →
        ∃ aborted, ops.abortPreinvocationRecords later st' request p.providerId records code
          reason = .ok aborted) →
      ops.NoOrphan records
        (ops.executePrecommitted later st' request p.providerId records p.sideEffect permit c) := by
  intro h
  have horphan := h MemoryStore memory 1 2 unleasedStore precommitted writing writtenRecords
    firstWrite openPermit lostProvider rfl precommit_firstWrite ?_
  · obtain ⟨⟨⟨id, hid, hstatus⟩, -, -⟩, -⟩ := horphan.aborted rfl rfl
    obtain rfl := Option.some.inj hid
    exact absurd hstatus (by decide)
  · intro code reason hrefusal
    obtain ⟨rfl, rfl⟩ := Prod.mk.inj (Option.some.inj (Except.ok.inj hrefusal))
    exact Result.exists_of_isOk (by decide)

end ExecutionStore
end PortableRuntime
