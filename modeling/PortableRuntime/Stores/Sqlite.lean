import PortableRuntime.Core.Capabilities
import PortableRuntime.Stores.Leases

/-!
# The SQLite state store

Rows of objects and a table of leases.  The table is the truth about a lease; `getRun`
lays it over the stored run, whose own lease fields are only a mirror.
-/

namespace PortableRuntime

structure LeaseRow where
  owner : Option String
  generation : Int
  expiresAt : Option Time
  heartbeatAt : Option Time
deriving Repr, DecidableEq

def LeaseRow.overlay (lease : LeaseRow) (run : Run) : Run :=
  { run with
    leaseOwner := lease.owner
    leaseGeneration := lease.generation
    leaseExpiresAt := lease.expiresAt
    heartbeatAt := lease.heartbeatAt }

structure SqliteStore where
  records : Records
  leases : Dict String LeaseRow := Dict.empty

namespace SqliteStore

def empty : SqliteStore := { records := fun _ => Dict.empty }

/-- `ORDER BY kind, id`. -/
def exportState (st : SqliteStore) : State :=
  fun k => ((st.records k).entries.insertionSort (fun a b => a.1 ≤ b.1)).map Prod.snd

def put (st : SqliteStore) (k : Kind) (id : String) (value : Model k) : SqliteStore :=
  { st with records := Function.update st.records k ((st.records k).set id value) }

def save (st : SqliteStore) (k : Kind) (value : Model k) : SqliteStore :=
  st.put k (k.identifier value) value

/-- Validate the current graph and persist its delta in one transaction. -/
def atomicGraphSave (now : Time) (st : SqliteStore) (k : Kind) (value : Model k) :
    Result SqliteStore := do
  MemoryStore.rejectUnprovenTerminalWrite k value
  assertValidCandidateWrite now st.exportState k value
  return st.save k value

def saveRun (now : Time) (st : SqliteStore) (value : Run) : Result SqliteStore :=
  st.atomicGraphSave now .run value

def importState (digest : Json → String) (now : Time) (st : SqliteStore) (state : State) :
    Result SqliteStore := do
  let prepared := MemoryStore.asImported state
  MemoryStore.assertImportableEvents prepared.events
  let candidate := MemoryStore.importCandidate st.exportState prepared
  assertValidStateTransition st.exportState candidate prepared
  assertValidStateGraph now candidate
  validateVerifiedOutcomeAuthorityGraph digest now candidate
  return { st with records := fun k => (st.records k).setAll k.identifier (prepared k) }

/-! ## Leases -/

/-- The stored payload of a run. -/
def loadRunPayload (st : SqliteStore) (runId : String) : Option Run :=
  (st.records .run).get? runId

def getRun (st : SqliteStore) (runId : String) : Option Run :=
  (st.loadRunPayload runId).map (fun run => match st.leases.get? runId with
    | none => run
    | some lease => lease.overlay run)

/-- Write the row of a lease and its mirror in the stored run. -/
def writeLease (st : SqliteStore) (runId : String) (run : Run) (lease : LeaseRow) :
    SqliteStore :=
  { st with leases := st.leases.set runId lease }.put .run runId (lease.overlay run)

/-- The lease a run had before the table knew of it. -/
def payloadLease (run : Run) : LeaseRow :=
  { owner := run.leaseOwner, generation := run.leaseGeneration,
    expiresAt := run.leaseExpiresAt, heartbeatAt := run.heartbeatAt }

/-- A different owner may take over only after a known expiry. -/
def leaseBlocks (now : Time) (owner : String) (lease : LeaseRow) : Bool :=
  lease.owner.any (· ≠ owner) && lease.expiresAt.all (now < ·)

/-- The integers a column can hold. -/
def storableInteger (n : Int) : Bool := -9223372036854775808 ≤ n && n ≤ 9223372036854775807

def acquireLease (now : Time) (st : SqliteStore) (runId owner : String) (ttl : Time) :
    Result (Bool × SqliteStore) := do
  guardValue (0 ≤ ttl) "ttl_seconds must be non-negative"
  match st.loadRunPayload runId with
  | none => return (false, st)
  | some run =>
    let current := (st.leases.get? runId).getD (payloadLease run)
    if leaseBlocks now owner current then return (false, st)
    else if storableInteger (current.generation + 1) then
      return (true, st.writeLease runId run
        { owner := some owner, generation := current.generation + 1,
          expiresAt := some (now + ttl), heartbeatAt := some now })
    else .error (.leaseExecutionError s!"SQLite lease acquire failed for {Text.pyRepr runId}")

def renewLease (now : Time) (st : SqliteStore) (runId owner : String) (ttl : Time) :
    Result (Bool × SqliteStore) := do
  guardValue (0 ≤ ttl) "ttl_seconds must be non-negative"
  match st.leases.get? runId with
  | none => return (false, st)
  | some lease =>
    if lease.owner ≠ some owner ∨ lease.expiresAt.all (· ≤ now) then return (false, st)
    else match st.loadRunPayload runId with
      | none => return (false, st)
      | some run =>
        return (true, st.writeLease runId run
          { lease with expiresAt := some (now + ttl), heartbeatAt := some now })

def releaseLease (st : SqliteStore) (runId owner : String) : Result (Bool × SqliteStore) :=
  match st.leases.get? runId with
  | none => return (false, st)
  | some lease =>
    if lease.owner ≠ some owner then return (false, st)
    else match st.loadRunPayload runId with
      | none => return (false, st)
      | some run =>
        return (true, st.writeLease runId run
          { lease with owner := none, expiresAt := none, heartbeatAt := none })

/-- The result of a lease call and the store it leaves. -/
def leaseCall (digest : Json → String) (st : SqliteStore) (c : Clock × LeaseCall) :
    Result (Bool × SqliteStore) :=
  match c.2 with
  | .acquire runId owner ttl => st.acquireLease c.1.wall runId owner ttl
  | .renew runId owner ttl => st.renewLease c.1.wall runId owner ttl
  | .release runId owner => st.releaseLease runId owner
  | .saveRun run => (st.saveRun c.1.wall run).map (true, ·)
  | .importState state => (st.importState digest c.1.wall state).map (true, ·)

/-- A call that raises leaves the store as it was. -/
def leaseStep (digest : Json → String) (st : SqliteStore) (c : Clock × LeaseCall) :
    SqliteStore :=
  match st.leaseCall digest c with
  | .ok (_, st') => st'
  | .error _ => st

def leaseReport (digest : Json → String) (runId : String) (st : SqliteStore)
    (c : Clock × LeaseCall) : Option LeaseReport :=
  match c.2, st.leaseCall digest c with
  | .acquire id owner _, .ok (true, after) =>
    if id = runId then (after.getRun runId).map (fun run => .acquired owner run.leaseGeneration)
    else none
  | .release id owner, .ok (true, _) =>
    if id = runId then
      (st.leases.get? runId).map (fun lease => .released owner lease.generation)
    else none
  | _, _ => none

def leaseReports (digest : Json → String) (runId : String) (st : SqliteStore)
    (calls : List (Clock × LeaseCall)) : List LeaseReport :=
  emitted (leaseStep digest) (leaseReport digest runId) st calls

/-! ## What a lease call leaves behind -/

variable {st st' : SqliteStore} {now : Time} {runId owner : String} {ttl : Time} {b : Bool}

theorem get?_writeLease (st : SqliteStore) (runId id : String) (run : Run) (lease : LeaseRow) :
    (st.writeLease runId run lease).leases.get? id =
      if id = runId then some lease else st.leases.get? id :=
  Dict.get?_set _ _ _ _

/-- The run reads as the row of its lease says. -/
theorem getRun_writeLease (st : SqliteStore) (runId : String) (run : Run) (lease : LeaseRow) :
    (st.writeLease runId run lease).getRun runId = some (lease.overlay run) := by
  rw [getRun, get?_writeLease, if_pos rfl, loadRunPayload, writeLease, put]
  simp [LeaseRow.overlay]

theorem acquireLease_eq_ok (h : st.acquireLease now runId owner ttl = .ok (b, st')) :
    (b = false ∧ st' = st) ∨
    (b = true ∧ ∃ run, st.loadRunPayload runId = some run ∧
      leaseBlocks now owner ((st.leases.get? runId).getD (payloadLease run)) = false ∧
      st' = st.writeLease runId run
        ⟨some owner, ((st.leases.get? runId).getD (payloadLease run)).generation + 1,
          some (now + ttl), some now⟩) := by
  rw [acquireLease, Result.check_eq_ok] at h
  cases hrun : st.loadRunPayload runId with
  | none =>
    simp only [hrun, Result.pure_eq_ok, Prod.mk.injEq] at h
    exact .inl ⟨h.2.1.symm, h.2.2.symm⟩
  | some run =>
    simp only [hrun] at h
    have hacquire := h.2
    split_ifs at hacquire with hblocks hstorable
    · simp only [Result.pure_eq_ok, Prod.mk.injEq] at hacquire
      exact .inl ⟨hacquire.1.symm, hacquire.2.symm⟩
    · simp only [Result.pure_eq_ok, Prod.mk.injEq] at hacquire
      exact .inr ⟨hacquire.1.symm, run, rfl, by simpa using hblocks, hacquire.2.symm⟩

theorem renewLease_eq_ok (h : st.renewLease now runId owner ttl = .ok (b, st')) :
    st' = st ∨ ∃ lease run, st.leases.get? runId = some lease ∧ lease.owner = some owner ∧
      st' = st.writeLease runId run
        { lease with expiresAt := some (now + ttl), heartbeatAt := some now } := by
  rw [renewLease, Result.check_eq_ok] at h
  cases hlease : st.leases.get? runId with
  | none =>
    simp only [hlease, Result.pure_eq_ok, Prod.mk.injEq] at h
    exact .inl h.2.2.symm
  | some lease =>
    simp only [hlease] at h
    have hrenew := h.2
    split_ifs at hrenew with hother
    · simp only [Result.pure_eq_ok, Prod.mk.injEq] at hrenew
      exact .inl hrenew.2.symm
    · obtain ⟨howner, -⟩ := not_or.mp hother
      cases hrun : st.loadRunPayload runId with
      | none =>
        simp only [hrun, Result.pure_eq_ok, Prod.mk.injEq] at hrenew
        exact .inl hrenew.2.symm
      | some run =>
        simp only [hrun, Result.pure_eq_ok, Prod.mk.injEq] at hrenew
        exact .inr ⟨lease, run, rfl, not_not.mp howner, hrenew.2.symm⟩

theorem releaseLease_eq_ok (h : st.releaseLease runId owner = .ok (b, st')) :
    (b = false ∧ st' = st) ∨
    (b = true ∧ ∃ lease run, st.leases.get? runId = some lease ∧ lease.owner = some owner ∧
      st' = st.writeLease runId run
        { lease with owner := none, expiresAt := none, heartbeatAt := none }) := by
  rw [releaseLease] at h
  cases hlease : st.leases.get? runId with
  | none =>
    simp only [hlease, Result.pure_eq_ok, Prod.mk.injEq] at h
    exact .inl ⟨h.1.symm, h.2.symm⟩
  | some lease =>
    simp only [hlease] at h
    split_ifs at h with howner
    · simp only [Result.pure_eq_ok, Prod.mk.injEq] at h
      exact .inl ⟨h.1.symm, h.2.symm⟩
    · cases hrun : st.loadRunPayload runId with
      | none =>
        simp only [hrun, Result.pure_eq_ok, Prod.mk.injEq] at h
        exact .inl ⟨h.1.symm, h.2.symm⟩
      | some run =>
        simp only [hrun, Result.pure_eq_ok, Prod.mk.injEq] at h
        exact .inr ⟨h.1.symm, lease, run, rfl, not_not.mp howner, h.2.symm⟩

end SqliteStore
end PortableRuntime
