import PortableRuntime.Stores.Memory

/-!
# Leases of a run

The calls that meet on the lease of a run, what they report to their callers, and the
lease of the in-memory store.  Its truth is a dictionary of its own, which a release
deletes from; the stored run only mirrors it.
-/

namespace PortableRuntime

/-- The clock readings of a call. -/
structure Clock where
  wall : Time
  monotonic : Time
deriving Repr, DecidableEq

inductive LeaseCall where
  | acquire (runId owner : String) (ttl : Time)
  | renew (runId owner : String) (ttl : Time)
  | release (runId owner : String)
  | saveRun (run : Run)
  | importState (state : State)

/-- A successful call on the lease of one run: who acquired which generation, and who
gave which one back. -/
inductive LeaseReport where
  | acquired (owner : String) (generation : Int)
  | released (owner : String) (generation : Int)
deriving Repr, DecidableEq

namespace LeaseReport

def issued : LeaseReport → Option Int
  | acquired _ generation => some generation
  | released _ _ => none

def returned : LeaseReport → Option Int
  | acquired _ _ => none
  | released _ generation => some generation

/-- The generations that were issued, in order. -/
def generations (reports : List LeaseReport) : List Int := reports.filterMap issued

def returnedGenerations (reports : List LeaseReport) : List Int := reports.filterMap returned

def nextHolder : Option String → LeaseReport → Option String
  | _, acquired owner _ => some owner
  | _, released _ _ => none

/-- Who acquired the lease last, unless it was released since. -/
def holder (reports : List LeaseReport) : Option String := reports.foldl nextHolder none

theorem generations_append (reports : List LeaseReport) (r : LeaseReport) :
    generations (reports ++ [r]) = generations reports ++ r.issued.toList := by
  cases r <;> simp [generations, issued]

theorem returnedGenerations_append (reports : List LeaseReport) (r : LeaseReport) :
    returnedGenerations (reports ++ [r]) = returnedGenerations reports ++ r.returned.toList := by
  cases r <;> simp [returnedGenerations, returned]

theorem holder_append (reports : List LeaseReport) (r : LeaseReport) :
    holder (reports ++ [r]) = nextHolder (holder reports) r := by
  simp [holder]

end LeaseReport

namespace MemoryStore

def setLease (st : MemoryStore) (runId : String) (lease : Lease) : MemoryStore :=
  { st with leases := st.leases.set runId lease }

/-- The generation an acquisition issues: one more than the lease's, and above that of a
stored run which disagrees with the lease. -/
def nextGeneration (st : MemoryStore) (runId : String) : Int :=
  let current := (st.leases.get? runId).elim 0 Lease.generation
  match st.getRun runId with
  | none => current + 1
  | some run =>
    if run.leaseGeneration ≠ 0 ∧ run.leaseGeneration ≠ current then
      max (current + 1) (run.leaseGeneration + 1)
    else current + 1

/-- Another owner's lease stands in the way until it expires. -/
def leaseBlocks (clock : Clock) (owner : String) (lease : Lease) : Bool :=
  clock.monotonic < lease.expiresAt && lease.owner ≠ owner

def acquireLease (clock : Clock) (st : MemoryStore) (runId owner : String) (ttl : Time) :
    Bool × MemoryStore :=
  if (st.leases.get? runId).any (leaseBlocks clock owner) then (false, st)
  else
    let generation := st.nextGeneration runId
    let expiresAt := clock.wall + ttl
    let leased := st.setLease runId { owner, expiresAt := clock.monotonic + ttl, generation }
    match leased.getRun runId with
    | none => (true, leased)
    | some run =>
      (true, leased.put .run runId
        { run with
          leaseOwner := some owner
          leaseGeneration := generation
          leaseExpiresAt := some expiresAt
          heartbeatAt := some expiresAt })

def renewLease (clock : Clock) (st : MemoryStore) (runId owner : String) (ttl : Time) :
    Bool × MemoryStore :=
  match st.leases.get? runId with
  | none => (false, st)
  | some lease =>
    if lease.owner ≠ owner ∨ lease.expiresAt ≤ clock.monotonic then (false, st)
    else
      let expiresAt := clock.wall + ttl
      let renewed := st.setLease runId { lease with expiresAt := clock.monotonic + ttl }
      match renewed.getRun runId with
      | none => (true, renewed)
      | some run =>
        -- The lease is renewed already when the mirror turns out to name another owner.
        if run.leaseOwner ≠ some owner then (false, renewed)
        else
          (true, renewed.put .run runId
            { run with leaseExpiresAt := some expiresAt, heartbeatAt := some expiresAt })

def releaseLease (st : MemoryStore) (runId owner : String) : Bool × MemoryStore :=
  match st.leases.get? runId with
  | none => (false, st)
  | some lease =>
    if lease.owner ≠ owner then (false, st)
    else
      let freed := { st with leases := st.leases.erase runId }
      match freed.getRun runId with
      | none => (true, freed)
      | some run =>
        if run.leaseOwner = some owner then
          (true, freed.put .run runId { run with leaseOwner := none })
        else (true, freed)

def leaseStep (digest : Json → String) (st : MemoryStore) (c : Clock × LeaseCall) :
    MemoryStore :=
  match c.2 with
  | .acquire runId owner ttl => (st.acquireLease c.1 runId owner ttl).2
  | .renew runId owner ttl => (st.renewLease c.1 runId owner ttl).2
  | .release runId owner => (st.releaseLease runId owner).2
  | .saveRun run => st.step digest (c.1.wall, .save .run run)
  | .importState state => st.step digest (c.1.wall, .importState state)

/-- What a call reports on the lease of `runId`.  The generation of an acquisition is the
one its caller reads from the run. -/
def leaseReport (runId : String) (st : MemoryStore) (c : Clock × LeaseCall) :
    Option LeaseReport :=
  match c.2 with
  | .acquire id owner ttl =>
    let (acquired, after) := st.acquireLease c.1 id owner ttl
    if id = runId ∧ acquired then
      (after.getRun runId).map (fun run => .acquired owner run.leaseGeneration)
    else none
  | .release id owner =>
    if id = runId ∧ (st.releaseLease id owner).1 then
      (st.leases.get? runId).map (fun lease => .released owner lease.generation)
    else none
  | _ => none

/-- What the callers of a sequence of calls have been told about the lease of `runId`. -/
def leaseReports (digest : Json → String) (runId : String) (st : MemoryStore)
    (calls : List (Clock × LeaseCall)) : List LeaseReport :=
  emitted (leaseStep digest) (leaseReport runId) st calls

end MemoryStore
end PortableRuntime
