import PortableRuntime.Python.Equality
import PortableRuntime.Stores.Calls

/-!
# Threads on one in-memory store

`append_event` looks at the commit counters before it takes the lock.  A guarded commit takes the
lock, prepares its writes, raises its counter, appends, lowers the counter and closes its
transaction; every other method runs in one piece under the lock.  The lock is reentrant, and each
transaction of its holder keeps a snapshot.
-/

namespace PortableRuntime

deriving instance DecidableEq for RuntimeModel
deriving instance DecidableEq for Event

namespace MemoryStore

/-- The gates of `append_event`, which read the counters without the lock. -/
def passGates (depth : CommitAuthority → Nat) (event : Event) : Result Unit :=
  match requiredAuthority event with
  | some (authority, message) => guardValue (0 < depth authority) message
  | none => .ok ()

/-- The part of `append_event` under the lock. -/
def journalWrite (st : MemoryStore) (value : Event) : Result MemoryStore :=
  match st.getEvent value.id with
  | some existing =>
    if sameEvent existing value then .ok st
    else raiseValue s!"event journal is append-only: refusing to overwrite event {Text.pyRepr value.id}"
  | none => .ok (st.save .event value)

def saveRecords (st : MemoryStore) (records : List BaseRecord) : MemoryStore :=
  records.foldl (fun st r => st.save .record r) st

/-- The methods that run in one piece under the lock: all but the appends and the guarded
commits. -/
def Op.inOnePiece : Op → Bool
  | .save .event _ => false
  | .commitEvents _ _ => false
  | .commitHistoricalExperienceUse _ => false
  | _ => true

end MemoryStore

open MemoryStore

/-- The records that a commit stores beside its events. -/
structure GuardedWrites where
  records : List BaseRecord := []
  events : List Event

/-- A commit of events of one authority: what it decides from the store it reads, where `none`
is an exact replay, and its closing check. -/
structure GuardedCommit where
  authority : CommitAuthority
  prepare : MemoryStore → Result (Option GuardedWrites)
  close : State → Result Unit := fun _ => .ok ()

namespace GuardedCommit

/-- `commit_outcome_impact_judgment` and the commits of recovery events. -/
def ofEvents (authority : CommitAuthority) (plan : MemoryStore → Result CommitPlan) :
    GuardedCommit where
  authority := authority
  prepare st := do
    match ← plan st with
    | .replayed => return none
    | .append events => return some { events }

/-- `commit_historical_experience_use`. -/
def ofExperienceUse (now : Time) (use : HistoricalExperienceUse) : GuardedCommit where
  authority := .historicalExperienceUse
  prepare st :=
    match st.getEvent use.eventId, st.getRecord use.judgment.id with
    | some _, none =>
      raiseValue "Historical Experience Use authority graph is incomplete: judgment missing"
    | some _, some _ => do
      use.replay st.exportState
      use.authorityGraph st.exportState
      return none
    | none, some _ =>
      raiseValue "retroactive Historical Experience Use backfill onto an existing judgment is closed"
    | none, none => do
      st.validateRecordWriteSemantics use.judgment
      st.validateCandidateWrite now .record use.judgment
      let event ← use.bind st.exportState
      return some { records := [use.judgment], events := [event] }
  close := use.authorityGraph

/-- The commit with nobody else at work. -/
def whole (c : GuardedCommit) (st : MemoryStore) : Result MemoryStore := do
  match ← c.prepare st with
  | none => return st
  | some writes =>
    let st' ← (st.saveRecords writes.records).appendEvents (some c.authority) writes.events
    c.close st'.exportState
    return st'

end GuardedCommit

abbrev ThreadId := Nat

/-- The writing of one event by a commit: what the commit had prepared, from which store, and
the store in which it wrote the event. -/
structure Minting where
  commit : GuardedCommit
  basis : MemoryStore
  writes : GuardedWrites
  earlier : List Event
  before : MemoryStore
  event : Event

/-- What a thread is in the middle of. -/
inductive Phase where
  | idle
  /-- `append_event` has passed the gates and waits for the lock. -/
  | checked (event : Event)
  | prepared (commit : GuardedCommit) (basis : MemoryStore) (writes : GuardedWrites)
  /-- The counter is raised and the events `earlier` are written. -/
  | raised (commit : GuardedCommit) (basis : MemoryStore) (writes : GuardedWrites)
      (earlier later : List Event)
  | closing (commit : GuardedCommit)
  /-- An append of the commit has raised; the counter is still up. -/
  | failing (commit : GuardedCommit)
  | failed (commit : GuardedCommit)

/-- What a transaction restores when it fails. -/
structure Snapshot where
  store : MemoryStore
  mintedBy : String → Option Minting

/-- `mintedBy` is a history variable: the commit that wrote the event under an identity, if a
commit wrote it. -/
structure ThreadedStore where
  store : MemoryStore := .empty
  depth : CommitAuthority → Nat := fun _ => 0
  lock : Option (ThreadId × List Snapshot) := none
  phase : ThreadId → Phase := fun _ => .idle
  mintedBy : String → Option Minting := fun _ => none

inductive Call where
  | appendEvent (event : Event)
  | commit (commit : GuardedCommit)
  | locked (now : Time) (op : {op : MemoryStore.Op // op.inOnePiece = true})

/-- What a thread does next: call a method, go on with the one it is in, or begin or end a
transaction of its own. -/
inductive ThreadedStore.Move where
  | call (t : ThreadId) (call : Call)
  | resume (t : ThreadId)
  | enter (t : ThreadId)
  | leave (t : ThreadId) (raises : Bool)

namespace ThreadedStore

def available (s : ThreadedStore) (t : ThreadId) : Bool :=
  match s.lock with
  | none => true
  | some (holder, _) => holder == t

def setPhase (s : ThreadedStore) (t : ThreadId) (p : Phase) : ThreadedStore :=
  { s with phase := Function.update s.phase t p }

def setDepth (s : ThreadedStore) (a : CommitAuthority) (n : Nat) : ThreadedStore :=
  { s with depth := Function.update s.depth a n }

/-- The store after a write, with `minting` as the history of what has changed in the journal. -/
def wrote (s : ThreadedStore) (minting : Option Minting) (st : MemoryStore) : ThreadedStore :=
  { s with
    store := st
    mintedBy := fun id => if st.getEvent id = s.store.getEvent id then s.mintedBy id else minting }

def snapshots (s : ThreadedStore) : List Snapshot := (s.lock.map Prod.snd).getD []

def enter (s : ThreadedStore) (t : ThreadId) : ThreadedStore :=
  { s with lock := some (t, { store := s.store, mintedBy := s.mintedBy } :: s.snapshots) }

/-- End the innermost transaction of the holder. -/
def leave (s : ThreadedStore) (raises : Bool) : ThreadedStore :=
  match s.lock with
  | some (holder, snapshot :: rest) =>
    { s with
      store := if raises then snapshot.store else s.store
      mintedBy := if raises then snapshot.mintedBy else s.mintedBy
      lock := if rest.isEmpty then none else some (holder, rest) }
  | _ => s

/-- The first step of a call.  A thread that finds the lock taken has not begun. -/
def start (digest : Json → String) (s : ThreadedStore) (t : ThreadId) : Call → ThreadedStore
  | .appendEvent event =>
    match passGates s.depth event with
    | .ok _ => s.setPhase t (.checked event)
    | .error _ => s
  | .commit commit =>
    if !s.available t then s
    else match commit.prepare s.store with
      | .ok (some writes) =>
        { s.enter t with store := s.store.saveRecords writes.records }.setPhase t
          (.prepared commit s.store writes)
      | _ => s
  | .locked now op =>
    if !s.available t then s
    else match s.store.call digest now op.1 with
      | .ok st => s.wrote none st
      | .error _ => s

/-- The next step of the call that a thread is in. -/
def resume (s : ThreadedStore) (t : ThreadId) : ThreadedStore :=
  match s.phase t with
  | .idle => s
  | .checked event =>
    if !s.available t then s
    else match s.store.journalWrite event with
      | .ok st => (s.wrote none st).setPhase t .idle
      | .error _ => s.setPhase t .idle
  | .prepared commit basis writes =>
    (s.setDepth commit.authority (s.depth commit.authority + 1)).setPhase t
      (.raised commit basis writes [] writes.events)
  | .raised commit basis writes earlier (event :: later) =>
    match passGates s.depth event >>= fun _ => s.store.journalWrite event with
    | .ok st =>
      (s.wrote (some { commit, basis, writes, earlier, before := s.store, event }) st).setPhase t
        (.raised commit basis writes (earlier ++ [event]) later)
    | .error _ => s.setPhase t (.failing commit)
  | .raised commit _ _ _ [] =>
    (s.setDepth commit.authority (s.depth commit.authority - 1)).setPhase t (.closing commit)
  | .failing commit =>
    (s.setDepth commit.authority (s.depth commit.authority - 1)).setPhase t (.failed commit)
  | .closing commit => (s.leave (!(commit.close s.store.exportState).isOk)).setPhase t .idle
  | .failed _ => (s.leave true).setPhase t .idle

def isIdle (s : ThreadedStore) (t : ThreadId) : Bool :=
  match s.phase t with
  | .idle => true
  | _ => false

def holds (s : ThreadedStore) (t : ThreadId) : Bool := s.lock.any (fun l => l.1 == t)

def step (digest : Json → String) (s : ThreadedStore) : Move → ThreadedStore
  | .call t call => if s.isIdle t then s.start digest t call else s
  | .resume t => s.resume t
  | .enter t => if s.isIdle t && s.available t then s.enter t else s
  | .leave t raises => if s.isIdle t && s.holds t then s.leave raises else s

end ThreadedStore

/-! ## A commit that nobody interrupts -/

namespace GuardedCommit

theorem whole_ofEvents (authority : CommitAuthority) (plan : MemoryStore → Result CommitPlan)
    (st : MemoryStore) :
    (ofEvents authority plan).whole st = st.commitEvents authority plan := by
  unfold whole commitEvents ofEvents
  simp only
  cases plan st with
  | error e => rfl
  | ok p =>
    cases p with
    | replayed => rfl
    | append events =>
      show (st.appendEvents (some authority) events >>= fun st' => .ok st') =
        st.appendEvents (some authority) events
      cases st.appendEvents (some authority) events <;> rfl

theorem whole_ofExperienceUse (now : Time) (use : HistoricalExperienceUse) (st : MemoryStore) :
    (ofExperienceUse now use).whole st = st.commitHistoricalExperienceUse now use := by
  unfold whole commitHistoricalExperienceUse ofExperienceUse
  cases hevent : st.getEvent use.eventId <;> cases hrecord : st.getRecord use.judgment.id
  · simp only [hevent, hrecord]
    cases st.validateRecordWriteSemantics use.judgment with
    | error e => rfl
    | ok u =>
      cases st.validateCandidateWrite now .record use.judgment with
      | error e => rfl
      | ok u =>
        cases use.bind st.exportState with
        | error e => rfl
        | ok event =>
          have hsingle : (st.save .record use.judgment).appendEvents
              (some .historicalExperienceUse) [event] =
              (st.save .record use.judgment).appendEventAs (some .historicalExperienceUse) event := by
            show ((st.save .record use.judgment).appendEventAs _ event >>= fun st' => .ok st') = _
            cases (st.save .record use.judgment).appendEventAs
              (some .historicalExperienceUse) event <;> rfl
          exact congrArg (fun x => x >>= fun st' => use.authorityGraph st'.exportState >>= fun _ =>
            .ok st') hsingle
  · simp only [hevent, hrecord]
    rfl
  · simp only [hevent, hrecord]
    rfl
  · simp only [hevent, hrecord]
    cases use.replay st.exportState with
    | error e => rfl
    | ok u => cases use.authorityGraph st.exportState <;> rfl

end GuardedCommit

namespace MemoryStore

theorem appendEventAs_eq (authority : Option CommitAuthority) (st : MemoryStore) (event : Event) :
    st.appendEventAs authority event =
      (passGates (fun a => if some a = authority then 1 else 0) event >>= fun _ =>
        st.journalWrite event) := by
  unfold appendEventAs passGates journalWrite
  cases hrequired : requiredAuthority event with
  | none => rfl
  | some r =>
    by_cases hauthority : some r.1 = authority
    · simp [Option.filter, hauthority, guardValue]
      rfl
    · simp [Option.filter, hauthority, guardValue, raiseValue]
      rfl

end MemoryStore

end PortableRuntime
