import PortableRuntime.Core.Boundary
import PortableRuntime.Stores.LeaseExclusion

/-!
# Stale workers and the Step they share

Executions of one store interleave at their awaits with each other and with every other
call.  Two workers of a run that name one step key share its Step; whether a superseded
one can still write it is read off the store at the moment its provider answers.
-/

namespace PortableRuntime

open LeaseReport

/-! ## The two stores, as the boundary uses them -/

/-- A store whose leases can be called from outside. -/
structure LeasedStore (σ : Type) extends ExecutionStore σ where
  put : σ → (k : Kind) → String → Model k → σ
  leaseStep : σ → Clock × LeaseCall → σ
  leaseReport : String → σ → Clock × LeaseCall → Option LeaseReport

/-- The gate of `_save_checked`, the same for both stores. -/
def checkedGate (now : Time) (exported : State) (k : Kind) (value : Model k) : Result Unit := do
  MemoryStore.rejectUnprovenTerminalWrite k value
  assertValidCandidateWrite now exported k value

namespace SqliteStore

/-- The text of the `created_at` column, which rows are listed by. -/
def createdAtColumn (createdAt : Time) : String := Text.dateTime createdAt ++ "Z"

/-- `ORDER BY created_at DESC, id DESC`. -/
def listed {α : Type} (createdAt : α → Time) (rows : Dict String α) : List α :=
  (rows.entries.insertionSort (fun a b =>
    createdAtColumn (createdAt b.2) < createdAtColumn (createdAt a.2) ∨
      (createdAtColumn (createdAt b.2) = createdAtColumn (createdAt a.2) ∧ b.1 ≤ a.1))).map Prod.snd

def leased (digest : Json → String) : LeasedStore SqliteStore where
  getRun := getRun
  get st k id := (st.records k).get? id
  steps st := listed (fun v => v.createdAt) (st.records .step)
  attempts st := listed (fun v => v.createdAt) (st.records .attempt)
  gate now st k value := checkedGate now st.exportState k value
  save := save
  get_save_self := by
    intro st k v id
    simp [save, put, Dict.get?_set]
  get_save_of_ne := by
    intro st k k' v id hk
    simp [save, put, hk]
  put := put
  leaseStep := leaseStep digest
  leaseReport := leaseReport digest

end SqliteStore

namespace MemoryStore

/-- Newest first; values of one time stay in the order in which they were stored. -/
def listed {α : Type} (createdAt : α → Time) (values : List α) : List α :=
  values.insertionSort (fun a b => createdAt b ≤ createdAt a)

def leased (digest : Json → String) : LeasedStore MemoryStore where
  getRun := getRun
  get := get
  steps st := listed (fun v => v.createdAt) (st.records .step).values
  attempts st := listed (fun v => v.createdAt) (st.records .attempt).values
  gate now st k value := checkedGate now st.exportState k value
  save := save
  get_save_self := by
    intro st k v id
    exact get_put_self st k (k.identifier v) id v
  get_save_of_ne := by
    intro st k k' v id hk
    exact get_put_of_ne st hk (k.identifier v) id v
  put := put
  leaseStep := leaseStep digest
  leaseReport := leaseReport

end MemoryStore

/-! ## Interleavings -/

/-- A provider has answered an execution. -/
structure Completion (ε : Type) where
  worker : ε
  now : Time
  result : CapabilityResult
  freshAction : String

/-- What happens between two awaits.  `write` is any other mutator of the store, and a
refused dispatch aborts the records it has just precommitted. -/
inductive Move (ε : Type) where
  | lease (clock : Clock) (call : LeaseCall)
  | write (k : Kind) (id : String) (value : Model k)
  | dispatch (worker : ε) (now : Time) (request : CapabilityRequest)
      (p : ExecutionStore.Precommit) (refusal : Option (String × String))
  | complete (c : Completion ε)

/-- The store, and the executions that wait for their providers. -/
structure World (σ ε : Type) where
  store : σ
  waiting : ε → Option ExecutionStore.Invocation

namespace LeasedStore

variable {σ ε : Type} [DecidableEq ε] (ls : LeasedStore σ)

def idle (st : σ) : World σ ε := { store := st, waiting := fun _ => none }

def dispatch (w : World σ ε) (worker : ε) (now : Time) (request : CapabilityRequest)
    (p : ExecutionStore.Precommit) (refusal : Option (String × String)) : World σ ε :=
  match ls.precommitExecutionRecords now w.store request p with
  | .error _ => w
  | .ok (records, st) => match refusal with
    | none =>
      { store := st
        waiting := Function.update w.waiting worker (some ⟨request, p.providerId, records⟩) }
    | some (code, reason) =>
      match ls.abortPreinvocationRecords now st request p.providerId records code reason with
      | .ok aborted => { w with store := aborted }
      | .error _ => { w with store := st }

def complete (w : World σ ε) (c : Completion ε) : World σ ε :=
  match w.waiting c.worker with
  | none => w
  | some i =>
    { store := ls.resume c.now w.store i c.result c.freshAction
      waiting := Function.update w.waiting c.worker none }

def move (w : World σ ε) : Move ε → World σ ε
  | .lease clock call => { w with store := ls.leaseStep w.store (clock, call) }
  | .write k id value => { w with store := ls.put w.store k id value }
  | .dispatch worker now request p refusal => ls.dispatch w worker now request p refusal
  | .complete c => ls.complete w c

def report (runId : String) (w : World σ ε) : Move ε → Option LeaseReport
  | .lease clock call => ls.leaseReport runId w.store (clock, call)
  | _ => none

def reports (runId : String) (w : World σ ε) (moves : List (Move ε)) : List LeaseReport :=
  emitted ls.move (ls.report runId) w moves

/-- The worker's projection stores a terminal status for the Step `sid`. -/
structure Projects (w : World σ ε) (c : Completion ε) (i : ExecutionStore.Invocation)
    (sid : String) : Prop where
  waiting : w.waiting c.worker = some i
  names : i.records.stepId = some sid
  accepted : (ls.readFencing c.now w.store i.request).1 = true
  stored : ∃ st, ls.commitExecutionProjection c.now w.store i.request c.result i.providerId
    i.records c.freshAction = .ok st
  terminal : ExecutionStore.projectedStep c.result.status ≠ .unknown

/-- A worker waits for its provider while a newer generation of its run was issued and
the worker that holds it has projected its result onto the Step `sid`. -/
structure Superseded (start : World σ ε) (before : List (Move ε)) (newer : Completion ε)
    (between : List (Move ε)) (older : Completion ε) (i₁ i₂ : ExecutionStore.Invocation)
    (runId sid : String) : Prop where
  run_older : i₁.request.runId = some runId
  run_newer : i₂.request.runId = some runId
  stale : i₁.request.leaseGeneration < i₂.request.leaseGeneration
  issued : i₂.request.leaseGeneration ∈ generations (ls.reports runId start before)
  projects : ls.Projects (run ls.move start before) newer i₂ sid
  waiting : (run ls.move start (before ++ .complete newer :: between)).waiting older.worker =
    some i₁

/-! ## What a move keeps -/

variable {ls} {w : World σ ε}

theorem complete_of_waiting {c : Completion ε} {i : ExecutionStore.Invocation}
    (h : w.waiting c.worker = some i) :
    (ls.move w (.complete c)).store = ls.resume c.now w.store i c.result c.freshAction := by
  show (ls.complete w c).store = _
  rw [complete, h]

section Keeps

variable {P : σ → Prop}

theorem dispatch_keeps (hsave : ∀ st k (v : Model k), P st → P (ls.save st k v)) (worker : ε)
    (now : Time) (request : CapabilityRequest) (p : ExecutionStore.Precommit)
    (refusal : Option (String × String)) (hP : P w.store) :
    P (ls.dispatch w worker now request p refusal).store := by
  rw [dispatch]
  cases hprecommit : ls.precommitExecutionRecords now w.store request p with
  | error e => exact hP
  | ok r =>
    have hP₁ : P r.2 := ExecutionStore.precommitExecutionRecords_keeps hsave hprecommit hP
    cases refusal with
    | none => exact hP₁
    | some refusal =>
      dsimp only
      cases habort : ls.abortPreinvocationRecords now r.2 request p.providerId r.1 refusal.1
          refusal.2 with
      | error e => exact hP₁
      | ok aborted => exact ExecutionStore.abortPreinvocationRecords_keeps hsave habort hP₁

theorem complete_keeps (hsave : ∀ st k (v : Model k), P st → P (ls.save st k v))
    (c : Completion ε) (hP : P w.store) : P (ls.complete w c).store := by
  rw [complete]
  split
  · exact hP
  · exact ExecutionStore.resume_keeps hsave c.now _ c.result c.freshAction hP

end Keeps

/-- Every execution that waits with a Step names a run. -/
def RecordsNamed (w : World σ ε) : Prop :=
  ∀ worker i, w.waiting worker = some i → i.records.stepId ≠ none → given i.request.runId ≠ none

theorem RecordsNamed.move (h : RecordsNamed w) (m : Move ε) : RecordsNamed (ls.move w m) := by
  cases m with
  | lease clock call => exact h
  | write k id value => exact h
  | dispatch worker now request p refusal =>
    show RecordsNamed (ls.dispatch w worker now request p refusal)
    rw [dispatch]
    cases hprecommit : ls.precommitExecutionRecords now w.store request p with
    | error e => exact h
    | ok r =>
      cases refusal with
      | some refusal =>
        dsimp only
        cases ls.abortPreinvocationRecords now r.2 request p.providerId r.1 refusal.1 refusal.2 <;>
          exact h
      | none =>
        intro worker' i hi hrecords
        dsimp only at hi
        rw [Function.update_apply] at hi
        split_ifs at hi
        · obtain rfl := Option.some.inj hi
          exact ExecutionStore.precommitExecutionRecords_run hprecommit hrecords
        · exact h worker' i hi hrecords
  | complete c =>
    show RecordsNamed (ls.complete w c)
    rw [complete]
    split
    · exact h
    · intro worker' i hi hrecords
      dsimp only at hi
      rw [Function.update_apply] at hi
      split_ifs at hi
      exact h worker' i hi hrecords

theorem recordsNamed_of_run (st : σ) (moves : List (Move ε)) :
    RecordsNamed (run ls.move (idle st) moves) := by
  refine run_preserves (I := RecordsNamed) (fun _ m h => h.move m) ?_
  intro _ _ hi
  exact absurd hi (by simp [idle])

/-- What fencing compares tells the stale request from the lease: another generation,
and not the generation 0 that an unnamed owner leaves unfenced. -/
def ShowsNewerLease (run : Run) (request : CapabilityRequest) : Prop :=
  run.leaseGeneration ≠ request.leaseGeneration ∧
    ¬ (truthy run.leaseOwner = false ∧ run.leaseGeneration = 0)

instance (run : Run) (request : CapabilityRequest) : Decidable (ShowsNewerLease run request) :=
  inferInstanceAs (Decidable (_ ∧ _))

theorem stepStatus_complete_iff {c : Completion ε} {i : ExecutionStore.Invocation}
    {runId sid : String} (hnamed : RecordsNamed w) (hwaiting : w.waiting c.worker = some i)
    (hrun : i.request.runId = some runId)
    (hshows : ∀ run, ls.getRun w.store runId = some run → ShowsNewerLease run i.request) :
    ls.stepStatus (ls.move w (.complete c)).store sid = ls.stepStatus w.store sid ↔
      ls.NothingToDemote c.now w.store i.records sid := by
  rw [complete_of_waiting hwaiting]
  cases hrecords : i.records.stepId with
  | none =>
    have hnothing : ls.NothingToDemote c.now w.store i.records sid := by
      intro stepId step hgiven
      rw [hrecords] at hgiven
      exact absurd hgiven (by simp [given])
    simp [ExecutionStore.resume_of_no_records hrecords, hnothing]
  | some stepId =>
    have hgiven : given i.request.runId = some runId := by
      have hname := hnamed c.worker i hwaiting (by simp [hrecords])
      obtain ⟨text, htext⟩ := Option.ne_none_iff_exists'.mp hname
      rwa [← Option.some.inj (hrun.symm.trans (given_eq_some htext))] at htext
    have hfenced : ∀ run, ls.getRun w.store runId = some run →
        (validateFencing i.request (some run) c.now).1 = false := by
      intro run hget
      obtain ⟨hgeneration, hleased⟩ := hshows run hget
      rw [Bool.eq_false_iff, ne_eq, validateFencing_eq_true hrun]
      rintro (hunleased | ⟨hsame, -⟩)
      · exact hleased hunleased
      · exact hgeneration hsame.symm
    obtain ⟨error, hresume⟩ :=
      ExecutionStore.resume_of_fenced hgiven hfenced c.result c.freshAction
    rw [hresume, ExecutionStore.stepStatus_demote_iff]

end LeasedStore

/-! ## The ledger of an interleaving -/

namespace SqliteStore

variable {ε : Type} [DecidableEq ε] {digest : Json → String} {runId : String}

theorem Ledger.put {log : List LeaseReport} {st : SqliteStore} (h : Ledger runId log st) (k : Kind)
    (id : String) (v : Model k) : Ledger runId log (st.put k id v) :=
  ⟨h.increasing, h.last, h.holder, h.expiry, fun lease hlease => isSome_getRun_put (h.stored lease hlease)⟩

theorem Ledger.move {log : List LeaseReport} {w : World SqliteStore ε} (h : Ledger runId log w.store)
    (m : Move ε) :
    Ledger runId (log ++ ((leased digest).report runId w m).toList)
      ((leased digest).move w m).store := by
  have hsave : ∀ st k (v : Model k), Ledger runId log st → Ledger runId log (st.save k v) :=
    fun st k v h => h.put k (k.identifier v) v
  have hsilent : log ++ (none : Option LeaseReport).toList = log := List.append_nil log
  cases m with
  | lease clock call => exact h.leaseStep digest (clock, call)
  | write k id value =>
    show Ledger runId (log ++ none.toList) _
    rw [hsilent]
    exact h.put k id value
  | dispatch worker now request p refusal =>
    show Ledger runId (log ++ none.toList) _
    rw [hsilent]
    exact LeasedStore.dispatch_keeps hsave worker now request p refusal h
  | complete c =>
    show Ledger runId (log ++ none.toList) _
    rw [hsilent]
    exact LeasedStore.complete_keeps hsave c h

theorem ledger_of_moves (digest : Json → String) (runId : String) {start : SqliteStore}
    (hfresh : start.leases = Dict.empty) (moves : List (Move ε)) :
    Ledger runId ((leased digest).reports runId (LeasedStore.idle start) moves)
      (run (leased digest).move (LeasedStore.idle start) moves).store := by
  have hstart : Ledger runId [] (LeasedStore.idle start : World SqliteStore ε).store :=
    ledger_of_run digest runId hfresh []
  exact @emitted_invariant _ _ _ (leased digest).move ((leased digest).report runId)
    (fun log (w : World SqliteStore ε) => Ledger runId log w.store)
    (fun _ _ m h => h.move m) _ _ _ hstart

/-- The row of the lease never goes back behind a generation that was issued. -/
theorem le_generation_of_issued {moves more : List (Move ε)} {start : SqliteStore} {g : Int}
    (hfresh : start.leases = Dict.empty)
    (hissued : g ∈ generations ((leased digest).reports runId (LeasedStore.idle start) moves)) :
    ∃ lease, (run (leased digest).move (LeasedStore.idle start) (moves ++ more)).store.leases.get?
      runId = some lease ∧ g ≤ lease.generation := by
  have hledger := ledger_of_moves digest runId hfresh (moves ++ more)
  have hmem : g ∈ generations
      ((leased digest).reports runId (LeasedStore.idle start) (moves ++ more)) := by
    rw [LeasedStore.reports, emitted_append, generations, List.filterMap_append]
    exact List.mem_append_left _ hissued
  cases hlease : (run (leased digest).move (LeasedStore.idle start)
      (moves ++ more)).store.leases.get? runId with
  | none =>
    have hempty := hledger.last
    rw [hlease, Option.map_none, List.getLast?_eq_none_iff] at hempty
    rw [hempty] at hmem
    exact absurd hmem List.not_mem_nil
  | some lease =>
    refine ⟨lease, rfl, Ledger.le_last hledger.increasing ?_ g hmem⟩
    rw [hledger.last, hlease]
    rfl

end SqliteStore

/-! ## Completions of a superseded worker -/

/-- The completion leaves the status of the Step `sid` as it was. -/
def LeasedStore.StatusKept {σ ε : Type} [DecidableEq ε] (ls : LeasedStore σ) (w : World σ ε)
    (c : Completion ε) (sid : String) : Prop :=
  ls.stepStatus (ls.move w (.complete c)).store sid = ls.stepStatus w.store sid

/-- For every interleaving in which a newer worker has projected its result onto a Step,
the completion of a superseded one keeps the status of the Step exactly when it finds
nothing to demote, as long as what the store shows of the lease is not unfenced: for the
SQLite store the row of the lease, for the in-memory store the mirror in the run. -/
theorem stale_completion_iff {ε : Type} [DecidableEq ε] (digest : Json → String)
    (before between : List (Move ε)) (newer older : Completion ε)
    (i₁ i₂ : ExecutionStore.Invocation) (runId sid : String) :
    (∀ start : SqliteStore, start.leases = Dict.empty →
      let ls := SqliteStore.leased digest
      let w := run ls.move (LeasedStore.idle start) (before ++ .complete newer :: between)
      ls.Superseded (LeasedStore.idle start) before newer between older i₁ i₂ runId sid →
      (∀ lease, w.store.leases.get? runId = some lease →
        ¬ (truthy lease.owner = false ∧ lease.generation = 0)) →
      (ls.StatusKept w older sid ↔ ls.NothingToDemote older.now w.store i₁.records sid)) ∧
    (∀ start : MemoryStore,
      let ls := MemoryStore.leased digest
      let w := run ls.move (LeasedStore.idle start) (before ++ .complete newer :: between)
      ls.Superseded (LeasedStore.idle start) before newer between older i₁ i₂ runId sid →
      (∀ run, w.store.getRun runId = some run → LeasedStore.ShowsNewerLease run i₁.request) →
      (ls.StatusKept w older sid ↔ ls.NothingToDemote older.now w.store i₁.records sid)) := by
  constructor
  · intro start hfresh ls w hsuperseded hfenced
    refine LeasedStore.stepStatus_complete_iff (LeasedStore.recordsNamed_of_run start _)
      hsuperseded.waiting hsuperseded.run_older ?_
    obtain ⟨lease, hlease, hle⟩ : ∃ lease, w.store.leases.get? runId = some lease ∧
        i₂.request.leaseGeneration ≤ lease.generation :=
      SqliteStore.le_generation_of_issued hfresh hsuperseded.issued
    intro run hget
    have hstale := hsuperseded.stale
    have hshown : run.leaseOwner = lease.owner ∧ run.leaseGeneration = lease.generation := by
      obtain ⟨payload, -, hoverlay⟩ := Option.map_eq_some_iff.mp hget
      rw [hlease] at hoverlay
      exact ⟨by rw [← hoverlay]; rfl, by rw [← hoverlay]; rfl⟩
    refine ⟨?_, ?_⟩
    · rw [hshown.2]
      omega
    · rw [hshown.1, hshown.2]
      exact hfenced lease hlease
  · intro start ls w hsuperseded hshows
    exact LeasedStore.stepStatus_complete_iff (LeasedStore.recordsNamed_of_run start _)
      hsuperseded.waiting hsuperseded.run_older hshows

/-! ## A takeover -/

def writeRequest (id key owner : String) (generation : Int) : CapabilityRequest :=
  { id, capability := "generic.write", workId := some "work_1", runId := some "run_1",
    stepKey := some key, leaseGeneration := generation, leaseOwner := some owner }

def precommitOf (step attempt action : String) : ExecutionStore.Precommit :=
  { providerId := "provider_1", permitDigest := "", sideEffect := true,
    sideEffectClass := .idempotent, effectSemantics := .idempotent, reversibility := .unknown,
    freshStep := step, freshAttempt := attempt, freshAction := action }

/-- The lease of the first worker expires while its provider is at work, and a second
worker takes the run over and executes the step key `write`. -/
def takeover (olderKey : String) : List (Move String) :=
  [.lease ⟨0, 0⟩ (.acquire "run_1" "worker_a" 30),
   .dispatch "worker_a" 1 (writeRequest "request_1" olderKey "worker_a" 1)
     (precommitOf "step_a" "attempt_a" "action_a") none,
   .lease ⟨40, 40⟩ (.acquire "run_1" "worker_b" 30),
   .dispatch "worker_b" 41 (writeRequest "request_2" "write" "worker_b" 2)
     (precommitOf "step_b" "attempt_b" "action_b") none]

def answered (worker request : String) (now : Time) : Completion String :=
  { worker, now, result := { requestId := request }, freshAction := "action_c" }

def dispatched (request : CapabilityRequest) (step attempt action : String) :
    ExecutionStore.Invocation :=
  { request, providerId := "provider_1", records := ⟨some step, some attempt, some action⟩ }

theorem takeover_superseded {σ : Type} {ls : LeasedStore σ} {start : World σ String}
    {olderKey step : String}
    (hissued : (2 : Int) ∈ generations (ls.reports "run_1" start (takeover olderKey)))
    (hnewer : (run ls.move start (takeover olderKey)).waiting "worker_b" =
      some (dispatched (writeRequest "request_2" "write" "worker_b" 2) step "attempt_b" "action_b"))
    (haccepted : (ls.readFencing 42 (run ls.move start (takeover olderKey)).store
      (writeRequest "request_2" "write" "worker_b" 2)).1 = true)
    (hstored : (ls.commitExecutionProjection 42 (run ls.move start (takeover olderKey)).store
      (writeRequest "request_2" "write" "worker_b" 2) { requestId := "request_2" } "provider_1"
      ⟨some step, some "attempt_b", some "action_b"⟩ "action_c").isOk = true)
    (hwaiting : (run ls.move start
      (takeover olderKey ++ [.complete (answered "worker_b" "request_2" 42)])).waiting "worker_a" =
      some (dispatched (writeRequest "request_1" olderKey "worker_a" 1) "step_a" "attempt_a"
        "action_a")) :
    ls.Superseded start (takeover olderKey) (answered "worker_b" "request_2" 42) []
      (answered "worker_a" "request_1" 43)
      (dispatched (writeRequest "request_1" olderKey "worker_a" 1) "step_a" "attempt_a" "action_a")
      (dispatched (writeRequest "request_2" "write" "worker_b" 2) step "attempt_b" "action_b")
      "run_1" step where
  run_older := rfl
  run_newer := rfl
  stale := show (1 : Int) < 2 by decide
  issued := hissued
  projects := ⟨hnewer, rfl, haccepted, Result.exists_of_isOk hstored, by decide⟩
  waiting := hwaiting

theorem sqlite_takeover_superseded :
    (SqliteStore.leased (fun _ => "")).Superseded (LeasedStore.idle unleasedTable)
      (takeover "write") (answered "worker_b" "request_2" 42) []
      (answered "worker_a" "request_1" 43)
      (dispatched (writeRequest "request_1" "write" "worker_a" 1) "step_a" "attempt_a" "action_a")
      (dispatched (writeRequest "request_2" "write" "worker_b" 2) "step_a" "attempt_b" "action_b")
      "run_1" "step_a" :=
  takeover_superseded (by decide) (by rfl) (by decide) (by decide) (by rfl)

/-- With step keys of their own the workers leave each other alone. -/
theorem stale_completion_other_key :
    (SqliteStore.leased (fun _ => "")).StatusKept
      (run (SqliteStore.leased (fun _ => "")).move (LeasedStore.idle unleasedTable)
        (takeover "read" ++ [.complete (answered "worker_b" "request_2" 42)]))
      (answered "worker_a" "request_1" 43) "step_b" ∧
    (MemoryStore.leased (fun _ => "")).StatusKept
      (run (MemoryStore.leased (fun _ => "")).move (LeasedStore.idle unleasedStore)
        (takeover "read" ++ [.complete (answered "worker_b" "request_2" 42)]))
      (answered "worker_a" "request_1" 43) "step_b" := by
  have hboth := stale_completion_iff (fun _ => "") (takeover "read") []
    (answered "worker_b" "request_2" 42) (answered "worker_a" "request_1" 43)
    (dispatched (writeRequest "request_1" "read" "worker_a" 1) "step_a" "attempt_a" "action_a")
    (dispatched (writeRequest "request_2" "write" "worker_b" 2) "step_b" "attempt_b" "action_b")
    "run_1" "step_b"
  constructor
  · refine (hboth.1 unleasedTable rfl (takeover_superseded (by decide) (by rfl)
      (by decide) (by decide) (by rfl)) ?_).mpr ?_
    · decide
    · exact ExecutionStore.nothingToDemote_of_other "step_a" rfl (by decide) (by decide)
  · refine (hboth.2 unleasedStore (takeover_superseded (by decide) (by rfl)
      (by decide) (by decide) (by rfl)) ?_).mpr ?_
    · decide
    · exact ExecutionStore.nothingToDemote_of_other "step_a" rfl (by decide) (by decide)

/-- The late answer of the first worker turns the success of the second into unknown. -/
theorem takeover_overwritten :
    ¬ ∀ (digest : Json → String) (start : SqliteStore) (before between : List (Move String))
      (newer older : Completion String) (i₁ i₂ : ExecutionStore.Invocation) (runId sid : String),
      start.leases = Dict.empty →
      (SqliteStore.leased digest).Superseded (LeasedStore.idle start) before newer between older
        i₁ i₂ runId sid →
      (SqliteStore.leased digest).StatusKept
        (run (SqliteStore.leased digest).move (LeasedStore.idle start)
          (before ++ .complete newer :: between)) older sid := by
  intro h
  have hkept := h (fun _ => "") unleasedTable (takeover "write") []
    (answered "worker_b" "request_2" 42) (answered "worker_a" "request_1" 43) _ _ "run_1" "step_a"
    rfl sqlite_takeover_superseded
  rw [LeasedStore.StatusKept] at hkept
  exact absurd hkept (by decide)

end PortableRuntime
