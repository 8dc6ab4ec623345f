import PortableRuntime.Library.Run
import PortableRuntime.Stores.Memory

/-!
# Authorizing a terminal completion

`authorize` reads the Work, the Run and the other Runs, checks the proofs, and only then enters
the transaction that commits.  Every read and the commit is a step of its own, and the steps of
several calls on one store interleave in any order.
-/

namespace PortableRuntime

/-! ## Run transitions -/

namespace RunStatus

def allowedTransitions : RunStatus → List RunStatus
  | .queued => [.running, .cancelled]
  | .running => [.waiting, .blocked, .failed, .succeeded, .cancelled, .interrupted]
  | .waiting => [.running, .failed, .cancelled, .blocked, .succeeded]
  | .blocked => [.running, .failed, .cancelled, .succeeded]
  | .failed => []
  | .succeeded => []
  | .cancelled => []
  | .interrupted => [.running, .failed, .cancelled]

def isTerminal (status : RunStatus) : Bool := [failed, succeeded, cancelled].contains status

end RunStatus

def isValidRunTransition (fromStatus toStatus : RunStatus) : Bool :=
  fromStatus = toStatus || fromStatus.allowedTransitions.contains toStatus

def validateRunTransition (fromStatus toStatus : RunStatus) : Result Unit :=
  guardValue (isValidRunTransition fromStatus toStatus)
    ("invalid Run transition " ++ Text.pyRepr fromStatus.text ++ " -> " ++
      Text.pyRepr toStatus.text)

/-- `list(value)`. -/
def Json.items : Json → Result (List Json)
  | .arr items => .ok items
  | .obj fields => .ok (fields.map (fun f => .str f.1))
  | .str s => .ok (s.toList.map (fun c => .str (String.singleton c)))
  | .null => .error (.typeError "'NoneType' object is not iterable")
  | .bool _ => .error (.typeError "'bool' object is not iterable")
  | .int _ => .error (.typeError "'int' object is not iterable")
  | .float _ _ => .error (.typeError "'float' object is not iterable")
  | .datetime _ => .error (.typeError "'datetime.datetime' object is not iterable")

namespace CompletionAuthority

/-! ## Reads and checks -/

/-- The arguments of a call. -/
structure Request where
  work : Work
  run : Run
  verificationRefs : List String

def Request.refs (q : Request) : List String := q.verificationRefs.filter Text.nonBlank

def checkRequest (q : Request) : Result Unit := do
  guardValue (!q.refs.isEmpty) "terminal completion requires verification proof refs"
  guardValue (decide q.refs.Nodup) "terminal completion proof refs must be unique"
  guardValue (q.work.id = q.run.workId) "terminal completion work/run binding mismatch"

/-- What the current pair settles by itself: a succeeded Run answers a repeated call, and nothing
else; no answer where the proofs have to be looked at. -/
def settle (q : Request) (currentWork : Work) (currentRun : Run) : Result (Option Run) := do
  guardValue (currentWork.id = q.work.id && currentRun.workId = q.work.id)
    "terminal completion work/run binding mismatch"
  if currentRun.status = .succeeded then
    if currentWork.status = .completed then
      let existing ← (currentRun.metadata.getOr "_completion_proof_refs" (.arr [])).items
      if (Json.arr existing).pyEq (.ofStrings q.refs) then return some currentRun
    raiseValue "terminal completion cannot reuse a succeeded run"
  else if currentWork.status = .completed then
    raiseValue "completed work has no reusable terminal run"
  else return none

/-- Some reference is listed by the Run itself or by another Run. -/
def alreadyConsumed (refs : List String) (run : Run) (runs : List Run) : Bool :=
  (proofRefTexts run.metadata).any refs.contains ||
    runs.any (fun other => other.id != run.id && (proofRefTexts other.metadata).any refs.contains)

/-- The metadata that a completion writes on both sides. -/
def completionMetadata (work : Work) (refs : List String) (coverage : Coverage)
    (metadata : Fields) : Fields :=
  [("_completion_proof_refs", Json.ofStrings refs),
   ("completion_verification_scope", .obj (expectedScope work)),
   ("completion_work_version", expectedVersion work),
   ("completion_acceptance_criteria", .ofStrings work.acceptanceCriteria),
   ("completion_required_obligations", .ofStrings coverage.required),
   ("completion_covered_obligations", .ofStrings coverage.covered),
   ("completion_missing_obligations", .arr [])].foldl
    (fun metadata f => metadata.put f.1 f.2) metadata

/-- The completed pair of a call whose proofs hold. -/
def terminalPair (now : Time) (store : MemoryStore) (q : Request) (work : Work) (run : Run) :
    Result (Work × Run) := do
  let coverage ← validateProofInvariant work run q.refs store.getRecord
  validateRunTransition run.status .succeeded
  return ({ work with status := .completed, updatedAt := now,
                      metadata := completionMetadata work q.refs coverage work.metadata },
    { run with status := .succeeded, endedAt := some now,
               metadata := completionMetadata work q.refs coverage run.metadata })

/-! ## Steps of a call -/

inductive Phase where
  | idle
  | called (q : Request)
  | readWork (q : Request) (work : Work)
  | readRun (q : Request) (work : Work) (run : Run)
  | unconsumed (q : Request) (work : Work) (run : Run)
  | proved (q : Request) (work : Work) (run : Run)
  | returned (q : Request) (answer : Result Run)

/-- The next step of a call: it reads the store, or commits. -/
def authorize (now : Time) (store : MemoryStore) : Phase → Phase × MemoryStore
  | .called q => match checkRequest q with
    | .error e => (.returned q (.error e), store)
    | .ok () => (.readWork q ((store.getWork q.work.id).getD q.work), store)
  | .readWork q work =>
    let run := (store.getRun q.run.id).getD q.run
    match settle q work run with
    | .error e => (.returned q (.error e), store)
    | .ok (some stored) => (.returned q (.ok stored), store)
    | .ok none => (.readRun q work run, store)
  | .readRun q work run =>
    if alreadyConsumed q.refs run (store.exportState .run) then
      (.returned q (raiseValue "terminal completion proof refs have already been consumed"), store)
    else (.unconsumed q work run, store)
  | .unconsumed q work run => match terminalPair now store q work run with
    | .error e => (.returned q (.error e), store)
    | .ok (completed, succeeded) => (.proved q completed succeeded, store)
  | .proved q work run => match store.commitTerminal now work run q.refs with
    | .error e => (.returned q (.error e), store)
    | .ok store' => (.returned q (.ok run), store')
  | .idle => (.idle, store)
  | .returned q answer => (.returned q answer, store)

end CompletionAuthority

/-! ## Several calls on one store -/

structure AuthorizingStore where
  store : MemoryStore := .empty
  phase : Nat → CompletionAuthority.Phase := fun _ => .idle

namespace AuthorizingStore

/-- Another mutator of the store, the start of a call, or the next step of one. -/
inductive Move where
  | op (o : Time × MemoryStore.Op)
  | call (caller : Nat) (q : CompletionAuthority.Request)
  | resume (caller : Nat) (now : Time)

/-- A caller starts a call when its last one has returned. -/
def free : CompletionAuthority.Phase → Bool
  | .idle | .returned _ _ => true
  | _ => false

def setPhase (s : AuthorizingStore) (caller : Nat) (phase : CompletionAuthority.Phase) :
    AuthorizingStore :=
  { s with phase := Function.update s.phase caller phase }

def step (digest : Json → String) (s : AuthorizingStore) : Move → AuthorizingStore
  | .op o => { s with store := s.store.step digest o }
  | .call caller q => if free (s.phase caller) then s.setPhase caller (.called q) else s
  | .resume caller now =>
    let (phase, store) := CompletionAuthority.authorize now s.store (s.phase caller)
    { s.setPhase caller phase with store }

end AuthorizingStore

end PortableRuntime
