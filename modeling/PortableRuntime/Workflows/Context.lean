import PortableRuntime.Workflows.Authorize

/-!
# Contexts and runtime calls on a shared Run

A context works on its own copy of the Run and saves the whole copy.  The runtime's own calls read
the Run and save it again.  Every call is a step, or two where it reads before it writes, so that
any other step can come between.
-/

namespace PortableRuntime

structure WorkflowContext where
  work : Work
  run : Run
  invocationCache : List String := []

/-- The methods of a context that save its Run. -/
inductive ContextCall where
  | transitionRun (toStatus : RunStatus) (currentStep : Option String)
  | setStep (step : String)
  | storeCache (key status : String)
  | resume
  | clearCache

namespace WorkflowContext

/-- `dict(value)`. -/
def cacheKeys : Json → Result Fields
  | .obj fields => .ok fields
  | value => do
    (← value.items).foldlM (fun keys item => do
      match ← item.items with
      | [.str key, v] => return Fields.put key v keys
      | _ => raiseValue "dictionary update sequence element has wrong length; 2 is required") []

def transitionRun (now : Time) (ctx : WorkflowContext) (toStatus : RunStatus)
    (currentStep : Option String) : Result (WorkflowContext × Option Run) := do
  guardValue (toStatus ≠ .succeeded)
    "terminal succeeded transition requires complete_with_proofs()"
  validateRunTransition ctx.run.status toStatus
  let starts := ctx.run.status = .queued ∧ toStatus = .running ∧ ctx.run.startedAt = none
  let newRun := { ctx.run with
    status := toStatus
    currentStep := currentStep <|> ctx.run.currentStep
    endedAt := if toStatus.isTerminal then some now else ctx.run.endedAt
    startedAt := if starts then some now else ctx.run.startedAt }
  return ({ ctx with run := newRun }, some newRun)

def setStep (ctx : WorkflowContext) (step : String) : WorkflowContext × Option Run :=
  let newRun := { ctx.run with currentStep := some step }
  ({ ctx with run := newRun }, some newRun)

/-- The result is cached also where the keys of the Run cannot be read. -/
def storeCache (ctx : WorkflowContext) (key status : String) : WorkflowContext × Option Run :=
  let cached := { ctx with invocationCache := key :: ctx.invocationCache }
  match cacheKeys (ctx.run.metadata.getOr "_workflow_cache_keys" (.obj [])) with
  | .error _ => (cached, none)
  | .ok keys =>
    let entries := Json.obj (keys.put key (.str status))
    let run := { ctx.run with metadata := ctx.run.metadata.put "_workflow_cache_keys" entries }
    ({ cached with run }, some run)

def resume (now : Time) (ctx : WorkflowContext) : Result (WorkflowContext × Option Run) :=
  if [RunStatus.waiting, .blocked, .interrupted].contains ctx.run.status then
    ctx.transitionRun now .running none
  else .ok (ctx, none)

def clearCache (ctx : WorkflowContext) : WorkflowContext × Option Run :=
  if ctx.run.metadata.has "_workflow_cache_keys" then
    let run := { ctx.run with metadata := ctx.run.metadata.pop "_workflow_cache_keys" }
    ({ ctx with run, invocationCache := [] }, some run)
  else ({ ctx with invocationCache := [] }, none)

/-- The context a call leaves, and the Run it saves. -/
def call (now : Time) (ctx : WorkflowContext) : ContextCall → Result (WorkflowContext × Option Run)
  | .transitionRun toStatus currentStep => ctx.transitionRun now toStatus currentStep
  | .setStep step => .ok (ctx.setStep step)
  | .storeCache key status => .ok (ctx.storeCache key status)
  | .resume => ctx.resume now
  | .clearCache => .ok ctx.clearCache

end WorkflowContext

/-- The methods of the runtime that read a Run and save it. -/
inductive RuntimeCall where
  | resume | interrupt | cancel
deriving DecidableEq

/-- The Run that a call of the runtime saves. -/
def RuntimeCall.written (now : Time) (run : Run) : RuntimeCall → Option Run
  | .resume => if [RunStatus.waiting, .blocked, .interrupted].contains run.status then
      some { run with status := .running } else none
  | .interrupt => some { run with status := .interrupted }
  | .cancel => some { run with status := .cancelled, endedAt := some now }

/-- `save_run`: a refused save leaves the store as it was. -/
def MemoryStore.saveRun (now : Time) (st : MemoryStore) (run : Run) : MemoryStore :=
  match st.saveModel now .run run with
  | .ok st' => st'
  | .error _ => st

/-- A new Run of a Work, under a new identity. -/
def MemoryStore.startRun (now : Time) (st : MemoryStore) (id workId workflowId : String) :
    MemoryStore :=
  match st.getWork workId with
  | none => st
  | some work =>
    let run : Run :=
      { id, createdAt := now, workId, workflowId, status := .running, startedAt := some now }
    match st.saveModel now .run run with
    | .error _ => st
    | .ok st' => match st'.saveModel now .work { work with status := .running, updatedAt := now } with
      | .error _ => st'
      | .ok st'' => st''

structure SharedRuns where
  store : MemoryStore
  contexts : Nat → Option WorkflowContext := fun _ => none
  /-- A `complete_with_proofs` that is under way. -/
  completing : Nat → CompletionAuthority.Phase := fun _ => .idle
  /-- A call of the runtime that has read its Run. -/
  holding : Nat → Option (RuntimeCall × Run) := fun _ => none

namespace SharedRuns

inductive Move where
  | openContext (c : Nat) (work : Work) (run : Run)
  | context (c : Nat) (now : Time) (call : ContextCall)
  | completeWithProofs (c : Nat) (verificationRefs : List String)
  | authorize (c : Nat) (now : Time)
  | startRun (now : Time) (id workId workflowId : String)
  | read (caller : Nat) (call : RuntimeCall) (runId : String)
  | write (caller : Nat) (now : Time)

def setContext (s : SharedRuns) (c : Nat) (ctx : WorkflowContext) : SharedRuns :=
  { s with contexts := Function.update s.contexts c (some ctx) }

/-- A call sets the context's Run before it saves it. -/
def context (now : Time) (s : SharedRuns) (c : Nat) (call : ContextCall) : SharedRuns :=
  match s.contexts c with
  | none => s
  | some ctx => match ctx.call now call with
    | .error _ => s
    | .ok (ctx', none) => s.setContext c ctx'
    | .ok (ctx', some run) => { s.setContext c ctx' with store := s.store.saveRun now run }

/-- The context takes over the Run it is answered with, and the stored Work. -/
def takeOver (store : MemoryStore) (ctx : WorkflowContext) (run : Run) : WorkflowContext :=
  { ctx with run, work := (store.getWork ctx.work.id).getD ctx.work }

def authorize (now : Time) (s : SharedRuns) (c : Nat) : SharedRuns :=
  let (phase, store) := CompletionAuthority.authorize now s.store (s.completing c)
  let completing := Function.update s.completing c phase
  match s.contexts c, phase with
  | some ctx, .returned _ (.ok run) =>
    { s.setContext c (takeOver store ctx run) with store, completing }
  | _, _ => { s with store, completing }

def step (s : SharedRuns) : Move → SharedRuns
  | .openContext c work run => s.setContext c { work, run }
  | .context c now call => s.context now c call
  | .completeWithProofs c refs => match s.contexts c with
    | none => s
    | some ctx =>
      let request : CompletionAuthority.Request :=
        { work := ctx.work, run := ctx.run, verificationRefs := refs }
      { s with completing := Function.update s.completing c (.called request) }
  | .authorize c now => s.authorize now c
  | .startRun now id workId workflowId => { s with store := s.store.startRun now id workId workflowId }
  | .read caller call runId => match s.store.getRun runId with
    | none => s
    | some run => { s with holding := Function.update s.holding caller (some (call, run)) }
  | .write caller now => match s.holding caller with
    | none => s
    | some (call, run) =>
      let store := match call.written now run with
        | none => s.store
        | some written => s.store.saveRun now written
      { s with store, holding := Function.update s.holding caller none }

end SharedRuns

end PortableRuntime
