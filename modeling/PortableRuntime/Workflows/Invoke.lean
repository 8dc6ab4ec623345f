import PortableRuntime.Core.Invocation
import PortableRuntime.Governance.Anchors
import PortableRuntime.Library.Run
import PortableRuntime.Workflows.Context

/-!
# The identity of a request

A context names its requests by the capability and by the number of results that it keeps.  It
keeps a result only when the call returns one, and it can drop them all.
-/

namespace PortableRuntime

def CapabilityResultStatus.text : CapabilityResultStatus → String
  | .succeeded => "succeeded"
  | .failed => "failed"
  | .unavailable => "unavailable"
  | .needsInput => "needs-input"
  | .cancelled => "cancelled"
  | .unknown => "unknown"

/-- A context with the results that it keeps under their keys. -/
structure InvokingContext where
  work : Work
  run : Run
  invocationCache : Dict String CapabilityResult := .empty

/-- What the collaborators of one call answer: the store, the registry and the contracts to the
factory, and the capability service to the request. -/
structure InvokeAnswers where
  factory : InvocationFactory
  service : InvocationRequest → Result CapabilityResult
  saved : Result Unit := .ok ()

/-- What one call does: the context it leaves, the request it hands to the capability service,
and how it ends. -/
structure Invoked where
  context : InvokingContext
  handed : Option InvocationRequest := none
  returned : Result CapabilityResult

namespace InvokingContext

/-- The context, with the last key that it keeps first. -/
def toContext (ctx : InvokingContext) : WorkflowContext :=
  { work := ctx.work, run := ctx.run, invocationCache := ctx.invocationCache.keys.reverse }

def cacheKey (digest : Json → String) (capability : String) (instruction : Option String)
    (parameters : Fields) : String :=
  s!"{capability}:{hashParams digest capability instruction parameters}"

/-- The result is kept also where the keys of the Run cannot be read or saved. -/
def storeCache (ctx : InvokingContext) (key : String) (result : CapabilityResult) :
    InvokingContext × Result Run :=
  let cached := { ctx with invocationCache := ctx.invocationCache.set key result }
  match WorkflowContext.cacheKeys (ctx.run.metadata.getOr "_workflow_cache_keys" (.obj [])) with
  | .error e => (cached, .error e)
  | .ok keys =>
    let entries := Json.obj (keys.put key (.str result.status.text))
    let run := { ctx.run with metadata := ctx.run.metadata.put "_workflow_cache_keys" entries }
    ({ cached with run }, .ok run)

def governanceKeys : List String :=
  ["actor_ref", "resource_ref", "resource_scope", "subject_version_refs", "subject_refs",
   "procedure_profile", "procedure_required", "procedure_applicability", "procedure_proofs",
   "obligation_proofs", "policy_obligations", "obligations", "independence_constraints",
   "reference_descriptors", "lease_owner", "lease_generation", "authorization_grant_id",
   "required_gates"]

/-- The governance facts of the Work, and those of the Run over them. -/
def governanceMetadata (ctx : InvokingContext) : Fields :=
  [ctx.work.metadata, ctx.run.metadata].foldl (fun collected source =>
    governanceKeys.foldl (fun collected key => match Fields.get? key source with
      | some v => collected.put key v
      | none => collected) collected) []

def requestId (runId capability : String) (size : Nat) : String :=
  s!"req_{runId}_{capability}_{size}"

/-- What `invoke` asks its factory for. -/
def arguments (ctx : InvokingContext) (key capability : String) (instruction : Option String)
    (parameters : Fields) : BuildArguments :=
  let metadata := ctx.governanceMetadata
  { capability, workId := some ctx.work.id, runId := some ctx.run.id, instruction, parameters,
    actorRef := metadata.get "actor_ref", resourceRef := metadata.get "resource_ref",
    subjectVersionRefs := match metadata.get "subject_version_refs" with
      | .str version => some [.str version]
      | .arr versions => some versions
      | _ => none
    idempotencyKey := some s!"{ctx.run.id}:{key}", stepKey := some key, metadata,
    requestId := some (requestId ctx.run.id capability ctx.invocationCache.entries.length) }

def invoke (digest : Json → String) (ctx : InvokingContext) (capability : String)
    (instruction : Option String) (parameters : Fields) (a : InvokeAnswers) : Invoked :=
  let key := cacheKey digest capability instruction parameters
  match ctx.invocationCache.get? key with
  | some result => { context := ctx, returned := .ok result }
  | none =>
    match a.factory.build digest (ctx.arguments key capability instruction parameters) with
    | .error e => { context := ctx, returned := .error e }
    | .ok request =>
      match a.service request with
      | .error e => { context := ctx, handed := some request, returned := .error e }
      | .ok result =>
        let (context, written) := ctx.storeCache key result
        { context, handed := some request,
          returned := (written.bind (fun _ => a.saved)).map (fun _ => result) }

def clearCache (ctx : InvokingContext) : InvokingContext :=
  if ctx.run.metadata.has "_workflow_cache_keys" then
    { ctx with
      run := { ctx.run with metadata := ctx.run.metadata.pop "_workflow_cache_keys" }
      invocationCache := .empty }
  else { ctx with invocationCache := .empty }

/-! ## The calls of a context -/

variable {digest : Json → String} {ctx : InvokingContext} {runId : String}

theorem toContext_storeCache {key : String} (hnew : ctx.invocationCache.get? key = none)
    (result : CapabilityResult) :
    (ctx.storeCache key result).1.toContext =
        (ctx.toContext.storeCache key result.status.text).1 ∧
      (ctx.storeCache key result).2.toOption =
        (ctx.toContext.storeCache key result.status.text).2 := by
  have hkeys : (ctx.invocationCache.set key result).keys.reverse =
      key :: ctx.invocationCache.keys.reverse := by
    rw [Dict.keys, Dict.entries_set_of_not_mem hnew, List.map_append, List.reverse_append]
    rfl
  unfold storeCache WorkflowContext.storeCache
  have hrun : ctx.toContext.run = ctx.run := rfl
  rw [hrun]
  cases WorkflowContext.cacheKeys (ctx.run.metadata.getOr "_workflow_cache_keys" (.obj [])) with
  | error e => exact ⟨by simp only [toContext, hkeys], rfl⟩
  | ok keys => exact ⟨by simp only [toContext, hkeys], rfl⟩

theorem toContext_clearCache (ctx : InvokingContext) :
    ctx.clearCache.toContext = ctx.toContext.clearCache.1 := by
  unfold clearCache WorkflowContext.clearCache
  have hrun : ctx.toContext.run = ctx.run := rfl
  rw [hrun]
  split <;> rfl

@[simp] theorem clearCache_run_id (ctx : InvokingContext) :
    ctx.clearCache.run.id = ctx.run.id := by
  unfold clearCache
  split <;> rfl

@[simp] theorem clearCache_invocationCache (ctx : InvokingContext) :
    ctx.clearCache.invocationCache = .empty := by
  unfold clearCache
  split <;> rfl

@[simp] theorem storeCache_run_id (ctx : InvokingContext) (key : String)
    (result : CapabilityResult) : (ctx.storeCache key result).1.run.id = ctx.run.id := by
  unfold storeCache
  split <;> rfl

@[simp] theorem storeCache_invocationCache (ctx : InvokingContext) (key : String)
    (result : CapabilityResult) :
    (ctx.storeCache key result).1.invocationCache = ctx.invocationCache.set key result := by
  unfold storeCache
  split <;> rfl

/-- A call hands nothing over and leaves the context alone, or it hands over the request that it
built, of a key that the context does not keep; a result is kept, an exception is not. -/
theorem invoke_cases (digest : Json → String) (ctx : InvokingContext) (capability : String)
    (instruction : Option String) (parameters : Fields) (a : InvokeAnswers) :
    let key := cacheKey digest capability instruction parameters
    let invoked := ctx.invoke digest capability instruction parameters a
    (invoked.handed = none ∧ invoked.context = ctx) ∨
    ∃ request, invoked.handed = some request ∧ ctx.invocationCache.get? key = none ∧
      a.factory.build digest (ctx.arguments key capability instruction parameters) = .ok request ∧
      ((∃ e, a.service request = .error e ∧ invoked.context = ctx) ∨
        ∃ result, a.service request = .ok result ∧
          invoked.context = (ctx.storeCache key result).1) := by
  intro key invoked
  unfold invoked invoke
  cases hcached : ctx.invocationCache.get? key with
  | some result => simp [key, hcached]
  | none =>
    cases hbuild : a.factory.build digest (ctx.arguments key capability instruction parameters) with
    | error e => simp [key, hcached, hbuild]
    | ok request =>
      right
      refine ⟨request, ?_⟩
      cases hservice : a.service request with
      | error e => simp [key, hcached, hbuild, hservice]
      | ok result => simp [key, hcached, hbuild, hservice]

end InvokingContext

/-! ## Runs of one context after another -/

inductive ContextMove where
  | invoke (capability : String) (instruction : Option String) (parameters : Fields)
      (answers : InvokeAnswers)
  | clearCache
  /-- A new context for the same Run. -/
  | recreate (work : Work) (run : Run)

/-- A request that was handed to the capability service, with the capability it was asked for,
the key of its work, and the number of results that the context kept. -/
structure Asked where
  capability : String
  key : String
  size : Nat
  request : InvocationRequest

namespace InvokingContext

def step (digest : Json → String) (ctx : InvokingContext) : ContextMove → InvokingContext
  | .invoke capability instruction parameters answers =>
    (ctx.invoke digest capability instruction parameters answers).context
  | .clearCache => ctx.clearCache
  | .recreate work run => { work, run := { run with id := ctx.run.id } }

def asked (digest : Json → String) (ctx : InvokingContext) : ContextMove → Option Asked
  | .invoke capability instruction parameters answers =>
    (ctx.invoke digest capability instruction parameters answers).handed.map (fun request =>
      { capability, key := cacheKey digest capability instruction parameters,
        size := ctx.invocationCache.entries.length, request })
  | _ => none

/-- The requests that a run hands to the capability service. -/
def handed (digest : Json → String) (ctx : InvokingContext) (moves : List ContextMove) :
    List InvocationRequest :=
  (emitted (step digest) (asked digest) ctx moves).map Asked.request

end InvokingContext

/-- Requests of one identifier are the same work. -/
def Unambiguous (requests : List InvocationRequest) : Prop :=
  ∀ r ∈ requests, ∀ r' ∈ requests, r.id = r'.id →
    r.stepKey = r'.stepKey ∧ r.idempotencyKey = r'.idempotencyKey

/-- A context and what has been asked for so far. -/
structure Asking where
  context : InvokingContext
  log : List Asked := []

def Asking.step (digest : Json → String) (s : Asking) (move : ContextMove) : Asking :=
  { context := s.context.step digest move
    log := s.log ++ (s.context.asked digest move).toList }

/-- Whenever a request is handed over, the context keeps another number of results than it kept
at each earlier request for that capability with another key. -/
def Asking.NewPlace (digest : Json → String) (s : Asking) (move : ContextMove) : Prop :=
  ∀ a, s.context.asked digest move = some a →
    ∀ earlier ∈ s.log, earlier.capability = a.capability → earlier.key ≠ a.key →
      earlier.size ≠ a.size

/-- The service returns a result for the request it is handed, and no kept result is dropped. -/
def InvokingContext.Growing (digest : Json → String) (ctx : InvokingContext) : ContextMove → Prop
  | .invoke capability instruction parameters answers =>
    ∀ request, (ctx.invoke digest capability instruction parameters answers).handed = some request →
      ∃ result, answers.service request = .ok result
  | _ => ctx.invocationCache.entries = []

/-! ## What an identifier tells -/

/-- Two lists that agree, and whose ends do not hold the letter that starts them. -/
theorem append_cons_inj {α : Type} {a b c d : List α} {bar : α} (hc : bar ∉ c) (hd : bar ∉ d)
    (h : a ++ bar :: c = b ++ bar :: d) : a = b ∧ c = d := by
  have hreverse : c.reverse ++ bar :: a.reverse = d.reverse ++ bar :: b.reverse := by
    have := congrArg List.reverse h
    simpa using this
  have hends : c = d := by
    have := eq_of_append_eq (by simpa using hc) (by simpa using hd) hreverse
    simpa using this
  subst hends
  exact ⟨List.append_cancel_right h, rfl⟩

/-- An identifier tells the capability and the number. -/
theorem requestId_inj {runId capability capability' : String} {n n' : Nat} :
    InvokingContext.requestId runId capability n = InvokingContext.requestId runId capability' n' ↔
      capability = capability' ∧ n = n' := by
  constructor
  · intro h
    have hlist := congrArg String.toList h
    have hbar : "_".toList = ['_'] := by decide
    have hdigits : ∀ m : Nat, '_' ∉ m.repr.toList := by
      intro m hmem
      exact absurd (isDigit_natRepr hmem) (by decide)
    simp only [InvokingContext.requestId, toString, String.toList_append, hbar, List.append_assoc,
      List.singleton_append] at hlist
    have hrest := List.append_cancel_left (List.append_cancel_left hlist)
    obtain ⟨hcapability, hnumber⟩ := append_cons_inj (hdigits n) (hdigits n') hrest
    exact ⟨String.toList_inj.mp (List.cons.inj hcapability).2, natRepr_injective hnumber⟩
  · rintro ⟨rfl, rfl⟩
    rfl

theorem given_of_ne {s : String} (h : s ≠ "") : given (some s) = some s :=
  Option.filter_eq_some_iff.mpr ⟨rfl, decide_eq_true h⟩

/-- A handed request carries what it was asked for under. -/
structure Asked.Named (runId : String) (a : Asked) : Prop where
  id : a.request.id = InvokingContext.requestId runId a.capability a.size
  stepKey : a.request.stepKey = some a.key
  idempotencyKey : a.request.idempotencyKey = some s!"{runId}:{a.key}"

/-- Requests for one capability at one number of results are of one key. -/
def Consistent (log : List Asked) : Prop :=
  ∀ a ∈ log, ∀ b ∈ log, a.capability = b.capability → a.size = b.size → a.key = b.key

theorem unambiguous_iff {runId : String} {log : List Asked} (h : ∀ a ∈ log, a.Named runId) :
    Unambiguous (log.map Asked.request) ↔ Consistent log := by
  constructor
  · intro hunambiguous a ha b hb hcapability hsize
    have hid : a.request.id = b.request.id := by
      rw [(h a ha).id, (h b hb).id, hcapability, hsize]
    have hkey := (hunambiguous a.request (List.mem_map_of_mem ha) b.request
      (List.mem_map_of_mem hb) hid).1
    rw [(h a ha).stepKey, (h b hb).stepKey] at hkey
    exact Option.some.inj hkey
  · intro hconsistent r hr r' hr' hid
    obtain ⟨a, ha, rfl⟩ := List.mem_map.mp hr
    obtain ⟨b, hb, rfl⟩ := List.mem_map.mp hr'
    rw [(h a ha).id, (h b hb).id, requestId_inj] at hid
    have hkey := hconsistent a ha b hb hid.1 hid.2
    rw [(h a ha).stepKey, (h b hb).stepKey, (h a ha).idempotencyKey, (h b hb).idempotencyKey, hkey]
    exact ⟨rfl, rfl⟩

namespace InvokingContext

variable {digest : Json → String} {ctx : InvokingContext}

theorem named_of_asked {move : ContextMove} {a : Asked} (h : ctx.asked digest move = some a) :
    a.Named ctx.run.id := by
  cases move with
  | invoke capability instruction parameters answers =>
    obtain ⟨request, hhanded, rfl⟩ := Option.map_eq_some_iff.mp h
    rcases invoke_cases digest ctx capability instruction parameters answers with
      ⟨hnone, -⟩ | ⟨request', hhanded', -, hbuild, -⟩
    · rw [hnone] at hhanded
      cases hhanded
    · rw [hhanded'] at hhanded
      obtain rfl := Option.some.inj hhanded
      have hidentified := InvocationFactory.identity_of_build hbuild
      refine ⟨hidentified.id _ (given_of_ne ?_), hidentified.stepKey _ (given_of_ne ?_),
        hidentified.idempotencyKey _ (given_of_ne ?_)⟩
      · simp [requestId, toString]
      · simp [cacheKey, toString]
      · simp [toString]
  | clearCache => cases h
  | recreate work run => cases h

@[simp] theorem step_run_id (digest : Json → String) (ctx : InvokingContext) (move : ContextMove) :
    (ctx.step digest move).run.id = ctx.run.id := by
  cases move with
  | invoke capability instruction parameters answers =>
    rcases invoke_cases digest ctx capability instruction parameters answers with
      ⟨-, hcontext⟩ | ⟨request, -, -, -, ⟨e, -, hcontext⟩ | ⟨result, -, hcontext⟩⟩
    · exact congrArg (fun c => c.run.id) hcontext
    · exact congrArg (fun c => c.run.id) hcontext
    · rw [step, hcontext, storeCache_run_id]
  | clearCache => exact clearCache_run_id ctx
  | recreate work run => rfl

/-- A handed request whose call returns a result leaves one more result in the context. -/
theorem length_of_growing {move : ContextMove} {a : Asked} (h : ctx.asked digest move = some a)
    (hgrowing : ctx.Growing digest move) :
    a.size = ctx.invocationCache.entries.length ∧
      (ctx.step digest move).invocationCache.entries.length =
        ctx.invocationCache.entries.length + 1 := by
  cases move with
  | invoke capability instruction parameters answers =>
    obtain ⟨request, hhanded, rfl⟩ := Option.map_eq_some_iff.mp h
    obtain ⟨result, hresult⟩ := hgrowing request hhanded
    refine ⟨rfl, ?_⟩
    rcases invoke_cases digest ctx capability instruction parameters answers with
      ⟨hnone, -⟩ | ⟨request', hhanded', hnew, -, ⟨e, herror, -⟩ | ⟨result', -, hcontext⟩⟩
    · rw [hnone] at hhanded
      cases hhanded
    · obtain rfl := Option.some.inj (hhanded'.symm.trans hhanded)
      rw [herror] at hresult
      cases hresult
    · rw [step, hcontext, storeCache_invocationCache, Dict.entries_set_of_not_mem hnew,
        List.length_append]
      rfl
  | clearCache => cases h
  | recreate work run => cases h

/-- A step that hands nothing over leaves as many results as there were, or drops them all. -/
theorem length_of_silent {move : ContextMove} (h : ctx.asked digest move = none)
    (hgrowing : ctx.Growing digest move) :
    (ctx.step digest move).invocationCache.entries.length = ctx.invocationCache.entries.length := by
  cases move with
  | invoke capability instruction parameters answers =>
    rcases invoke_cases digest ctx capability instruction parameters answers with
      ⟨-, hcontext⟩ | ⟨request, hhanded, -⟩
    · rw [step, hcontext]
    · rw [asked, hhanded] at h
      cases h
  | clearCache =>
    have hempty : ctx.invocationCache.entries = [] := hgrowing
    rw [step, clearCache_invocationCache, hempty]
    rfl
  | recreate work run =>
    have hempty : ctx.invocationCache.entries = [] := hgrowing
    rw [step, hempty]
    rfl

theorem named_of_run (moves : List ContextMove) :
    ∀ a ∈ emitted (step digest) (asked digest) ctx moves, a.Named ctx.run.id := by
  have hlog := (@emitted_invariant _ _ _ (step digest) (asked digest)
    (fun log c => c.run.id = ctx.run.id ∧ ∀ a ∈ log, a.Named ctx.run.id) ?_ [] ctx moves
    ⟨rfl, fun a ha => absurd ha List.not_mem_nil⟩).2
  · simpa using hlog
  · rintro log c move ⟨hid, hnamed⟩
    refine ⟨(step_run_id digest c move).trans hid, ?_⟩
    intro a ha
    rcases List.mem_append.mp ha with ha | ha
    · exact hnamed a ha
    · have hasked := Option.mem_toList.mp ha
      rw [← hid]
      exact named_of_asked hasked

end InvokingContext

/-! ## Runs -/

namespace Asking

variable {digest : Json → String}

theorem consistent_step {s : Asking} (h : Consistent s.log) (move : ContextMove) :
    Consistent (s.step digest move).log ↔ s.NewPlace digest move := by
  unfold step NewPlace
  cases hasked : s.context.asked digest move with
  | none => simpa using h
  | some a =>
    simp only [Option.toList_some, Option.some.injEq, forall_eq']
    constructor
    · intro hconsistent earlier hearlier hcapability hkey hsize
      exact hkey (hconsistent earlier (List.mem_append_left _ hearlier) a
        (List.mem_append_right _ (List.mem_singleton_self a)) hcapability hsize)
    · intro hnew x hx y hy hcapability hsize
      have hplace : ∀ e ∈ s.log, e.capability = a.capability → e.size = a.size → e.key = a.key := by
        intro e he hc hn
        by_contra hk
        exact hnew e he hc hk hn
      rcases List.mem_append.mp hx with hold | hlast <;> rcases List.mem_append.mp hy with hold' | hlast'
      · exact h x hold y hold' hcapability hsize
      · obtain rfl := List.mem_singleton.mp hlast'
        exact hplace x hold hcapability hsize
      · obtain rfl := List.mem_singleton.mp hlast
        exact (hplace y hold' hcapability.symm hsize.symm).symm
      · rw [List.mem_singleton.mp hlast, List.mem_singleton.mp hlast']

theorem log_run (s : Asking) (moves : List ContextMove) :
    (run (step digest) s moves).log = s.log ++
      emitted (InvokingContext.step digest) (InvokingContext.asked digest) s.context moves := by
  induction moves generalizing s with
  | nil => simp [emitted]
  | cons move rest ih =>
    rw [run_cons, ih, emitted, ← List.append_assoc]
    rfl

end Asking

/-- Requests that are handed over while results are only added never meet at one number. -/
theorem consistent_of_growing {digest : Json → String} {ctx : InvokingContext}
    {moves : List ContextMove}
    (h : Along (InvokingContext.step digest) (InvokingContext.Growing digest) ctx moves) :
    Consistent (emitted (InvokingContext.step digest) (InvokingContext.asked digest) ctx moves) := by
  have hlog := @emitted_invariant_along _ _ _ (InvokingContext.step digest)
    (InvokingContext.asked digest) _
    (fun log c => Consistent log ∧ ∀ a ∈ log, a.size < c.invocationCache.entries.length) ?_ [] ctx
    moves ⟨fun a ha => absurd ha List.not_mem_nil, fun a ha => absurd ha List.not_mem_nil⟩ h
  · simpa using hlog.1
  · rintro log c move ⟨hconsistent, hsizes⟩ hgrowing
    cases hasked : c.asked digest move with
    | none =>
      rw [InvokingContext.length_of_silent hasked hgrowing]
      simpa using ⟨hconsistent, hsizes⟩
    | some a =>
      obtain ⟨hsize, hlength⟩ := InvokingContext.length_of_growing hasked hgrowing
      have hnew : Asking.NewPlace digest ⟨c, log⟩ move := by
        intro a' ha' earlier hearlier _ _ hsame
        obtain rfl := Option.some.inj (hasked.symm.trans ha')
        have hless := hsizes earlier hearlier
        omega
      have hstep := (Asking.consistent_step (s := ⟨c, log⟩) hconsistent move).mpr hnew
      simp only [Asking.step, hasked] at hstep
      refine ⟨hstep, ?_⟩
      intro b hb
      rw [hlength]
      rcases List.mem_append.mp hb with hb | hb
      · have hless := hsizes b hb
        omega
      · rw [Option.toList_some, List.mem_singleton] at hb
        rw [hb, hsize]
        omega

/-- For every context and every sequence of its calls, of clearings and of new contexts for its
Run: requests of one identifier are the same work all along exactly when each request is asked
for at a new place; so they are where every handed call returns a result and no kept result is
dropped. -/
theorem request_identity_iff (digest : Json → String) (ctx : InvokingContext)
    (moves : List ContextMove) :
    ((∀ pre, pre <+: moves → Unambiguous (ctx.handed digest pre)) ↔
      Along (Asking.step digest) (Asking.NewPlace digest) { context := ctx } moves) ∧
    (Along (InvokingContext.step digest) (InvokingContext.Growing digest) ctx moves →
      Unambiguous (ctx.handed digest moves)) := by
  constructor
  · have halways := @always_iff_along _ _ (Asking.step digest) _ (fun s => Consistent s.log)
      (fun s move h => Asking.consistent_step h move) { context := ctx } moves
    have hempty : Consistent [] := fun a ha => absurd ha List.not_mem_nil
    rw [iff_true_intro hempty, true_and] at halways
    rw [← halways]
    refine forall₂_congr (fun pre _ => ?_)
    rw [Asking.log_run, List.nil_append]
    exact unambiguous_iff (InvokingContext.named_of_run pre)
  · intro h
    exact (unambiguous_iff (InvokingContext.named_of_run moves)).mpr (consistent_of_growing h)

/-! ## A cleared cache -/

/-- Every call is answered. -/
def answeringService : InvokeAnswers where
  factory := { contractRegistry := {} }
  service := fun request => .ok { requestId := request.id }

def clearedContext : InvokingContext where
  work := { id := "work_1", createdAt := 0, title := "", updatedAt := 0 }
  run := { id := "run_1", createdAt := 0, workId := "work_1" }

def clearedMoves : List ContextMove :=
  [.invoke "observe.logs" none [("query", .str "errors")] answeringService, .clearCache,
   .invoke "observe.logs" none [("query", .str "warnings")] answeringService]

/-- A digest that tells the queries apart. -/
def queryDigest : Json → String
  | .obj [_, _, ("params", .obj [("query", .str query)])] => query
  | _ => ""

theorem cleared_cache_repeats_id :
    ¬ ∀ (digest : Json → String) (ctx : InvokingContext) (moves : List ContextMove),
      Unambiguous (ctx.handed digest moves) := by
  intro h
  have hlog := (unambiguous_iff (InvokingContext.named_of_run clearedMoves)).mp
    (h queryDigest clearedContext clearedMoves)
  obtain ⟨a, ha⟩ : ∃ a, (emitted (InvokingContext.step queryDigest)
      (InvokingContext.asked queryDigest) clearedContext clearedMoves)[0]? = some a := ⟨_, rfl⟩
  obtain ⟨b, hb⟩ : ∃ b, (emitted (InvokingContext.step queryDigest)
      (InvokingContext.asked queryDigest) clearedContext clearedMoves)[1]? = some b := ⟨_, rfl⟩
  have hkey := hlog a (List.mem_of_getElem? ha) b (List.mem_of_getElem? hb)
  obtain rfl := Option.some.inj ha
  obtain rfl := Option.some.inj hb
  exact absurd (hkey rfl rfl) (by decide)

end PortableRuntime
