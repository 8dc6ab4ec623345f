import PortableRuntime.Triggers.Idempotency

/-!
# The transport of provider requests

A request that carries an id is posted only when the transport's store has not seen the id.  What
the other side answers is a parameter of each request.
-/

namespace PortableRuntime

inductive TransportErrorCategory where
  | transient | permanent | timeout | auth | rateLimited | unknown
deriving Repr, DecidableEq, Inhabited

structure TransportError where
  message : String
  category : TransportErrorCategory
  statusCode : Option Int := none
deriving Repr, DecidableEq

/-- An exception as the classifier sees it. -/
structure Raised where
  typeName : String
  message : String
deriving Repr, DecidableEq

/-- What comes of a post: an answer, whose body may not be JSON, or an exception. -/
inductive HttpReply where
  | response (statusCode : Int) (text : String) (json : Except Raised Json)
  | timeoutException (e : Raised)
  | httpStatusError (statusCode : Int) (e : Raised)
  | exception (e : Raised)

def classifyTransportError (statusCode : Option Int) (exception : Option Raised) :
    TransportErrorCategory :=
  let byStatus : TransportErrorCategory :=
    match statusCode with
    | none => .unknown
    | some code =>
      if code = 408 ∨ code = 429 then if code = 429 then .rateLimited else .timeout
      else if code = 401 ∨ code = 403 then .auth
      else if 500 ≤ code ∧ code < 600 then .transient
      else if 400 ≤ code ∧ code < 500 then .permanent
      else .unknown
  match exception with
  | none => byStatus
  | some e =>
    let name := Text.lower e.typeName
    let msg := Text.lower e.message
    if Text.hasInfix name "timeout" || Text.hasInfix msg "timeout" then .timeout
    else if ["auth", "unauthorized", "forbidden"].any (Text.hasInfix msg) then .auth
    else byStatus

def TransportError.isTransient (e : TransportError) : Bool :=
  [TransportErrorCategory.transient, .timeout, .rateLimited].contains e.category

structure HttpxProviderTransport where
  idempotencyStore : Option IdempotencyStore

namespace HttpxProviderTransport

/-- What a post gives its caller. -/
def answered : HttpReply → Except TransportError Fields
  | .response statusCode text json =>
    if statusCode ≥ 400 then
      .error ⟨"http " ++ toString statusCode ++ ": " ++ String.ofList (text.toList.take 500),
        classifyTransportError (some statusCode) none, some statusCode⟩
    else match json with
      | .ok (.obj fields) => .ok fields
      | .ok data => .ok [("result", data)]
      | .error e => .error ⟨e.message, classifyTransportError none (some e), none⟩
  | .timeoutException e => .error ⟨e.message, .timeout, none⟩
  | .httpStatusError statusCode e =>
    .error ⟨e.message, classifyTransportError (some statusCode) (some e), some statusCode⟩
  | .exception e => .error ⟨e.message, classifyTransportError none (some e), none⟩

def idemKey (payload : Fields) : String :=
  (((payload.get "id").pyOr (payload.get "request_id")).pyOr (.str "")).pyStr

/-- What a request gives its caller, and what has been posted. -/
structure Exchange where
  posted : List Fields
  result : Except TransportError Fields

def duplicate (key : String) : TransportError := ⟨"duplicate request: " ++ key, .permanent, none⟩

def request (t : HttpxProviderTransport) (payload : Fields) (reply : HttpReply)
    (now stamp : Time) : Exchange × HttpxProviderTransport :=
  match t.idempotencyStore with
  | none => (⟨[payload], answered reply⟩, t)
  | some store =>
    if idemKey payload = "" then (⟨[payload], answered reply⟩, t)
    else
      let (stored, store) := store.checkAndStore now stamp (idemKey payload)
      if stored then (⟨[payload], answered reply⟩, { idempotencyStore := some store })
      else (⟨[], .error (duplicate (idemKey payload))⟩, { idempotencyStore := some store })

/-! ## What a transport is for -/

/-- The id that is looked up. -/
def asks (x : Fields × HttpReply) : Option String :=
  if idemKey x.1 = "" then none else some (idemKey x.1)

def responds (x : Fields × HttpReply) (answer : Option Bool) : Exchange :=
  if answer = some false then ⟨[], .error (duplicate (idemKey x.1))⟩ else ⟨[x.1], answered x.2⟩

theorem request_eq (store : IdempotencyStore) (x : Fields × HttpReply) (now stamp : Time) :
    ({ idempotencyStore := some store } : HttpxProviderTransport).request x.1 x.2 now stamp =
      (responds x (store.screen now stamp (asks x)).1,
        { idempotencyStore := some (store.screen now stamp (asks x)).2 }) := by
  unfold request asks responds
  by_cases hkey : idemKey x.1 = ""
  · simp only [hkey, if_true, IdempotencyStore.screen, reduceCtorEq, if_false]
  · simp only [hkey, if_false, IdempotencyStore.screen, Prod.map, id_eq]
    cases (store.checkAndStore now stamp (idemKey x.1)).1 with
    | false => rfl
    | true => rfl

/-- A request that its id keeps from being posted is refused for good, and not as one to retry. -/
theorem responds_seen {x : Fields × HttpReply} {l : KeyLedger} {now stamp : Time} {key : String}
    (hkey : asks x = some key) (hseen : l.seen now key = true) :
    ∃ e, responds x (l.screen now stamp (asks x)).1 = ⟨[], .error e⟩ ∧ e.isTransient = false := by
  refine ⟨duplicate (idemKey x.1), ?_, rfl⟩
  rw [hkey]
  show responds x (some (!l.seen now key)) = _
  rw [hseen]
  rfl

/-! ## Runs of requests -/

def receive (w : Clocked HttpxProviderTransport) (a : Arrival (Fields × HttpReply)) :
    Clocked HttpxProviderTransport :=
  { state := (w.state.request a.input.1 a.input.2 (w.now + a.elapsed)
      (w.now + a.elapsed + a.pause)).2,
    now := w.now + a.elapsed + a.pause }

def exchange (w : Clocked HttpxProviderTransport) (a : Arrival (Fields × HttpReply)) :
    Option Exchange :=
  some (w.state.request a.input.1 a.input.2 (w.now + a.elapsed) (w.now + a.elapsed + a.pause)).1

/-- A transport and its store, along a run. -/
def Follows (w : Clocked HttpxProviderTransport) (w' : Clocked IdempotencyStore) : Prop :=
  w.now = w'.now ∧ w.state = { idempotencyStore := some w'.state }

/-- Whatever becomes of the posts, a transport with a store answers every run of requests as if it
asked a ledger that forgets nothing, which lets no id in again in its time; and while an id counts
as seen, a request that carries it is not posted and is refused as one not to be tried again. -/
theorem transport_posts_once (ttlSeconds : Time) (maxEntries : Int) (start : Time)
    (arrivals : List (Arrival (Fields × HttpReply))) :
    let t : HttpxProviderTransport := { idempotencyStore := some { ttlSeconds, maxEntries } }
    let ledger : Clocked KeyLedger := ⟨{ ttlSeconds, maxEntries }, start⟩
    let recorded := run (Clocked.receive asks KeyLedger.screen) ledger arrivals
    emitted receive exchange ⟨t, start⟩ arrivals =
        emitted (Clocked.receive asks KeyLedger.screen)
          (Clocked.outcome asks responds KeyLedger.screen) ledger arrivals ∧
      recorded.state.Apart ∧
      ∀ (a : Arrival (Fields × HttpReply)) (key : String), asks a.input = some key →
        recorded.state.seen (recorded.now + a.elapsed) key = true →
          ∃ e, exchange (run receive ⟨t, start⟩ arrivals) a = some ⟨[], .error e⟩ ∧
            e.isTransient = false := by
  intro t ledger recorded
  obtain ⟨hscreened, hnow, hrecalls⟩ := screening_recalls asks responds
    (.start ttlSeconds maxEntries start) arrivals
  have hfollows : emitted receive exchange ⟨t, start⟩ arrivals =
        emitted (Clocked.receive asks IdempotencyStore.screen)
          (Clocked.outcome asks responds IdempotencyStore.screen)
          ⟨{ ttlSeconds, maxEntries }, start⟩ arrivals ∧
      Follows (run receive ⟨t, start⟩ arrivals)
        (run (Clocked.receive asks IdempotencyStore.screen) ⟨{ ttlSeconds, maxEntries }, start⟩
          arrivals) := by
    refine emitted_eq_of_related ?_ ?_ ⟨rfl, rfl⟩
    · intro w w' a hw
      rw [exchange, Clocked.outcome, Clocked.screened, hw.2, hw.1, request_eq]
    · intro w w' a hw
      refine ⟨?_, ?_⟩
      · show w.now + a.elapsed + a.pause = w'.now + a.elapsed + a.pause
        rw [hw.1]
      · show (w.state.request _ _ _ _).2 = _
        rw [hw.2, hw.1, request_eq]
        rfl
  refine ⟨hfollows.1.trans hscreened,
    screening_apart asks (KeyLedger.apart_nil ttlSeconds maxEntries) start arrivals, ?_⟩
  intro a key hkey hseen
  obtain ⟨-, hclock, hstate⟩ := hfollows
  have hlater := hrecalls.later (Int.le_add_of_nonneg_right (Int.natCast_nonneg a.elapsed))
  have hanswer := (hlater.screen (Int.le_add_of_nonneg_right (Int.natCast_nonneg a.pause))
    (asks a.input)).1
  rw [hnow] at hanswer hclock
  obtain ⟨e, hresponse, htransient⟩ :=
    @responds_seen a.input _ _ (recorded.now + a.elapsed + a.pause) key hkey hseen
  refine ⟨e, ?_, htransient⟩
  rw [exchange, hstate, hclock, request_eq, hanswer, hresponse]

/-- A request that timed out is refused when it comes again a second later. -/
theorem transport_refuses_retry :
    let t : HttpxProviderTransport := { idempotencyStore := some {} }
    let late : HttpReply := .timeoutException ⟨"ReadTimeout", "timed out"⟩
    let payload : Fields := [("id", .str "r1")]
    ∃ e, exchange (run receive ⟨t, 0⟩ [⟨0, 0, payload, late⟩]) ⟨1000000, 0, payload, late⟩ =
      some ⟨[], .error e⟩ ∧ e.isTransient = false := by
  intro t late payload
  exact (transport_posts_once 3600000000 10000 0 [⟨0, 0, payload, late⟩]).2.2
    ⟨1000000, 0, payload, late⟩ "r1" (by decide) (by decide)

end HttpxProviderTransport
end PortableRuntime
