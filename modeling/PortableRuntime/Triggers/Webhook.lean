import PortableRuntime.Triggers.Base

/-!
# The webhook trigger

A delivery is checked against the trigger's secret, and only then may its key be marked as
processed; the event is emitted once the key is marked.
-/

namespace PortableRuntime

structure WebhookTrigger where
  id : String := "webhook"
  secret : Option String := none
  store : IdempotencyStore := {}

/-- `WebhookTrigger(trigger_id, secret, idempotency_store)`. -/
def WebhookTrigger.create (triggerId : String) (secret : Option String)
    (idempotencyStore : Option IdempotencyStore) (now : Time) : WebhookTrigger :=
  { id := triggerId, secret, store := TriggerIdempotencyStore.orDefault idempotencyStore now }

/-- The arguments of `handle`. -/
structure WebhookDelivery where
  payload : Fields
  kind : String := "webhook"
  signature : Option String := none
  rawBody : Option ByteArray := none

/-- What a handler takes from its surroundings besides the clock: the emitter as it stands, random
digits, cut and whole, and the time of day. -/
structure TriggerSurroundings where
  emit : TriggerEmitter
  hex : String
  uuid : String
  occurredAt : Time

namespace WebhookDelivery

/-- The bytes that a signature is checked against. -/
def body (d : WebhookDelivery) : ByteArray := d.rawBody.getD (sortedText (.obj d.payload)).toUTF8

def dedupKey (d : WebhookDelivery) : String :=
  let named := (((d.payload.get "id").pyOr (d.payload.get "dedup_key")).pyOr
    (d.payload.get "fingerprint")).pyOr (.str "")
  let key := named.pyStr
  if key = "" then sortedText (.obj d.payload) else key

end WebhookDelivery

namespace WebhookTrigger

variable (hmac : Hmac)

def checkSignature (t : WebhookTrigger) (d : WebhookDelivery) : Except TriggerFailure Unit :=
  if t.secret.isSome then
    match d.signature with
    | none => if d.rawBody.isSome then .error (signatureError "missing signature") else .ok ()
    | some signature =>
      requireVerified hmac t.secret d.body signature "invalid webhook signature"
  else .ok ()

def handle (t : WebhookTrigger) (d : WebhookDelivery) (env : TriggerSurroundings)
    (now stamp : Time) : TriggerResponse TriggerEvent × WebhookTrigger :=
  match t.checkSignature hmac d with
  | .error e => (⟨[], .error e⟩, t)
  | .ok () =>
    let (marked, store) := TriggerIdempotencyStore.markProcessed t.store now stamp d.dedupKey
    if marked then
      let event : TriggerEvent :=
        { id := "evt_webhook_" ++ env.hex, source := t.id, kind := d.kind, payload := d.payload,
          occurredAt := env.occurredAt }
      (env.emit.deliver event, { t with store })
    else
      let shown := String.ofList (d.dedupKey.toList.take 80)
      (⟨[], .error (duplicateError ("duplicate webhook event: " ++ shown))⟩, { t with store })

/-! ## What a trigger is for -/

/-- A delivery that a trigger lets through: it has no secret, or the delivery brings neither a
signature nor a body, or its signature is the keyed hash of what it delivers. -/
def Authentic (secret : Option String) (d : WebhookDelivery) : Prop :=
  ∀ key, secret = some key →
    (d.signature = none ∧ d.rawBody = none) ∨
      ∃ signature, d.signature = some signature ∧ signature ≠ "" ∧ key ≠ "" ∧
        Text.isAscii (hmac key.toUTF8 d.body) = true ∧
          hmac key.toUTF8 d.body = Text.digestOf signature

theorem checkSignature_eq_ok {t : WebhookTrigger} {d : WebhookDelivery} :
    t.checkSignature hmac d = .ok () ↔ Authentic hmac t.secret d := by
  unfold checkSignature Authentic
  cases hsecret : t.secret with
  | none => simp
  | some key =>
    simp only [Option.isSome_some, if_true, Option.some.injEq, forall_eq']
    cases hsignature : d.signature with
    | none =>
      cases hbody : d.rawBody with
      | none => simp
      | some body => simp
    | some signature =>
      simp only [requireVerified_eq_ok, verifyWith_eq_ok, Option.some.injEq, reduceCtorEq, false_and,
        false_or, exists_eq_left']

theorem status_of_checkSignature {t : WebhookTrigger} {d : WebhookDelivery} {e : TriggerError}
    (h : t.checkSignature hmac d = .error (.trigger e)) :
    e.statusCode = httpStatusForTriggerError e.category := by
  unfold checkSignature at h
  split at h
  · split at h
    · split at h
      · cases h
        rfl
      · cases h
    · exact status_of_requireVerified h
  · cases h

/-- What is raised for a delivery that is not authentic. -/
def refusal (t : WebhookTrigger) (d : WebhookDelivery) : TriggerFailure :=
  match t.checkSignature hmac d with
  | .error e => e
  | .ok () => signatureError ""

open Classical in
/-- Only an authentic delivery asks whether its key is new. -/
noncomputable def asks (t : WebhookTrigger) (x : WebhookDelivery × TriggerSurroundings) :
    Option String :=
  if Authentic hmac t.secret x.1 then some x.1.dedupKey else none

def event (t : WebhookTrigger) (x : WebhookDelivery × TriggerSurroundings) : TriggerEvent :=
  { id := "evt_webhook_" ++ x.2.hex, source := t.id, kind := x.1.kind, payload := x.1.payload,
    occurredAt := x.2.occurredAt }

/-- The response to a delivery, once it is known whether its key is new. -/
def responds (t : WebhookTrigger) (x : WebhookDelivery × TriggerSurroundings) :
    Option Bool → TriggerResponse TriggerEvent
  | none => ⟨[], .error (t.refusal hmac x.1)⟩
  | some false =>
    ⟨[], .error (duplicateError ("duplicate webhook event: " ++
      String.ofList (x.1.dedupKey.toList.take 80)))⟩
  | some true => x.2.emit.deliver (t.event x)

/-- A trigger's handling of a delivery is a question to its store and the response to the answer. -/
theorem handle_eq (t : WebhookTrigger) (x : WebhookDelivery × TriggerSurroundings)
    (now stamp : Time) :
    t.handle hmac x.1 x.2 now stamp =
      (t.responds hmac x (IdempotencyStore.screen now stamp t.store (t.asks hmac x)).1,
        { t with store := (IdempotencyStore.screen now stamp t.store (t.asks hmac x)).2 }) := by
  unfold handle asks TriggerIdempotencyStore.markProcessed
  cases hcheck : t.checkSignature hmac x.1 with
  | error e =>
    have hforged : ¬ Authentic hmac t.secret x.1 := by
      rw [← checkSignature_eq_ok, hcheck]
      exact fun h => nomatch h
    rw [if_neg hforged]
    simp only [IdempotencyStore.screen, responds, refusal, hcheck]
  | ok u =>
    rw [if_pos ((checkSignature_eq_ok hmac).mp hcheck)]
    simp only [IdempotencyStore.screen, Prod.map, id_eq]
    cases (IdempotencyStore.checkAndStore t.store now stamp x.1.dedupKey).1 with
    | false => rfl
    | true => rfl

/-- An error of the trigger's own is raised with the status that its category stands for. -/
theorem status_of_handle {t : WebhookTrigger} {d : WebhookDelivery} {env : TriggerSurroundings}
    {now stamp : Time} {e : TriggerError}
    (h : (t.handle hmac d env now stamp).1.result = .error (.trigger e)) :
    e.statusCode = httpStatusForTriggerError e.category := by
  unfold handle at h
  cases hcheck : t.checkSignature hmac d with
  | error failure =>
    rw [hcheck] at h
    have hfailure : (.error failure : Except TriggerFailure Unit) = .error (.trigger e) :=
      congrArg Except.error (Except.error.inj h)
    exact status_of_checkSignature hmac (hcheck.trans hfailure)
  | ok u =>
    rw [hcheck] at h
    simp only at h
    split at h
    · exact absurd h (env.emit.deliver_ne_trigger _ e)
    · cases h
      rfl

/-! ## Runs of deliveries -/

/-- A trigger and the last reading of the clock, after a delivery. -/
def receive (w : Clocked WebhookTrigger) (a : Arrival (WebhookDelivery × TriggerSurroundings)) :
    Clocked WebhookTrigger :=
  { state := (w.state.handle hmac a.input.1 a.input.2 (w.now + a.elapsed)
      (w.now + a.elapsed + a.pause)).2,
    now := w.now + a.elapsed + a.pause }

def response (w : Clocked WebhookTrigger) (a : Arrival (WebhookDelivery × TriggerSurroundings)) :
    Option (TriggerResponse TriggerEvent) :=
  some (w.state.handle hmac a.input.1 a.input.2 (w.now + a.elapsed)
    (w.now + a.elapsed + a.pause)).1

/-- A trigger as it was made, and its store alone, along a run. -/
def Follows (t : WebhookTrigger) (w : Clocked WebhookTrigger) (w' : Clocked IdempotencyStore) :
    Prop :=
  w.now = w'.now ∧ w.state = { t with store := w'.state }

end WebhookTrigger
end PortableRuntime
