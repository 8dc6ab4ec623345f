import PortableRuntime.Triggers.Webhook

/-!
# The Alertmanager trigger

A webhook of the alert manager brings a batch of alerts.  The handler looks at them one after the
other and waits for the emitter between two of them, so that the steps of several batches may come
in any order.
-/

namespace PortableRuntime

structure AlertmanagerTrigger where
  id : String := "alertmanager"
  secret : Option String := none
  store : IdempotencyStore := {}

/-- `AlertmanagerTrigger(trigger_id, secret, idempotency_store)`. -/
def AlertmanagerTrigger.create (triggerId : String) (secret : Option String)
    (idempotencyStore : Option IdempotencyStore) (now : Time) : AlertmanagerTrigger :=
  { id := triggerId, secret, store := TriggerIdempotencyStore.orDefault idempotencyStore now }

/-! ## One alert -/

/-- `labels` of an alert, when they are a dictionary. -/
def alertLabels (alert : Fields) : Fields := (alert.get "labels").asFields?.getD []

def alertFingerprint (alert : Fields) : Json :=
  ((alert.get "fingerprint").pyOr ((alertLabels alert).get "fingerprint")).pyOr (.str "")

def alertDedupKey (alert : Fields) : String :=
  (alertFingerprint alert).pyStr ++ ":" ++ ((alertLabels alert).getOr "alertname" (.str "")).pyStr ++
    ":" ++ (alert.getOr "startsAt" (.str "")).pyStr

namespace AlertmanagerTrigger

variable (hmac : Hmac)

/-- The event of an alert; without a fingerprint its id is random. -/
def event (t : AlertmanagerTrigger) (alert : Fields) (env : TriggerSurroundings) : TriggerEvent :=
  let name := (alertFingerprint alert).pyOr (.str env.uuid)
  { id := "evt_" ++ name.pyStr ++ "_" ++ env.hex, source := t.id,
    kind := ((alertLabels alert).getOr "alertname" (.str "alert")).pyStr, payload := alert,
    occurredAt := env.occurredAt }

/-- The key of an alert that is looked up: what is no dictionary, or has no fingerprint, is not. -/
def asks (alert : Json) : Option String :=
  match alert.asFields? with
  | none => none
  | some fields => if (alertFingerprint fields).truthy then some (alertDedupKey fields) else none

/-- One pass through the loop of `handle_webhook`. -/
def handleAlert (t : AlertmanagerTrigger) (alert : Json) (env : TriggerSurroundings)
    (now stamp : Time) : TriggerResponse (Option TriggerEvent) × AlertmanagerTrigger :=
  match alert.asFields? with
  | none => (⟨[], .ok none⟩, t)
  | some fields =>
    let (marked, store) :=
      if (alertFingerprint fields).truthy then
        TriggerIdempotencyStore.markProcessed t.store now stamp (alertDedupKey fields)
      else (true, t.store)
    if marked then
      let sent := env.emit.deliver (t.event fields env)
      (⟨sent.handed, sent.result.map some⟩, { t with store })
    else
      (⟨[], .error (duplicateError ("duplicate alert: " ++ (alertFingerprint fields).pyStr))⟩,
        { t with store })

/-! ## A batch -/

/-- The check of the signature, and the alerts of the payload. -/
def openBatch (t : AlertmanagerTrigger) (payload : Json) (signature : Option String)
    (rawBody : Option ByteArray) : Except TriggerFailure (List Json) := do
  if t.secret.isSome then
    let body := rawBody.getD (sortedText payload).toUTF8
    if signature.getD "" = "" then throw (signatureError "missing alertmanager signature")
    requireVerified hmac t.secret body (signature.getD "") "invalid alertmanager signature"
  match payload with
  | .obj fields => ((Fields.getOr fields "alerts" (.arr [payload])).iterate).mapError .other
  | _ => return []

/-- The rest of a batch, with what each pass takes from its surroundings. -/
def handleAlerts (w : Clocked AlertmanagerTrigger) (events : List TriggerEvent) :
    List (Arrival (Json × TriggerSurroundings)) →
      TriggerResponse (List TriggerEvent) × Clocked AlertmanagerTrigger
  | [] => (⟨[], .ok events⟩, w)
  | a :: rest =>
    let now := w.now + a.elapsed
    let (pass, t) := w.state.handleAlert a.input.1 a.input.2 now (now + a.pause)
    let w : Clocked AlertmanagerTrigger := ⟨t, now + a.pause⟩
    match pass.result with
    | .error e => (⟨pass.handed, .error e⟩, w)
    | .ok event =>
      let (later, w) := handleAlerts w (events ++ event.toList) rest
      (⟨pass.handed ++ later.handed, later.result⟩, w)

/-- `handle_webhook`; `env` is what each pass through the loop takes from its surroundings. -/
def handleWebhook (w : Clocked AlertmanagerTrigger) (payload : Json) (signature : Option String)
    (rawBody : Option ByteArray) (env : Nat → Arrival TriggerSurroundings) :
    TriggerResponse (List TriggerEvent) × Clocked AlertmanagerTrigger :=
  match w.state.openBatch hmac payload signature rawBody with
  | .error e => (⟨[], .error e⟩, w)
  | .ok alerts =>
    handleAlerts w [] (alerts.mapIdx (fun i alert =>
      ⟨(env i).elapsed, (env i).pause, alert, (env i).input⟩))

end AlertmanagerTrigger
end PortableRuntime
