import PortableRuntime.Python.JsonText
import PortableRuntime.Triggers.Idempotency

/-!
# Triggers

What every trigger shares: its events, its errors and the check of a signature.  The keyed hash is
`hmac`, from a secret and a payload to hexadecimal digits; it is a parameter.
-/

namespace PortableRuntime

structure TriggerEvent where
  id : String
  source : String
  kind : String
  payload : Fields
  occurredAt : Time

inductive TriggerErrorCategory where
  | validation | signature | duplicate | processing | transient | permanent
deriving Repr, DecidableEq, Inhabited

structure TriggerError where
  message : String
  category : TriggerErrorCategory
  statusCode : Int := 400
deriving Repr, DecidableEq

/-- What a handler raises: an error of its own, or one of something it calls. -/
inductive TriggerFailure where
  | trigger (e : TriggerError)
  | other (e : PyError)
deriving Repr, DecidableEq

def httpStatusForTriggerError : TriggerErrorCategory → Int
  | .validation => 400
  | .signature => 401
  | .duplicate => 409
  | .processing => 500
  | .transient => 503
  | .permanent => 400

namespace Text

def isAscii (s : String) : Bool := s.toList.all (fun c => c.toNat < 128)

/-- `hmac.compare_digest` of two texts. -/
def compareDigest (a b : String) : Result Bool :=
  if isAscii a && isAscii b then .ok (a == b)
  else .error (.typeError "comparing strings with non-ASCII characters is not supported")

/-- What follows the first equals sign of a signature, when it has one. -/
def digestOf (signature : String) : String :=
  let sig := strip signature
  if sig.toList.contains '=' then
    strip (String.ofList ((sig.toList.dropWhile (fun c => c != '=')).drop 1))
  else sig

end Text

/-- `hmac.new(secret, payload, sha256).hexdigest()`. -/
abbrev Hmac := ByteArray → ByteArray → String

def verifySignature (hmac : Hmac) (payload : ByteArray) (signature secret : String) : Result Bool :=
  if secret = "" then .ok false
  else Text.compareDigest (hmac secret.toUTF8 payload) (Text.digestOf signature)

/-- The `verify` of a trigger that may have a secret. -/
def verifyWith (hmac : Hmac) (secret : Option String) (payload : ByteArray) (signature : String) :
    Result Bool :=
  match secret with
  | none => .ok true
  | some secret => if signature = "" then .ok false else verifySignature hmac payload signature secret

/-- `json.dumps(payload, sort_keys=True)`. -/
def sortedText (payload : Json) : String := payload.dumps { sortKeys := true }

def signatureError (message : String) : TriggerFailure := .trigger ⟨message, .signature, 401⟩

def duplicateError (message : String) : TriggerFailure := .trigger ⟨message, .duplicate, 409⟩

/-- Refuse with a message what does not verify. -/
def requireVerified (hmac : Hmac) (secret : Option String) (body : ByteArray) (signature : String)
    (message : String) : Except TriggerFailure Unit :=
  match verifyWith hmac secret body signature with
  | .error e => .error (.other e)
  | .ok false => .error (signatureError message)
  | .ok true => .ok ()

/-- Where events go, when the trigger has been started. -/
abbrev TriggerEmitter := Option (TriggerEvent → Result Unit)

/-- What comes of a delivery: the events handed to the emitter, and what is returned or raised. -/
structure TriggerResponse (α : Type) where
  handed : List TriggerEvent
  result : Except TriggerFailure α

/-- `if self._emit: await self._emit(event)`, and the event. -/
def TriggerEmitter.deliver (emit : TriggerEmitter) (event : TriggerEvent) :
    TriggerResponse TriggerEvent :=
  match emit with
  | none => ⟨[], .ok event⟩
  | some send => match send event with
    | .ok _ => ⟨[event], .ok event⟩
    | .error e => ⟨[event], .error (.other e)⟩

/-- What an emitter raises is not an error of the trigger. -/
theorem TriggerEmitter.deliver_ne_trigger (emit : TriggerEmitter) (event : TriggerEvent)
    (e : TriggerError) : (emit.deliver event).result ≠ .error (.trigger e) := by
  intro h
  unfold TriggerEmitter.deliver at h
  split at h
  · cases h
  · split at h
    · cases h
    · cases h

/-- What is delivered is the event itself. -/
theorem TriggerEmitter.eq_of_deliver {emit : TriggerEmitter} {event sent : TriggerEvent}
    (h : (emit.deliver event).result = .ok sent) : sent = event := by
  unfold TriggerEmitter.deliver at h
  split at h
  · cases h
    rfl
  · split at h
    · cases h
      rfl
    · cases h

/-! ## Signatures -/

theorem requireVerified_eq_ok {hmac : Hmac} {secret : Option String} {body : ByteArray}
    {signature message : String} :
    requireVerified hmac secret body signature message = .ok () ↔
      verifyWith hmac secret body signature = .ok true := by
  unfold requireVerified
  cases verifyWith hmac secret body signature with
  | error e => simp
  | ok b => cases b <;> simp

theorem status_of_requireVerified {hmac : Hmac} {secret : Option String} {body : ByteArray}
    {signature message : String} {e : TriggerError}
    (h : requireVerified hmac secret body signature message = .error (.trigger e)) :
    e.statusCode = httpStatusForTriggerError e.category := by
  unfold requireVerified at h
  split at h
  · cases h
  · cases h
    rfl
  · cases h

theorem verifyWith_eq_ok {hmac : Hmac} {secret : String} {body : ByteArray} {signature : String} :
    verifyWith hmac (some secret) body signature = .ok true ↔
      signature ≠ "" ∧ secret ≠ "" ∧ Text.isAscii (hmac secret.toUTF8 body) = true ∧
        hmac secret.toUTF8 body = Text.digestOf signature := by
  unfold verifyWith verifySignature Text.compareDigest
  by_cases hsignature : signature = ""
  · simp [hsignature]
  by_cases hsecret : secret = ""
  · simp [hsignature, hsecret]
  simp only [hsignature, hsecret, if_false, ne_eq, not_false_eq_true, true_and]
  constructor
  · intro h
    split at h
    · rename_i hascii
      rw [Bool.and_eq_true] at hascii
      exact ⟨hascii.1, by simpa using h⟩
    · cases h
  · intro h
    have hascii : Text.isAscii (Text.digestOf signature) = true := h.2 ▸ h.1
    rw [h.1, hascii, h.2]
    simp

end PortableRuntime
