import PortableRuntime.Triggers.Alertmanager

/-!
# Batches of alerts in any order

Calls of `handle_webhook` overlap: each looks at its alerts one at a time, and between two of them
any other call may take a step.  A batch stops for good at the first alert that raises.
-/

namespace PortableRuntime

/-- A call of `handle_webhook` under way: how many of its alerts have been dealt with, and what it
will return or has raised. -/
structure AlertBatch where
  alerts : List Json
  taken : Nat := 0
  events : List TriggerEvent := []
  raised : Option TriggerFailure := none

namespace AlertBatch

def next? (b : AlertBatch) : Option Json :=
  if b.raised.isSome then none else b.alerts[b.taken]?

def passed (b : AlertBatch) : Except TriggerFailure (Option TriggerEvent) → AlertBatch
  | .ok event => { b with taken := b.taken + 1, events := b.events ++ event.toList }
  | .error e => { b with raised := some e }

/-- What a call has come to. -/
def outcome (b : AlertBatch) : Except TriggerFailure (List TriggerEvent) :=
  match b.raised with
  | some e => .error e
  | none => .ok b.events

/-- The events of a batch are those of the alerts it has dealt with, one for each dictionary. -/
structure Faithful (b : AlertBatch) : Prop where
  taken : b.taken ≤ b.alerts.length
  events : b.events.map TriggerEvent.payload = (b.alerts.take b.taken).filterMap Json.asFields?

end AlertBatch

/-- A trigger, the last reading of the clock, and the calls it has received. -/
structure AlertDesk where
  trigger : AlertmanagerTrigger
  now : Time
  batches : List AlertBatch := []

inductive AlertMove where
  | arrive (payload : Json) (signature : Option String) (rawBody : Option ByteArray)
  /-- The next pass of a call through its loop. -/
  | pass (batch : Nat) (a : Arrival TriggerSurroundings)

namespace AlertDesk

variable (hmac : Hmac)

def arrive (d : AlertDesk) (payload : Json) (signature : Option String)
    (rawBody : Option ByteArray) : AlertDesk :=
  match d.trigger.openBatch hmac payload signature rawBody with
  | .error e => { d with batches := d.batches ++ [{ alerts := [], raised := some e }] }
  | .ok alerts => { d with batches := d.batches ++ [{ alerts }] }

/-- The call that a pass belongs to, and the alert that it looks at. -/
def due (d : AlertDesk) (i : Nat) : Option (AlertBatch × Json) :=
  (d.batches[i]?).bind (fun b => b.next?.map (fun alert => (b, alert)))

def handled (d : AlertDesk) (alert : Json) (a : Arrival TriggerSurroundings) :
    TriggerResponse (Option TriggerEvent) × AlertmanagerTrigger :=
  d.trigger.handleAlert alert a.input (d.now + a.elapsed) (d.now + a.elapsed + a.pause)

def pass (d : AlertDesk) (i : Nat) (a : Arrival TriggerSurroundings) : AlertDesk :=
  match d.due i with
  | none => d
  | some (b, alert) =>
    { trigger := (d.handled alert a).2, now := d.now + a.elapsed + a.pause,
      batches := d.batches.set i (b.passed (d.handled alert a).1.result) }

def step (d : AlertDesk) : AlertMove → AlertDesk
  | .arrive payload signature rawBody => d.arrive hmac payload signature rawBody
  | .pass i a => d.pass i a

/-- The key that an alert lets in, and when. -/
def letsIn (d : AlertDesk) (alert : Json) (a : Arrival TriggerSurroundings) :
    Option (String × Time) :=
  let now := d.now + a.elapsed
  (AlertmanagerTrigger.asks alert).bind (fun key =>
    if (d.trigger.store.checkAndStore now (now + a.pause) key).1 then some (key, now + a.pause)
    else none)

def admits (d : AlertDesk) : AlertMove → Option (String × Time)
  | .arrive _ _ _ => none
  | .pass i a => (d.due i).bind (fun due => d.letsIn due.2 a)

end AlertDesk

/-! ## One alert -/

namespace AlertmanagerTrigger

/-- The response to an alert, once it is known whether its key is new. -/
def responds (t : AlertmanagerTrigger) (alert : Json) (env : TriggerSurroundings)
    (answer : Option Bool) : TriggerResponse (Option TriggerEvent) :=
  match alert.asFields? with
  | none => ⟨[], .ok none⟩
  | some fields =>
    if answer = some false then
      ⟨[], .error (duplicateError ("duplicate alert: " ++ (alertFingerprint fields).pyStr))⟩
    else
      let sent := env.emit.deliver (t.event fields env)
      ⟨sent.handed, sent.result.map some⟩

/-- A pass is a question to the store and the response to the answer. -/
theorem handleAlert_eq (t : AlertmanagerTrigger) (alert : Json) (env : TriggerSurroundings)
    (now stamp : Time) :
    t.handleAlert alert env now stamp =
      (t.responds alert env (t.store.screen now stamp (asks alert)).1,
        { t with store := (t.store.screen now stamp (asks alert)).2 }) := by
  unfold handleAlert responds asks TriggerIdempotencyStore.markProcessed
  cases alert.asFields? with
  | none => rfl
  | some fields =>
    simp only
    by_cases htruthy : (alertFingerprint fields).truthy = true
    · simp only [htruthy, if_true, IdempotencyStore.screen, Prod.map, id_eq]
      cases (t.store.checkAndStore now stamp (alertDedupKey fields)).1 with
      | false => rfl
      | true => rfl
    · simp only [htruthy, Bool.false_eq_true, if_false, IdempotencyStore.screen, if_true,
        reduceCtorEq]

/-- A pass that raises nothing brings an event for a dictionary, and for nothing else. -/
theorem payloads_of_handleAlert {t : AlertmanagerTrigger} {alert : Json}
    {env : TriggerSurroundings} {now stamp : Time} {event : Option TriggerEvent}
    (h : (t.handleAlert alert env now stamp).1.result = .ok event) :
    event.toList.map TriggerEvent.payload = alert.asFields?.toList := by
  rw [handleAlert_eq] at h
  unfold responds at h
  cases hfields : alert.asFields? with
  | none =>
    rw [hfields] at h
    cases h
    rfl
  | some fields =>
    rw [hfields] at h
    simp only at h
    split at h
    · cases h
    · cases hsent : (env.emit.deliver (t.event fields env)).result with
      | error e =>
        rw [hsent] at h
        cases h
      | ok sent =>
        rw [hsent] at h
        cases h
        rw [TriggerEmitter.eq_of_deliver hsent]
        rfl

variable {w : Clocked AlertmanagerTrigger} {a : Arrival (Json × TriggerSurroundings)}
  {pass : TriggerResponse (Option TriggerEvent) × AlertmanagerTrigger}

theorem handleAlerts_of_error {e : TriggerFailure}
    (hpass : w.state.handleAlert a.input.1 a.input.2 (w.now + a.elapsed)
      (w.now + a.elapsed + a.pause) = pass) (hresult : pass.1.result = .error e)
    {events : List TriggerEvent} {rest : List (Arrival (Json × TriggerSurroundings))} :
    handleAlerts w events (a :: rest) =
      (⟨pass.1.handed, .error e⟩, ⟨pass.2, w.now + a.elapsed + a.pause⟩) := by
  rw [handleAlerts]
  simp only [hpass, hresult]

theorem handleAlerts_of_ok {event : Option TriggerEvent}
    (hpass : w.state.handleAlert a.input.1 a.input.2 (w.now + a.elapsed)
      (w.now + a.elapsed + a.pause) = pass) (hresult : pass.1.result = .ok event)
    {events : List TriggerEvent} {rest : List (Arrival (Json × TriggerSurroundings))} :
    handleAlerts w events (a :: rest) =
      let later := handleAlerts ⟨pass.2, w.now + a.elapsed + a.pause⟩ (events ++ event.toList) rest
      (⟨pass.1.handed ++ later.1.handed, later.1.result⟩, later.2) := by
  rw [handleAlerts]
  simp only [hpass, hresult]

end AlertmanagerTrigger

/-! ## Runs -/

namespace AlertBatch

theorem faithful_new (alerts : List Json) (raised : Option TriggerFailure) :
    ({ alerts, raised } : AlertBatch).Faithful where
  taken := Nat.zero_le _
  events := rfl

theorem getElem?_of_next? {b : AlertBatch} {alert : Json} (h : b.next? = some alert) :
    b.raised = none ∧ b.alerts[b.taken]? = some alert := by
  unfold next? at h
  split at h
  · cases h
  · rename_i hraised
    exact ⟨by simpa using hraised, h⟩

theorem Faithful.passed {b : AlertBatch} (h : b.Faithful) {alert : Json} (hnext : b.next? = some alert)
    {r : Except TriggerFailure (Option TriggerEvent)}
    (hr : ∀ event, r = .ok event → event.toList.map TriggerEvent.payload = alert.asFields?.toList) :
    (b.passed r).Faithful := by
  obtain ⟨-, halert⟩ := getElem?_of_next? hnext
  cases r with
  | error e => exact ⟨h.taken, h.events⟩
  | ok event =>
    refine ⟨?_, ?_⟩
    · obtain ⟨hlt, -⟩ := List.getElem?_eq_some_iff.mp halert
      exact hlt
    · show (b.events ++ event.toList).map _ = (b.alerts.take (b.taken + 1)).filterMap _
      rw [List.map_append, h.events, hr event rfl, List.take_add_one, halert,
        List.filterMap_append]
      cases hfields : alert.asFields? with
      | none =>
        rw [Option.toList_some, List.filterMap_cons_none hfields]
        rfl
      | some fields =>
        rw [Option.toList_some, Option.toList_some, List.filterMap_cons_some hfields]
        rfl

end AlertBatch

namespace AlertDesk

variable {hmac : Hmac}

theorem next?_of_due {d : AlertDesk} {i : Nat} {b : AlertBatch} {alert : Json}
    (h : d.due i = some (b, alert)) : d.batches[i]? = some b ∧ b.next? = some alert := by
  obtain ⟨b', hbatch, hmap⟩ := Option.bind_eq_some_iff.mp h
  obtain ⟨alert', hnext, hpair⟩ := Option.map_eq_some_iff.mp hmap
  obtain ⟨rfl, rfl⟩ := Prod.mk.inj hpair
  exact ⟨hbatch, hnext⟩

theorem pass_of_not_due {d : AlertDesk} {i : Nat} {a : Arrival TriggerSurroundings}
    (h : d.due i = none) : d.pass i a = d := by
  rw [pass, h]

theorem pass_of_due {d : AlertDesk} {i : Nat} {b : AlertBatch} {alert : Json}
    {a : Arrival TriggerSurroundings} (h : d.due i = some (b, alert)) :
    d.pass i a =
      { trigger := (d.handled alert a).2, now := d.now + a.elapsed + a.pause,
        batches := d.batches.set i (b.passed (d.handled alert a).1.result) } := by
  rw [pass, h]

/-- The store answers as the ledger of the keys that have been let in, no key is let in twice in
its time, and the events of each batch are those of its alerts. -/
structure Sound (ttlSeconds : Time) (maxEntries : Int) (log : List (String × Time))
    (d : AlertDesk) : Prop where
  recalls : d.trigger.store.Recalls ⟨ttlSeconds, maxEntries, log⟩ d.now
  apart : (⟨ttlSeconds, maxEntries, log⟩ : KeyLedger).Apart
  faithful : ∀ b ∈ d.batches, b.Faithful

variable {ttlSeconds : Time} {maxEntries : Int} {log : List (String × Time)} {d : AlertDesk}

theorem Sound.arrive (h : d.Sound ttlSeconds maxEntries log) (payload : Json)
    (signature : Option String) (rawBody : Option ByteArray) :
    (d.arrive hmac payload signature rawBody).Sound ttlSeconds maxEntries log := by
  unfold AlertDesk.arrive
  have hnew : ∀ b' : AlertBatch, b'.Faithful → ∀ b ∈ d.batches ++ [b'], b.Faithful := by
    intro b' hb' b hb
    rcases List.mem_append.mp hb with hb | hb
    · exact h.faithful b hb
    · exact List.mem_singleton.mp hb ▸ hb'
  split
  · exact ⟨h.recalls, h.apart, hnew _ (AlertBatch.faithful_new _ _)⟩
  · exact ⟨h.recalls, h.apart, hnew _ (AlertBatch.faithful_new _ _)⟩

/-- The ledger of the keys let in, after one more question. -/
theorem screen_eq (l : KeyLedger) {s : IdempotencyStore} {now stamp : Time}
    (h : s.Recalls l now) (hstamp : now ≤ stamp) (asked : Option String) :
    (l.screen now stamp asked).2 = { l with admitted := l.admitted ++
      (asked.bind (fun key =>
        if (s.checkAndStore now stamp key).1 then some (key, stamp) else none)).toList } := by
  cases asked with
  | none => rw [Option.bind_none, Option.toList_none, List.append_nil]; rfl
  | some key =>
    rw [Option.bind_some, (h.checkAndStore hstamp key).1]
    show l.letIn now stamp key = _
    rw [KeyLedger.letIn]
    cases l.seen now key with
    | true => rw [Bool.not_true, if_neg Bool.false_ne_true, Option.toList_none, List.append_nil]; rfl
    | false => rfl

theorem Sound.pass (h : d.Sound ttlSeconds maxEntries log) (i : Nat)
    (a : Arrival TriggerSurroundings) :
    (d.pass i a).Sound ttlSeconds maxEntries (log ++ (d.admits (.pass i a)).toList) := by
  cases hdue : d.due i with
  | none =>
    have hadmits : d.admits (.pass i a) = none := by
      rw [admits, hdue]
      rfl
    rw [hadmits, pass_of_not_due hdue, Option.toList_none, List.append_nil]
    exact h
  | some due =>
    obtain ⟨b, alert⟩ := due
    obtain ⟨hbatch, hnext⟩ := next?_of_due hdue
    have hadmits : d.admits (.pass i a) = d.letsIn alert a := by
      rw [admits, hdue]
      rfl
    rw [hadmits, pass_of_due hdue]
    have hnow := h.recalls.later (Int.le_add_of_nonneg_right (Int.natCast_nonneg a.elapsed))
    have hstamp : d.now + a.elapsed ≤ d.now + a.elapsed + a.pause :=
      Int.le_add_of_nonneg_right (Int.natCast_nonneg a.pause)
    have hscreen := screen_eq ⟨ttlSeconds, maxEntries, log⟩ hnow hstamp
      (AlertmanagerTrigger.asks alert)
    refine ⟨?_, ?_, ?_⟩
    · have hrecalls := (hnow.screen hstamp (AlertmanagerTrigger.asks alert)).2
      rw [hscreen] at hrecalls
      show (d.handled alert a).2.store.Recalls _ _
      rw [handled, AlertmanagerTrigger.handleAlert_eq]
      exact hrecalls
    · have hapart := h.apart.screen hstamp (AlertmanagerTrigger.asks alert)
      rw [hscreen] at hapart
      exact hapart
    · intro b' hb'
      rcases List.mem_or_eq_of_mem_set hb' with hb' | rfl
      · exact h.faithful b' hb'
      · exact (h.faithful b (List.mem_of_getElem? hbatch)).passed hnext
          (fun event hevent => AlertmanagerTrigger.payloads_of_handleAlert hevent)

theorem Sound.step (h : d.Sound ttlSeconds maxEntries log) (m : AlertMove) :
    (d.step hmac m).Sound ttlSeconds maxEntries (log ++ (d.admits m).toList) := by
  cases m with
  | arrive payload signature rawBody =>
    show (d.arrive hmac payload signature rawBody).Sound ttlSeconds maxEntries (log ++ [])
    rw [List.append_nil]
    exact h.arrive payload signature rawBody
  | pass i a => exact h.pass i a

theorem sound_start (id : String) (secret : Option String) (supplied : Option StoreUse)
    (start : Time) :
    let now := StoreUse.madeAt supplied start
    let made := KeyLedger.orDefault (StoreUse.suppliedLedger supplied) now
    ({ trigger := .create id secret (StoreUse.suppliedStore supplied) now, now } :
      AlertDesk).Sound made.ttlSeconds made.maxEntries made.admitted where
  recalls := StoreUse.orDefault_recalls supplied start
  apart := StoreUse.apart_orDefault supplied (StoreUse.madeAt supplied start)
  faithful := fun _ hb => absurd hb List.not_mem_nil

/-- However the calls of a trigger overlap, the keys that have been let in extend the ledger the
trigger was made with, and no key comes again in its time unless as many others as the store holds
have been let in since; an alert raises for its key exactly when the ledger has seen it; and a batch
has the events of the alerts it has dealt with, in their order. -/
theorem alerts_once (id : String) (secret : Option String) (supplied : Option StoreUse)
    (start : Time) (moves : List AlertMove) :
    let now := StoreUse.madeAt supplied start
    let made := KeyLedger.orDefault (StoreUse.suppliedLedger supplied) now
    let desk : AlertDesk :=
      { trigger := .create id secret (StoreUse.suppliedStore supplied) now, now }
    let ledger : KeyLedger :=
      { made with admitted := made.admitted ++ emitted (step hmac) admits desk moves }
    let reached := run (step hmac) desk moves
    ledger.Apart ∧ (∀ b ∈ reached.batches, b.Faithful) ∧
      ∀ alert (a : Arrival TriggerSurroundings),
        (reached.handled alert a).1 = reached.trigger.responds alert a.input
          (ledger.screen (reached.now + a.elapsed) (reached.now + a.elapsed + a.pause)
            (AlertmanagerTrigger.asks alert)).1 := by
  intro now made desk ledger reached
  have hsound : reached.Sound made.ttlSeconds made.maxEntries ledger.admitted :=
    emitted_invariant
      (fun log d m (hd : d.Sound made.ttlSeconds made.maxEntries log) => hd.step m)
      (sound_start id secret supplied start)
  refine ⟨hsound.apart, hsound.faithful, ?_⟩
  intro alert a
  have hnow := hsound.recalls.later (Int.le_add_of_nonneg_right (Int.natCast_nonneg a.elapsed))
  rw [handled, AlertmanagerTrigger.handleAlert_eq]
  rw [(hnow.screen (Int.le_add_of_nonneg_right (Int.natCast_nonneg a.pause)) _).1]

/-! ## A call that nothing interrupts -/

/-- The events that a move hands to the emitter. -/
def sends (d : AlertDesk) : AlertMove → List TriggerEvent
  | .arrive _ _ _ => []
  | .pass i a => ((d.due i).map (fun due => (d.handled due.2 a).1.handed)).getD []

/-- What a run of moves hands to the emitter. -/
def sent (hmac : Hmac) (d : AlertDesk) (moves : List AlertMove) : List TriggerEvent :=
  (emitted (step hmac) (fun d m => some (d.sends m)) d moves).flatten

/-- The passes of the call `i`, one for each of its alerts that is left. -/
def passes (i : Nat) (arrivals : List (Arrival (Json × TriggerSurroundings))) : List AlertMove :=
  arrivals.map (fun a => .pass i ⟨a.elapsed, a.pause, a.input.2⟩)

theorem sent_cons (d : AlertDesk) (m : AlertMove) (moves : List AlertMove) :
    sent hmac d (m :: moves) = d.sends m ++ sent hmac (d.step hmac m) moves := by
  rw [sent, emitted, Option.toList_some, List.flatten_append, List.flatten_singleton]
  rfl

/-- Nothing more comes of a call that has raised. -/
theorem run_of_raised {i : Nat} {b : AlertBatch} (hbatch : d.batches[i]? = some b)
    (hraised : b.raised.isSome = true)
    (arrivals : List (Arrival (Json × TriggerSurroundings))) :
    run (step hmac) d (passes i arrivals) = d ∧ sent hmac d (passes i arrivals) = [] := by
  have hdue : d.due i = none := by
    rw [due, hbatch, Option.bind_some, AlertBatch.next?, if_pos hraised]
    rfl
  induction arrivals with
  | nil => exact ⟨rfl, rfl⟩
  | cons a rest ih =>
    have hstep : d.step hmac (.pass i ⟨a.elapsed, a.pause, a.input.2⟩) = d := pass_of_not_due hdue
    have hsends : d.sends (.pass i ⟨a.elapsed, a.pause, a.input.2⟩) = [] := by
      rw [sends, hdue]
      rfl
    refine ⟨?_, ?_⟩
    · rw [passes, List.map_cons, run_cons, hstep]
      exact ih.1
    · rw [passes, List.map_cons, sent_cons, hstep, hsends]
      exact ih.2

/-- The loop of `handle_webhook` is the run of its passes. -/
theorem handleAlerts_eq {i : Nat} {b : AlertBatch} (hbatch : d.batches[i]? = some b)
    (hraised : b.raised = none) {arrivals : List (Arrival (Json × TriggerSurroundings))}
    (halerts : arrivals.map (fun a => a.input.1) = b.alerts.drop b.taken) :
    let call := AlertmanagerTrigger.handleAlerts ⟨d.trigger, d.now⟩ b.events arrivals
    let after := run (step hmac) d (passes i arrivals)
    after.trigger = call.2.state ∧ after.now = call.2.now ∧
      sent hmac d (passes i arrivals) = call.1.handed ∧
        ∃ b', after.batches[i]? = some b' ∧ b'.outcome = call.1.result := by
  induction arrivals generalizing d b with
  | nil =>
    refine ⟨rfl, rfl, rfl, b, hbatch, ?_⟩
    rw [AlertBatch.outcome, hraised]
    rfl
  | cons a rest ih =>
    have hnext : b.alerts[b.taken]? = some a.input.1 := by
      rw [← List.head?_drop, ← halerts]
      rfl
    have hdue : d.due i = some (b, a.input.1) := by
      rw [due, hbatch, Option.bind_some, AlertBatch.next?, hraised, hnext]
      rfl
    obtain ⟨hi, -⟩ := List.getElem?_eq_some_iff.mp hbatch
    generalize hpass : d.handled a.input.1 ⟨a.elapsed, a.pause, a.input.2⟩ = pass
    have hstep : d.step hmac (.pass i ⟨a.elapsed, a.pause, a.input.2⟩) =
        { trigger := pass.2, now := d.now + a.elapsed + a.pause,
          batches := d.batches.set i (b.passed pass.1.result) } := by
      rw [← hpass]
      exact pass_of_due hdue
    have hsends : d.sends (.pass i ⟨a.elapsed, a.pause, a.input.2⟩) = pass.1.handed := by
      rw [← hpass, sends, hdue]
      rfl
    have hset : (d.batches.set i (b.passed pass.1.result))[i]? = some (b.passed pass.1.result) :=
      List.getElem?_set_self hi
    have hcons : passes i (a :: rest) =
        .pass i ⟨a.elapsed, a.pause, a.input.2⟩ :: passes i rest := rfl
    rw [hcons, run_cons, sent_cons, hstep, hsends]
    cases hresult : pass.1.result with
    | error e =>
      rw [hresult] at hset
      obtain ⟨hrun, hsent⟩ := @run_of_raised hmac
        { trigger := pass.2, now := d.now + a.elapsed + a.pause,
          batches := d.batches.set i (b.passed (.error e)) } i _ hset rfl rest
      rw [AlertmanagerTrigger.handleAlerts_of_error (w := ⟨d.trigger, d.now⟩) hpass hresult, hrun, hsent]
      exact ⟨rfl, rfl, List.append_nil _, _, hset, rfl⟩
    | ok event =>
      rw [hresult] at hset
      have hrest : rest.map (fun a => a.input.1) = b.alerts.drop (b.taken + 1) := by
        rw [← List.tail_drop, ← halerts]
        rfl
      obtain ⟨htrigger, hnow, hsent, b', hb', houtcome⟩ :=
        ih (d := { trigger := pass.2, now := d.now + a.elapsed + a.pause,
                   batches := d.batches.set i (b.passed (.ok event)) }) hset hraised hrest
      rw [AlertmanagerTrigger.handleAlerts_of_ok (w := ⟨d.trigger, d.now⟩) hpass hresult]
      exact ⟨htrigger, hnow, congrArg (pass.1.handed ++ ·) hsent, b', hb', houtcome⟩

end AlertDesk
end PortableRuntime
