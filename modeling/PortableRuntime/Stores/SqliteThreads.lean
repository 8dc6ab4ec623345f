import PortableRuntime.Stores.Journal
import PortableRuntime.Stores.Sqlite
import PortableRuntime.Stores.Threads

/-!
# Threads that append to one SQLite store

`append_event` passes its gates without the lock, looks for the event under the lock, and
writes it under the lock again; the write replaces a row of the same id.  A transaction keeps
the lock from its beginning to its end.
-/

namespace PortableRuntime

/-- `_get` of an event. -/
def SqliteStore.getEvent (st : SqliteStore) (eventId : String) : Option Event :=
  (st.records .event).get? eventId

theorem SqliteStore.getEvent_save (st : SqliteStore) (event : Event) (id : String) :
    (st.save .event event).getEvent id = if id = event.id then some event else st.getEvent id := by
  rw [getEvent, save, put]
  simp only [Function.update_self]
  exact Dict.get?_set _ _ _ _

open MemoryStore

/-- What a thread has done of its `append_event`. -/
inductive AppendPhase where
  | idle
  /-- The gates are passed. -/
  | checked (event : Event)
  | looked (event : Event) (existing : Option Event)

/-- `returned` is a history variable: the events of the calls that have returned. -/
structure SqliteThreads where
  store : SqliteStore
  depth : CommitAuthority → Nat := fun _ => 0
  /-- The holder of a transaction, and the store it restores when it fails. -/
  lock : Option (ThreadId × SqliteStore) := none
  phase : ThreadId → AppendPhase := fun _ => .idle
  returned : List Event := []

/-- What a thread does next: call `append_event` or go on with it, begin or end a transaction,
or raise or lower a commit counter inside one. -/
inductive SqliteThreads.Move where
  | append (t : ThreadId) (event : Event)
  | resume (t : ThreadId)
  | enter (t : ThreadId)
  | leave (t : ThreadId) (raises : Bool)
  | count (t : ThreadId) (authority : CommitAuthority) (raised : Bool)

namespace SqliteThreads

def available (s : SqliteThreads) (t : ThreadId) : Bool :=
  match s.lock with
  | none => true
  | some (holder, _) => holder == t

def isIdle (s : SqliteThreads) (t : ThreadId) : Bool :=
  match s.phase t with
  | .idle => true
  | _ => false

def holds (s : SqliteThreads) (t : ThreadId) : Bool := s.lock.any (fun l => l.1 == t)

def setPhase (s : SqliteThreads) (t : ThreadId) (p : AppendPhase) : SqliteThreads :=
  { s with phase := Function.update s.phase t p }

/-- A call returns. -/
def returns (s : SqliteThreads) (t : ThreadId) (event : Event) : SqliteThreads :=
  { s with returned := s.returned ++ [event] }.setPhase t .idle

/-- The next step of the call that a thread is in. -/
def resume (s : SqliteThreads) (t : ThreadId) : SqliteThreads :=
  match s.phase t with
  | .idle => s
  | .checked event =>
    if s.available t then s.setPhase t (.looked event (s.store.getEvent event.id)) else s
  | .looked event (some existing) =>
    if sameEvent existing event then s.returns t event else s.setPhase t .idle
  | .looked event none =>
    if s.available t then { s with store := s.store.save .event event }.returns t event else s

/-- `BEGIN` inside a transaction raises, and leaves that transaction open. -/
def enter (s : SqliteThreads) (t : ThreadId) : SqliteThreads :=
  match s.lock with
  | none => { s with lock := some (t, s.store) }
  | some _ => s

def leave (s : SqliteThreads) (t : ThreadId) (raises : Bool) : SqliteThreads :=
  match s.lock with
  | some (holder, snapshot) =>
    if holder = t then { s with store := if raises then snapshot else s.store, lock := none }
    else s
  | none => s

def step (s : SqliteThreads) : Move → SqliteThreads
  | .append t event =>
    if s.isIdle t && (passGates s.depth event).isOk then s.setPhase t (.checked event) else s
  | .resume t => s.resume t
  | .enter t => if s.isIdle t then s.enter t else s
  | .leave t raises => if s.isIdle t then s.leave t raises else s
  | .count t authority raised =>
    if s.isIdle t && s.holds t then
      let n := if raised then s.depth authority + 1 else s.depth authority - 1
      { s with depth := Function.update s.depth authority n }
    else s

/-! ## First writer wins -/

/-- Calls with one id that have returned carry one content. -/
def Agreed (s : SqliteThreads) : Prop :=
  ∀ e ∈ s.returned, ∀ e' ∈ s.returned, e.id = e'.id → sameEvent e e' = true

/-- After a step, the calls agree and no row has another event. -/
structure FirstWriterWins (s : SqliteThreads) (move : Move) : Prop where
  agreed : (s.step move).Agreed
  kept : ∀ id e e', s.store.getEvent id = some e → (s.step move).store.getEvent id = some e' → e' = e

/-- A thread that found no row writes into a journal where there is still none, or the same
one, and no call with another content has returned from a transaction that failed since. -/
def WritesFirst (s : SqliteThreads) : Move → Prop
  | .resume t => ∀ event, s.phase t = .looked event none → s.available t = true →
    (∀ e, s.store.getEvent event.id = some e → e = event) ∧
    ∀ e ∈ s.returned, e.id = event.id → sameEvent e event = true
  | _ => True

/-- What holds as long as every write is a first one. -/
structure Inv (s : SqliteThreads) : Prop where
  agreed : s.Agreed
  rows : ∀ id e, s.store.getEvent id = some e → ∀ r ∈ s.returned, r.id = id → sameEvent r e = true
  found : ∀ t event e, s.phase t = .looked event (some e) →
    s.store.getEvent event.id = some e ∧
    ∀ holder snapshot, s.lock = some (holder, snapshot) → holder ≠ t →
      snapshot.getEvent event.id = some e
  kept : ∀ holder snapshot, s.lock = some (holder, snapshot) →
    ∀ id e, snapshot.getEvent id = some e → s.store.getEvent id = some e

section Steps

variable {s : SqliteThreads} {t : ThreadId}

theorem phase_setPhase (s : SqliteThreads) (t u : ThreadId) (p : AppendPhase) :
    (s.setPhase t p).phase u = if u = t then p else s.phase u := by
  simp [setPhase, Function.update_apply]

theorem holder_of_available (h : s.available t = true) {holder : ThreadId}
    {snapshot : SqliteStore} (hlock : s.lock = some (holder, snapshot)) : holder = t := by
  simpa [available, hlock] using h

theorem isIdle_eq_true : s.isIdle t = true ↔ s.phase t = .idle := by
  unfold isIdle
  cases s.phase t <;> simp

/-- A row that a thread has found stays, and stays in the snapshots of the others. -/
def Found (s : SqliteThreads) (t : ThreadId) (id : String) (e : Event) : Prop :=
  s.store.getEvent id = some e ∧
  ∀ holder snapshot, s.lock = some (holder, snapshot) → holder ≠ t →
    snapshot.getEvent id = some e

theorem Inv.setPhase (h : s.Inv) {p : AppendPhase}
    (hp : ∀ event e, p = .looked event (some e) → s.Found t event.id e) :
    (s.setPhase t p).Inv where
  agreed := h.agreed
  rows := h.rows
  found u event e hu := by
    rw [phase_setPhase] at hu
    split at hu
    · next hut => exact hut ▸ hp event e hu
    · exact h.found u event e hu
  kept := h.kept

theorem Inv.idle (h : s.Inv) : (s.setPhase t .idle).Inv :=
  h.setPhase (fun _ _ hp => nomatch hp)

/-- A call may return once its event is like the row and like what has returned. -/
theorem Inv.returns (h : s.Inv) {event : Event}
    (hrow : ∀ e, s.store.getEvent event.id = some e → sameEvent event e = true)
    (hagrees : ∀ r ∈ s.returned, r.id = event.id → sameEvent r event = true) :
    (s.returns t event).Inv := by
  have hinv : ({ s with returned := s.returned ++ [event] } : SqliteThreads).Inv := by
    refine { agreed := ?_, rows := ?_, found := h.found, kept := h.kept }
    · intro e he e' he' hid
      rcases List.mem_append.mp he with hold | hnew
      · rcases List.mem_append.mp he' with hold' | hnew'
        · exact h.agreed e hold e' hold' hid
        · obtain rfl := List.mem_singleton.mp hnew'
          exact hagrees e hold hid
      · obtain rfl := List.mem_singleton.mp hnew
        rcases List.mem_append.mp he' with hold' | hnew'
        · exact sameEvent_symm (hagrees e' hold' hid.symm)
        · rw [List.mem_singleton.mp hnew']
          exact sameEvent_refl e
    · intro id e hget r hr hid
      rcases List.mem_append.mp hr with hr | hr
      · exact h.rows id e hget r hr hid
      · obtain rfl := List.mem_singleton.mp hr
        exact hrow e (hid ▸ hget)
  exact hinv.idle

/-- Writing an event where there is none, or itself. -/
theorem Inv.save (h : s.Inv) {event : Event}
    (hrow : ∀ e, s.store.getEvent event.id = some e → e = event)
    (hagrees : ∀ r ∈ s.returned, r.id = event.id → sameEvent r event = true) :
    ({ s with store := s.store.save .event event } : SqliteThreads).Inv := by
  have hkeeps : ∀ {id e}, s.store.getEvent id = some e →
      (s.store.save .event event).getEvent id = some e := by
    intro id e hget
    rw [SqliteStore.getEvent_save]
    split
    · next hid => rw [hrow e (hid ▸ hget)]
    · exact hget
  refine { agreed := h.agreed, rows := ?_, found := ?_, kept := ?_ }
  · intro id e hget r hr hid
    have hget : (s.store.save .event event).getEvent id = some e := hget
    rw [SqliteStore.getEvent_save] at hget
    split at hget
    · next hevent =>
      obtain rfl := Option.some.inj hget
      exact hagrees r hr (hid.trans hevent)
    · exact h.rows id e hget r hr hid
  · intro u event' e hu
    obtain ⟨hget, hsnapshot⟩ := h.found u event' e hu
    exact ⟨hkeeps hget, hsnapshot⟩
  · intro holder snapshot hlock id e hget
    exact hkeeps (h.kept holder snapshot hlock id e hget)

/-- What the next step of a call leaves. -/
theorem Inv.resume (h : s.Inv) (hfirst : s.WritesFirst (.resume t)) : (s.resume t).Inv := by
  unfold SqliteThreads.resume
  split
  · exact h
  · next event hphase =>
    split
    · next havailable =>
      refine h.setPhase (fun event' e hp => ?_)
      obtain ⟨rfl, hget⟩ := AppendPhase.looked.inj hp
      refine ⟨hget, fun holder snapshot hlock hne => ?_⟩
      exact absurd (holder_of_available havailable hlock) hne
    · exact h
  · next event existing hphase =>
    split
    · next hsame =>
      obtain ⟨hget, -⟩ := h.found t event existing hphase
      refine h.returns (fun e he => ?_) (fun r hr hid => ?_)
      · obtain rfl := Option.some.inj (hget.symm.trans he)
        exact sameEvent_symm hsame
      · exact sameEvent_trans (h.rows event.id existing hget r hr hid) hsame
    · exact h.idle
  · next event hphase =>
    split
    · next havailable =>
      obtain ⟨hrow, hagrees⟩ := hfirst event hphase havailable
      refine (h.save hrow hagrees).returns (fun e he => ?_) hagrees
      have he : (s.store.save .event event).getEvent event.id = some e := he
      rw [SqliteStore.getEvent_save, if_pos rfl, Option.some.injEq] at he
      exact he ▸ sameEvent_refl event
    · exact h

theorem Inv.enter (h : s.Inv) : (s.enter t).Inv := by
  unfold SqliteThreads.enter
  split
  · next hlock =>
    refine { agreed := h.agreed, rows := h.rows, found := ?_, kept := ?_ }
    · intro u event e hu
      obtain ⟨hget, -⟩ := h.found u event e hu
      refine ⟨hget, fun holder snapshot hnew _ => ?_⟩
      obtain ⟨-, rfl⟩ := Prod.mk.inj (Option.some.inj hnew)
      exact hget
    · intro holder snapshot hnew id e hget
      obtain ⟨-, rfl⟩ := Prod.mk.inj (Option.some.inj hnew)
      exact hget
  · exact h

/-- A transaction ends outside the calls of its thread. -/
theorem Inv.leave (h : s.Inv) (hidle : s.phase t = .idle) (raises : Bool) :
    (s.leave t raises).Inv := by
  unfold SqliteThreads.leave
  split
  · next holder snapshot hlock =>
    split
    · next hholder =>
      refine { agreed := h.agreed, rows := ?_, found := ?_, kept := fun _ _ hnone => nomatch hnone }
      · intro id e hget
        cases raises with
        | true => exact h.rows id e (h.kept holder snapshot hlock id e hget)
        | false => exact h.rows id e hget
      · intro u event e hu
        obtain ⟨hget, hsnapshot⟩ := h.found u event e hu
        refine ⟨?_, fun _ _ hnone => nomatch hnone⟩
        cases raises with
        | true =>
          refine hsnapshot holder snapshot hlock (fun hsame => ?_)
          have hu : s.phase u = .looked event (some e) := hu
          rw [← hsame, hholder, hidle] at hu
          exact nomatch hu
        | false => exact hget
    · exact h
  · exact h

theorem Inv.step (h : s.Inv) {move : Move} (hfirst : s.WritesFirst move) : (s.step move).Inv := by
  cases move with
  | append t event =>
    rw [SqliteThreads.step]
    split
    · exact h.setPhase (fun _ _ hp => nomatch hp)
    · exact h
  | resume t => exact h.resume hfirst
  | enter t =>
    rw [SqliteThreads.step]
    split
    · exact h.enter
    · exact h
  | leave t raises =>
    rw [SqliteThreads.step]
    split
    · next hidle => exact h.leave (isIdle_eq_true.mp hidle) raises
    · exact h
  | count t authority raised =>
    rw [SqliteThreads.step]
    split
    · exact { agreed := h.agreed, rows := h.rows, found := h.found, kept := h.kept }
    · exact h

/-- A step leaves the rows alone, writes one, or goes back to a snapshot. -/
theorem store_step (s : SqliteThreads) (move : Move) :
    (s.step move).store = s.store ∨
    (∃ t event, move = .resume t ∧ s.phase t = .looked event none ∧ s.available t = true ∧
      (s.step move).store = s.store.save .event event ∧
      (s.step move).returned = s.returned ++ [event]) ∨
    ∃ holder snapshot, s.lock = some (holder, snapshot) ∧ (s.step move).store = snapshot := by
  cases move with
  | append t event =>
    rw [SqliteThreads.step]
    split <;> exact .inl rfl
  | resume t =>
    change (s.resume t).store = s.store ∨ (∃ t' event, Move.resume t = .resume t' ∧
      s.phase t' = .looked event none ∧ s.available t' = true ∧
      (s.resume t).store = s.store.save .event event ∧
      (s.resume t).returned = s.returned ++ [event]) ∨
      ∃ holder snapshot, s.lock = some (holder, snapshot) ∧ (s.resume t).store = snapshot
    unfold SqliteThreads.resume
    split
    · exact .inl rfl
    · split <;> exact .inl rfl
    · split <;> exact .inl rfl
    · next event hphase =>
      split
      · next havailable => exact .inr (.inl ⟨t, event, rfl, hphase, havailable, rfl, rfl⟩)
      · exact .inl rfl
  | enter t =>
    rw [SqliteThreads.step, SqliteThreads.enter]
    split
    · split <;> exact .inl rfl
    · exact .inl rfl
  | leave t raises =>
    rw [SqliteThreads.step, SqliteThreads.leave]
    split
    · split
      · next holder snapshot hlock =>
        split
        · cases raises with
          | true => exact .inr (.inr ⟨holder, snapshot, hlock, rfl⟩)
          | false => exact .inl rfl
        · exact .inl rfl
      · exact .inl rfl
    · exact .inl rfl
  | count t authority raised =>
    rw [SqliteThreads.step]
    split <;> exact .inl rfl

theorem Inv.firstWriterWins (h : s.Inv) {move : Move} (hfirst : s.WritesFirst move) :
    s.FirstWriterWins move where
  agreed := (h.step hfirst).agreed
  kept id e e' he he' := by
    rcases store_step s move with hsame | ⟨t, event, rfl, hphase, havailable, hsave, -⟩ |
      ⟨holder, snapshot, hlock, hback⟩
    · rw [hsame, he] at he'
      exact (Option.some.inj he').symm
    · rw [hsave, SqliteStore.getEvent_save] at he'
      split at he'
      · next hid =>
        rw [(hfirst event hphase havailable).1 e (hid ▸ he)]
        exact (Option.some.inj he').symm
      · rw [he] at he'
        exact (Option.some.inj he').symm
    · rw [hback] at he'
      have hkept := h.kept holder snapshot hlock id e' he'
      rw [he] at hkept
      exact (Option.some.inj hkept).symm

/-- A write over another row, or against a call that has returned, is not a first one. -/
theorem FirstWriterWins.writesFirst {move : Move} (h : s.FirstWriterWins move) :
    s.WritesFirst move := by
  cases move with
  | resume t =>
    intro event hphase havailable
    have hresume : s.step (.resume t) =
        { s with store := s.store.save .event event }.returns t event := by
      change s.resume t = _
      unfold SqliteThreads.resume
      rw [hphase]
      exact if_pos havailable
    have hreturned : (s.step (.resume t)).returned = s.returned ++ [event] := by
      rw [hresume]
      rfl
    refine ⟨fun e he => ?_, fun e he hid => ?_⟩
    · refine (h.kept event.id e event he ?_).symm
      rw [hresume]
      exact (SqliteStore.getEvent_save s.store event event.id).trans (if_pos rfl)
    · refine h.agreed e ?_ event ?_ hid
      · exact hreturned ▸ List.mem_append_left [event] he
      · exact hreturned ▸ List.mem_append_right s.returned (List.mem_singleton.mpr rfl)
  | _ => trivial

end Steps

theorem Inv.start (store : SqliteStore) (depth : CommitAuthority → Nat) :
    Inv { store, depth } where
  agreed _ he := absurd he List.not_mem_nil
  rows _ _ _ _ hr := absurd hr List.not_mem_nil
  found _ _ _ hu := nomatch hu
  kept _ _ hlock := nomatch hlock

/-- However the calls and transactions of the threads are interleaved, the first writer of an id
wins at every step exactly when every write is a first one. -/
theorem first_writer_wins_iff (store : SqliteStore) (depth : CommitAuthority → Nat)
    (moves : List Move) :
    Along step FirstWriterWins { store, depth } moves ↔
      Along step WritesFirst { store, depth } moves :=
  along_iff_along_of_kept (fun _ _ => FirstWriterWins.writesFirst)
    (fun _ _ h => h.firstWriterWins) (fun _ _ h => h.step) (Inv.start store depth)

/-! ## Calls inside transactions -/

/-- Calls are made inside transactions, and these commit. -/
def Enclosed (s : SqliteThreads) : Move → Prop
  | .append t _ => s.holds t = true
  | .leave _ raises => raises = false
  | _ => True

/-- A thread in a call holds the lock, so what it found missing is missing. -/
structure InTransactions (s : SqliteThreads) : Prop where
  held : ∀ t, s.phase t ≠ .idle → ∃ snapshot, s.lock = some (t, snapshot)
  missing : ∀ t event, s.phase t = .looked event none → s.store.getEvent event.id = none
  recorded : ∀ r ∈ s.returned, (s.store.getEvent r.id).isSome = true

section Enclosed

variable {s : SqliteThreads} {t : ThreadId}

theorem InTransactions.writesFirst (h : s.InTransactions) (move : Move) : s.WritesFirst move := by
  cases move with
  | resume t =>
    intro event hphase _
    have hnone := h.missing t event hphase
    refine ⟨fun e he => ?_, fun e he hid => ?_⟩
    · rw [hnone] at he
      exact nomatch he
    · have hsome := h.recorded e he
      rw [hid, hnone] at hsome
      exact nomatch hsome
  | _ => trivial

/-- While a thread holds the lock, the others are in no call. -/
theorem InTransactions.eq_of_held (h : s.InTransactions) {snapshot : SqliteStore}
    (hlock : s.lock = some (t, snapshot)) {u : ThreadId} (hu : s.phase u ≠ .idle) : u = t := by
  obtain ⟨snapshot', hlock'⟩ := h.held u hu
  rw [hlock, Option.some.injEq, Prod.mk.injEq] at hlock'
  exact hlock'.1.symm

theorem InTransactions.setPhase (h : s.InTransactions)
    (hlock : ∃ snapshot, s.lock = some (t, snapshot)) {p : AppendPhase}
    (hp : ∀ event, p = .looked event none → s.store.getEvent event.id = none) :
    (s.setPhase t p).InTransactions where
  held u hu := by
    rw [phase_setPhase] at hu
    split at hu
    · next hut => exact hut ▸ hlock
    · exact h.held u hu
  missing u event hu := by
    rw [phase_setPhase] at hu
    split at hu
    · exact hp event hu
    · exact h.missing u event hu
  recorded := h.recorded

theorem InTransactions.returns (h : s.InTransactions)
    (hlock : ∃ snapshot, s.lock = some (t, snapshot)) {event : Event}
    (hrow : (s.store.getEvent event.id).isSome = true) : (s.returns t event).InTransactions := by
  have hreturned : ({ s with returned := s.returned ++ [event] } : SqliteThreads).InTransactions :=
    { held := h.held
      missing := h.missing
      recorded := by
        intro r hr
        rcases List.mem_append.mp hr with hold | hnew
        · exact h.recorded r hold
        · exact List.mem_singleton.mp hnew ▸ hrow }
  exact hreturned.setPhase hlock (fun _ hp => nomatch hp)

/-- The holder of the lock writes; the others are in no call that could have looked. -/
theorem InTransactions.save (h : s.InTransactions) {event : Event}
    (hphase : s.phase t = .looked event none) :
    ({ s with store := s.store.save .event event }.returns t event).InTransactions := by
  have hcall : s.phase t ≠ .idle := by
    rw [hphase]
    exact fun hidle => nomatch hidle
  obtain ⟨snapshot, hlock⟩ := h.held t hcall
  have hrow : ∀ id, (s.store.getEvent id).isSome = true ∨ id = event.id →
      ((s.store.save .event event).getEvent id).isSome = true := by
    intro id hid
    rw [SqliteStore.getEvent_save]
    split
    · rfl
    · next hne => exact hid.resolve_right hne
  refine { held := ?_, missing := ?_, recorded := ?_ }
  · intro u hu
    rw [SqliteThreads.returns, phase_setPhase] at hu
    split at hu
    · exact absurd rfl hu
    · exact h.held u hu
  · intro u event' hu
    rw [SqliteThreads.returns, phase_setPhase] at hu
    split at hu
    · exact nomatch hu
    · next hut =>
      refine absurd (h.eq_of_held hlock (fun hidle => ?_)) hut
      have hu : s.phase u = .looked event' none := hu
      rw [hidle] at hu
      exact nomatch hu
  · intro r hr
    rcases List.mem_append.mp hr with hold | hnew
    · exact hrow r.id (.inl (h.recorded r hold))
    · exact hrow r.id (.inr (congrArg (·.id) (List.mem_singleton.mp hnew)))

theorem InTransactions.step (h : s.InTransactions) (hinv : s.Inv) {move : Move}
    (henclosed : s.Enclosed move) : (s.step move).InTransactions := by
  cases move with
  | append t event =>
    rw [SqliteThreads.step]
    split
    · have hlock : ∃ snapshot, s.lock = some (t, snapshot) := by
        obtain ⟨⟨holder, snapshot⟩, hlock, hholder⟩ := (Option.any_eq_true _ _).mp henclosed
        obtain rfl : holder = t := eq_of_beq hholder
        exact ⟨snapshot, hlock⟩
      exact h.setPhase hlock (fun _ hp => nomatch hp)
    · exact h
  | resume t =>
    have hheld : s.phase t ≠ .idle → ∃ snapshot, s.lock = some (t, snapshot) := h.held t
    change (s.resume t).InTransactions
    unfold SqliteThreads.resume
    split
    · exact h
    · next event hphase =>
      rw [hphase] at hheld
      split
      · refine h.setPhase (hheld (fun hidle => nomatch hidle)) (fun event' hp => ?_)
        obtain ⟨rfl, hget⟩ := AppendPhase.looked.inj hp
        exact hget
      · exact h
    · next event existing hphase =>
      rw [hphase] at hheld
      have hlock := hheld (fun hidle => nomatch hidle)
      split
      · refine h.returns hlock ?_
        rw [(hinv.found t event existing hphase).1]
        rfl
      · exact h.setPhase hlock (fun _ hp => nomatch hp)
    · next event hphase =>
      split
      · exact h.save hphase
      · exact h
  | enter t =>
    rw [SqliteThreads.step]
    split
    · unfold SqliteThreads.enter
      split
      · next hlock =>
        refine { held := fun u hu => ?_, missing := h.missing, recorded := h.recorded }
        obtain ⟨snapshot, hsome⟩ := h.held u hu
        rw [hlock] at hsome
        exact nomatch hsome
      · exact h
    · exact h
  | leave t raises =>
    obtain rfl : raises = false := henclosed
    rw [SqliteThreads.step]
    split
    · next hidle =>
      unfold SqliteThreads.leave
      split
      · next holder snapshot hlock =>
        split
        · next hholder =>
          refine { held := fun u hu => ?_, missing := h.missing, recorded := h.recorded }
          obtain rfl := hholder
          rw [h.eq_of_held hlock hu] at hu
          exact absurd (isIdle_eq_true.mp hidle) hu
        · exact h
      · exact h
    · exact h
  | count t authority raised =>
    rw [SqliteThreads.step]
    split
    · exact { held := h.held, missing := h.missing, recorded := h.recorded }
    · exact h

end Enclosed

/-- Calls inside transactions that commit are as good as calls under one lock. -/
theorem first_writer_wins_enclosed (store : SqliteStore) (depth : CommitAuthority → Nat)
    (moves : List Move) (h : Along step Enclosed { store, depth } moves) :
    Along step FirstWriterWins { store, depth } moves := by
  have hrun : ∀ (s : SqliteThreads), s.Inv → s.InTransactions → Along step Enclosed s moves →
      Along step WritesFirst s moves := by
    clear h
    intro s hinv htransactions h
    induction moves generalizing s with
    | nil => trivial
    | cons move rest ih =>
      have hfirst := htransactions.writesFirst move
      exact ⟨hfirst, ih _ (hinv.step hfirst) (htransactions.step hinv h.1) h.2⟩
  rw [first_writer_wins_iff]
  refine hrun _ (Inv.start store depth) ?_ h
  exact ⟨fun _ hu => absurd rfl hu, fun _ _ hu => (nomatch hu),
    fun _ hr => absurd hr List.not_mem_nil⟩

/-! ## Two calls that both find nothing -/

def firstNote : Event :=
  { id := "event", createdAt := 0, type := "Noted", subjectRef := "run",
    payload := [("text", .str "first")] }

def secondNote : Event := { firstNote with payload := [("text", .str "second")] }

/-- Both calls look before either writes: both return, and the second replaces the first. -/
theorem second_writer_replaces :
    ¬ Along step FirstWriterWins { store := .empty }
      [.append 0 firstNote, .append 1 secondNote, .resume 0, .resume 1, .resume 0, .resume 1] := by
  rintro ⟨-, -, -, -, -, ⟨-, hkept⟩, -⟩
  have hreplaced := hkept "event" firstNote secondNote rfl rfl
  exact absurd (congrArg Event.payload hreplaced) (by decide)

end SqliteThreads
end PortableRuntime
