import PortableRuntime.Library.Dict
import PortableRuntime.Library.Run
import PortableRuntime.Library.Window
import PortableRuntime.Python.Json

/-!
# Keys that are let in once

The stores by which the triggers and the provider transport drop what they have already seen.  A
store forgets a key when its time has passed, and the oldest keys when it holds too many; the clock
is monotonic and is read in microseconds.

`KeyLedger` says what a store is for: it forgets nothing, and a key counts as seen while its entry
is among the newest that have not passed their time.
-/

namespace PortableRuntime

structure IdempotencyStore where
  ttlSeconds : Time := 3600000000
  maxEntries : Int := 10000
  entries : Dict String Time := .empty
deriving DecidableEq

namespace IdempotencyStore

/-- The entries whose time has not passed. -/
def unexpired (s : IdempotencyStore) (now : Time) : Dict String Time :=
  let expired := (s.entries.entries.filter (fun e => now - e.2 > s.ttlSeconds)).map Prod.fst
  expired.foldl Dict.erase s.entries

/-- The entries but for the oldest ones above a number. -/
def newest (maxEntries : Int) (entries : Dict String Time) : Dict String Time :=
  if entries.entries.length > maxEntries then
    let sortedKeys := (entries.entries.insertionSort (fun a b => a.2 ≤ b.2)).map Prod.fst
    (sortedKeys.take (entries.entries.length - maxEntries).toNat).foldl Dict.erase entries
  else entries

def evictExpired (s : IdempotencyStore) (now : Time) : IdempotencyStore :=
  { s with entries := newest s.maxEntries (s.unexpired now) }

def contains (s : IdempotencyStore) (now : Time) (key : String) : Bool × IdempotencyStore :=
  let s := s.evictExpired now
  (s.entries.keys.contains key, s)

/-- The clock is read to evict, and again to stamp the key. -/
def checkAndStore (s : IdempotencyStore) (now stamp : Time) (key : String) :
    Bool × IdempotencyStore :=
  let s := s.evictExpired now
  if s.entries.keys.contains key then (false, s)
  else (true, { s with entries := s.entries.set key stamp })

def clear (s : IdempotencyStore) : IdempotencyStore := { s with entries := .empty }

/-- `len(store)`. -/
def size (s : IdempotencyStore) (now : Time) : Nat × IdempotencyStore :=
  let s := s.evictExpired now
  (s.entries.entries.length, s)

end IdempotencyStore

/-! The triggers have a class of their own for such a store, with other names. -/

namespace TriggerIdempotencyStore

def evict (s : IdempotencyStore) (now : Time) : IdempotencyStore := s.evictExpired now

def isDuplicate (s : IdempotencyStore) (now : Time) (key : String) : Bool × IdempotencyStore :=
  s.contains now key

def markProcessed (s : IdempotencyStore) (now stamp : Time) (key : String) :
    Bool × IdempotencyStore :=
  s.checkAndStore now stamp key

/-- `idempotency_store or TriggerIdempotencyStore()`.  A store is as true as its length, for which
it evicts, so that one without entries gives way to a new one. -/
def orDefault (idempotencyStore : Option IdempotencyStore) (now : Time) : IdempotencyStore :=
  match idempotencyStore with
  | none => {}
  | some s =>
    let (size, s) := s.size now
    if size = 0 then {} else s

end TriggerIdempotencyStore

/-! ## What a store is for -/

/-- The keys that have been let in, oldest first, with when. -/
structure KeyLedger where
  ttlSeconds : Time
  maxEntries : Int
  admitted : List (String × Time) := []

namespace KeyLedger

def fresh (l : KeyLedger) (now : Time) (e : String × Time) : Bool := now - e.2 ≤ l.ttlSeconds

/-- The entries that count at a reading of the clock. -/
def live (l : KeyLedger) (now : Time) : List (String × Time) :=
  Window.live (l.fresh now) l.maxEntries.toNat l.admitted

def seen (l : KeyLedger) (now : Time) (key : String) : Bool :=
  ((l.live now).map Prod.fst).contains key

def letIn (l : KeyLedger) (now stamp : Time) (key : String) : KeyLedger :=
  if l.seen now key then l else { l with admitted := l.admitted ++ [(key, stamp)] }

def clear (l : KeyLedger) : KeyLedger := { l with admitted := [] }

/-- The ledger of a trigger: the one it is given, if that counts any entry, or else an empty one
of an hour and ten thousand entries. -/
def orDefault (ledger : Option KeyLedger) (now : Time) : KeyLedger :=
  (ledger.filter (fun l => !(l.live now).isEmpty)).getD
    { ttlSeconds := 3600000000, maxEntries := 10000 }

/-- Between two admissions of one key its time has passed, or as many other keys as a store holds
have been let in. -/
def Apart (l : KeyLedger) : Prop :=
  ∀ front mid back key t t', l.admitted = front ++ (key, t) :: (mid ++ (key, t') :: back) →
    l.ttlSeconds < t' - t ∨ l.maxEntries.toNat ≤ mid.length

end KeyLedger

/-- A store answers as a ledger does, from a reading of the clock on. -/
structure IdempotencyStore.Recalls (s : IdempotencyStore) (l : KeyLedger) (now : Time) : Prop where
  ttl : s.ttlSeconds = l.ttlSeconds
  max : s.maxEntries = l.maxEntries
  ordered : s.entries.entries.Pairwise (fun a b => a.2 ≤ b.2)
  past : ∀ e ∈ s.entries.entries, e.2 ≤ now
  live : ∀ later, now ≤ later →
    Window.live (l.fresh later) l.maxEntries.toNat s.entries.entries = l.live later

/-! ## Evicting -/

namespace IdempotencyStore

theorem entries_foldl_erase {α : Type} (ks : List String) (d : Dict String α) :
    (ks.foldl Dict.erase d).entries = d.entries.filter (fun e => decide (e.1 ∉ ks)) := by
  induction ks generalizing d with
  | nil => simp
  | cons k rest ih =>
    rw [List.foldl_cons, ih, Dict.erase, List.filter_filter]
    refine List.filter_congr (fun e _ => ?_)
    simp [Bool.and_comm]

/-- Erasing the keys of the entries that a predicate picks erases these entries. -/
theorem entries_erase_of_filter {α : Type} (d : Dict String α) (p : String × α → Bool) :
    (((d.entries.filter p).map Prod.fst).foldl Dict.erase d).entries =
      d.entries.filter (fun e => !p e) := by
  rw [entries_foldl_erase]
  refine List.filter_congr (fun e he => ?_)
  cases hp : p e with
  | true =>
    have hmem : e.1 ∈ (d.entries.filter p).map Prod.fst :=
      List.mem_map.mpr ⟨e, List.mem_filter.mpr ⟨he, hp⟩, rfl⟩
    simp [hmem]
  | false =>
    have hmem : e.1 ∉ (d.entries.filter p).map Prod.fst := by
      intro h
      obtain ⟨e', he', hkey⟩ := List.mem_map.mp h
      obtain ⟨hmem', hp'⟩ := List.mem_filter.mp he'
      rw [List.inj_on_of_nodup_map d.nodup hmem' he hkey, hp] at hp'
      cases hp'
    simp [hmem]

/-- Erasing the keys of the first entries leaves the rest. -/
theorem entries_erase_of_take {α : Type} (d : Dict String α) (n : Nat) :
    (((d.entries.map Prod.fst).take n).foldl Dict.erase d).entries = d.entries.drop n := by
  rw [entries_foldl_erase]
  have hnodup := d.nodup
  rw [← List.take_append_drop n d.entries, List.map_append, List.nodup_append] at hnodup
  have htaken : ∀ e ∈ d.entries.take n, decide (e.1 ∉ (d.entries.map Prod.fst).take n) = false := by
    intro e he
    rw [← List.map_take]
    simpa using List.mem_map_of_mem (f := Prod.fst) he
  have hleft : ∀ e ∈ d.entries.drop n, decide (e.1 ∉ (d.entries.map Prod.fst).take n) = true := by
    intro e he
    rw [← List.map_take, decide_eq_true_eq]
    exact fun htake => hnodup.2.2 e.1 htake e.1 (List.mem_map_of_mem he) rfl
  calc d.entries.filter (fun e => decide (e.1 ∉ (d.entries.map Prod.fst).take n))
      = (d.entries.take n ++ d.entries.drop n).filter
          (fun e => decide (e.1 ∉ (d.entries.map Prod.fst).take n)) := by
        rw [List.take_append_drop]
    _ = d.entries.drop n := by
        rw [List.filter_append, List.filter_eq_nil_iff.mpr (fun e he => by simp [htaken e he]),
          List.filter_eq_self.mpr hleft, List.nil_append]

variable {s : IdempotencyStore} {l : KeyLedger} {now : Time}

theorem unexpired_entries (s : IdempotencyStore) (now : Time) :
    (s.unexpired now).entries =
      s.entries.entries.filter (fun e => decide (now - e.2 ≤ s.ttlSeconds)) := by
  rw [unexpired, entries_erase_of_filter]
  refine List.filter_congr (fun e _ => ?_)
  rw [← decide_not, decide_eq_decide]
  exact Int.not_lt

theorem newest_entries {entries : Dict String Time} (maxEntries : Int)
    (hordered : entries.entries.Pairwise (fun a b => a.2 ≤ b.2)) :
    (newest maxEntries entries).entries = entries.entries.rtake maxEntries.toNat := by
  unfold newest
  by_cases hmany : (entries.entries.length : Int) > maxEntries
  · rw [if_pos hmany, List.Pairwise.insertionSort_eq hordered]
    show (((entries.entries.map Prod.fst).take _).foldl Dict.erase entries).entries = _
    rw [entries_erase_of_take, List.rtake]
    by_cases hnegative : maxEntries < 0
    · rw [List.drop_eq_nil_of_le (by omega), List.drop_eq_nil_of_le (by omega)]
    · congr 1
      omega
  · rw [if_neg hmany, Window.rtake_eq_self (by omega)]

/-- What eviction leaves of entries that stand in the order of their stamps. -/
theorem evictExpired_entries (now : Time)
    (hordered : s.entries.entries.Pairwise (fun a b => a.2 ≤ b.2)) :
    (s.evictExpired now).entries.entries =
      Window.live (fun e => decide (now - e.2 ≤ s.ttlSeconds)) s.maxEntries.toNat
        s.entries.entries := by
  have hunexpired : (s.unexpired now).entries.Pairwise (fun a b => a.2 ≤ b.2) := by
    rw [unexpired_entries]
    exact hordered.filter _
  rw [evictExpired, newest_entries _ hunexpired, unexpired_entries]
  rfl

end IdempotencyStore

/-! ## A store recalls what its ledger holds -/

theorem IdempotencyStore.checkAndStore_eq (s : IdempotencyStore) (now stamp : Time) (key : String) :
    s.checkAndStore now stamp key =
      if (s.evictExpired now).entries.keys.contains key then (false, s.evictExpired now)
      else (true, { s.evictExpired now with
        entries := (s.evictExpired now).entries.set key stamp }) := rfl

namespace IdempotencyStore.Recalls

variable {s : IdempotencyStore} {l : KeyLedger} {now : Time}

theorem later (h : s.Recalls l now) {now' : Time} (hle : now ≤ now') : s.Recalls l now' where
  ttl := h.ttl
  max := h.max
  ordered := h.ordered
  past := fun e he => Int.le_trans (h.past e he) hle
  live := fun later hlater => h.live later (Int.le_trans hle hlater)

/-- A later reading leaves fewer entries fresh, and the oldest are the first to go. -/
theorem ageing (l : KeyLedger) (now : Time) {entries : List (String × Time)}
    (hordered : entries.Pairwise (fun a b => a.2 ≤ b.2)) :
    Window.Ageing (l.fresh now) entries := by
  apply hordered.imp
  intro a b hle ha
  rw [KeyLedger.fresh, decide_eq_true_eq] at ha ⊢
  exact Int.le_trans (Int.sub_le_sub_left hle now) ha

theorem evicted_entries (h : s.Recalls l now) :
    (s.evictExpired now).entries.entries = l.live now := by
  rw [evictExpired_entries now h.ordered, h.ttl, h.max, ← h.live now (Int.le_refl _)]
  rfl

/-- Evicting changes nothing that a later call could tell. -/
theorem evictExpired (h : s.Recalls l now) : (s.evictExpired now).Recalls l now where
  ttl := h.ttl
  max := h.max
  ordered := by
    rw [evictExpired_entries now h.ordered]
    exact (h.ordered.filter _).sublist (List.drop_sublist _ _)
  past := by
    intro e he
    rw [evictExpired_entries now h.ordered] at he
    exact h.past e (Window.mem_of_mem_live he).1
  live := by
    intro later hlater
    rw [evictExpired_entries now h.ordered, h.ttl, h.max, ← h.live later hlater]
    refine Window.live_live (ageing l later h.ordered) (fun e _ he => ?_) _
    rw [KeyLedger.fresh, decide_eq_true_eq] at he
    rw [decide_eq_true_eq]
    exact Int.le_trans (Int.sub_le_sub_right hlater e.2) he

theorem contains_keys (h : s.Recalls l now) (key : String) :
    (s.evictExpired now).entries.keys.contains key = l.seen now key := by
  rw [KeyLedger.seen, Dict.keys, h.evicted_entries]

theorem contains (h : s.Recalls l now) (key : String) :
    (s.contains now key).1 = l.seen now key ∧ (s.contains now key).2.Recalls l now :=
  ⟨h.contains_keys key, h.evictExpired⟩

theorem size (h : s.Recalls l now) :
    (s.size now).1 = (l.live now).length ∧ (s.size now).2.Recalls l now :=
  ⟨congrArg List.length h.evicted_entries, h.evictExpired⟩

/-- A new key joins the store and the ledger alike. -/
theorem set (h : s.Recalls l now) {key : String} (hnew : s.entries.get? key = none) {stamp : Time}
    (hstamp : now ≤ stamp) :
    ({ s with entries := s.entries.set key stamp } : IdempotencyStore).Recalls
      { l with admitted := l.admitted ++ [(key, stamp)] } stamp where
  ttl := h.ttl
  max := h.max
  ordered := by
    show (s.entries.set key stamp).entries.Pairwise _
    rw [Dict.entries_set_of_not_mem hnew, List.pairwise_append]
    refine ⟨h.ordered, List.pairwise_singleton _ _, ?_⟩
    intro e he e' he'
    rw [List.mem_singleton.mp he']
    exact Int.le_trans (h.past e he) hstamp
  past := by
    intro e he
    have hmem : e ∈ (s.entries.set key stamp).entries := he
    rw [Dict.entries_set_of_not_mem hnew, List.mem_append, List.mem_singleton] at hmem
    rcases hmem with hmem | rfl
    · exact Int.le_trans (h.past e hmem) hstamp
    · exact Int.le_refl _
  live := by
    intro later hlater
    show Window.live _ _ (s.entries.set key stamp).entries = Window.live _ _ (l.admitted ++ _)
    rw [Dict.entries_set_of_not_mem hnew, Window.live_append_singleton,
      Window.live_append_singleton]
    have hlive := h.live later (Int.le_trans hstamp hlater)
    rw [KeyLedger.live] at hlive
    show (if _ then (Window.live (l.fresh later) l.maxEntries.toNat s.entries.entries ++ _).rtake _
      else Window.live (l.fresh later) l.maxEntries.toNat s.entries.entries) = _
    rw [hlive]
    rfl

theorem checkAndStore (h : s.Recalls l now) {stamp : Time} (hstamp : now ≤ stamp) (key : String) :
    (s.checkAndStore now stamp key).1 = !l.seen now key ∧
      (s.checkAndStore now stamp key).2.Recalls (l.letIn now stamp key) stamp := by
  have hkeys := h.contains_keys key
  rw [checkAndStore_eq, KeyLedger.letIn, hkeys]
  cases hseen : l.seen now key with
  | true => exact ⟨rfl, h.evictExpired.later hstamp⟩
  | false =>
    rw [hseen] at hkeys
    have hnew : (s.evictExpired now).entries.get? key = none := by
      rw [Dict.get?_eq_none]
      simpa using hkeys
    exact ⟨rfl, h.evictExpired.set hnew hstamp⟩

theorem clear (h : s.Recalls l now) : s.clear.Recalls l.clear now where
  ttl := h.ttl
  max := h.max
  ordered := List.Pairwise.nil
  past := fun _ he => absurd he List.not_mem_nil
  live := fun _ _ => rfl

/-- A store without entries begins with an empty ledger. -/
theorem start (ttlSeconds : Time) (maxEntries : Int) (now : Time) :
    ({ ttlSeconds, maxEntries } : IdempotencyStore).Recalls { ttlSeconds, maxEntries } now where
  ttl := rfl
  max := rfl
  ordered := List.Pairwise.nil
  past := fun _ he => absurd he List.not_mem_nil
  live := fun _ _ => rfl

/-- A store gives way to the default just where its ledger does. -/
theorem orDefault (h : s.Recalls l now) :
    (TriggerIdempotencyStore.orDefault (some s) now).Recalls (KeyLedger.orDefault (some l) now)
      now := by
  obtain ⟨hsize, hnext⟩ := h.size
  rw [TriggerIdempotencyStore.orDefault, KeyLedger.orDefault, Option.filter_some]
  dsimp only
  cases hlive : l.live now with
  | nil =>
    have hempty : (s.size now).1 = 0 := by rw [hsize, hlive, List.length_nil]
    rw [if_pos hempty]
    exact .start _ _ now
  | cons first rest =>
    have hkept : (s.size now).1 ≠ 0 := by
      rw [hsize, hlive, List.length_cons]
      exact Nat.succ_ne_zero rest.length
    rw [if_neg hkept]
    exact hnext

end IdempotencyStore.Recalls

/-! ## Admissions of one key -/

namespace KeyLedger

theorem apart_nil (ttlSeconds : Time) (maxEntries : Int) :
    ({ ttlSeconds, maxEntries } : KeyLedger).Apart := by
  intro front mid back key t t' h
  exact absurd h (by simp)

theorem Apart.letIn {l : KeyLedger} (h : l.Apart) {now stamp : Time} (hstamp : now ≤ stamp)
    (key : String) : (l.letIn now stamp key).Apart := by
  unfold KeyLedger.letIn
  cases hseen : l.seen now key with
  | true => exact h
  | false =>
    intro front mid back key' t t' hlog
    rw [if_neg Bool.false_ne_true] at hlog ⊢
    have hlog' : l.admitted ++ [(key, stamp)] =
        (front ++ (key', t) :: mid) ++ (key', t') :: back := by
      rw [List.append_assoc]
      exact hlog
    rcases List.eq_nil_or_concat back with rfl | ⟨rest, last, rfl⟩
    · -- The later of the two is the one that has just been let in.
      obtain ⟨hfront, hlast⟩ := List.append_inj' hlog' rfl
      obtain ⟨rfl, rfl⟩ := Prod.mk.inj (List.cons.inj hlast).1
      have hdead : (key, t) ∉ l.live now := by
        intro hmem
        have hcontains : l.seen now key = true := by
          rw [KeyLedger.seen, List.contains_iff_mem]
          exact List.mem_map_of_mem (f := Prod.fst) hmem
        rw [hcontains] at hseen
        cases hseen
      rw [KeyLedger.live, hfront] at hdead
      refine (Window.stale_or_outnumbered hdead).imp (fun hstale => ?_) id
      rw [KeyLedger.fresh, decide_eq_false_iff_not] at hstale
      exact Int.lt_of_lt_of_le (Int.not_le.mp hstale) (Int.sub_le_sub_right hstamp t)
    · have hlast : l.admitted ++ [(key, stamp)] =
          ((front ++ (key', t) :: mid) ++ (key', t') :: rest) ++ [last] := by
        rw [hlog', List.concat_eq_append, List.append_assoc _ ((key', t') :: rest) [last]]
        rfl
      have hfront := (List.append_inj' hlast rfl).1
      apply h front mid rest key' t t'
      rw [hfront, List.append_assoc]
      rfl

end KeyLedger

/-! ## Runs of calls -/

inductive KeyCall where
  | contains (key : String)
  /-- The clock moves on between the two readings. -/
  | checkAndStore (pause : Nat) (key : String)
  | clear
  | size
deriving Repr, DecidableEq

/-- A call, and how long after the one before it the clock is read. -/
structure TimedKeyCall where
  elapsed : Nat
  call : KeyCall
deriving Repr, DecidableEq

inductive KeyAnswer where
  | found (b : Bool)
  | stored (b : Bool)
  | cleared
  | counted (n : Nat)
deriving Repr, DecidableEq

/-- The reading of the clock at which a call has ended. -/
def TimedKeyCall.ended (start : Time) (c : TimedKeyCall) : Time :=
  match c.call with
  | .checkAndStore pause _ => start + c.elapsed + pause
  | _ => start + c.elapsed

def IdempotencyStore.call (now : Time) (s : IdempotencyStore) (c : TimedKeyCall) :
    KeyAnswer × IdempotencyStore :=
  match c.call with
  | .contains key => (s.contains now key).map .found id
  | .checkAndStore pause key => (s.checkAndStore now (now + pause) key).map .stored id
  | .clear => (.cleared, s.clear)
  | .size => (s.size now).map .counted id

def KeyLedger.call (now : Time) (l : KeyLedger) (c : TimedKeyCall) : KeyAnswer × KeyLedger :=
  match c.call with
  | .contains key => (.found (l.seen now key), l)
  | .checkAndStore pause key => (.stored (!l.seen now key), l.letIn now (now + pause) key)
  | .clear => (.cleared, l.clear)
  | .size => (.counted (l.live now).length, l)

/-- A store or a ledger, and the last reading of the clock. -/
structure Clocked (σ : Type) where
  state : σ
  now : Time

namespace Clocked

variable {σ : Type} (call : Time → σ → TimedKeyCall → KeyAnswer × σ)

def step (w : Clocked σ) (c : TimedKeyCall) : Clocked σ :=
  { state := (call (w.now + c.elapsed) w.state c).2, now := c.ended w.now }

def answer (w : Clocked σ) (c : TimedKeyCall) : Option KeyAnswer :=
  some (call (w.now + c.elapsed) w.state c).1

end Clocked

theorem IdempotencyStore.Recalls.call {s : IdempotencyStore} {l : KeyLedger} {now : Time}
    (h : s.Recalls l now) (c : TimedKeyCall) :
    (s.call (now + c.elapsed) c).1 = (l.call (now + c.elapsed) c).1 ∧
      (s.call (now + c.elapsed) c).2.Recalls (l.call (now + c.elapsed) c).2 (c.ended now) := by
  have hlater := h.later (Int.le_add_of_nonneg_right (Int.natCast_nonneg c.elapsed))
  obtain ⟨elapsed, c⟩ := c
  cases c with
  | contains key =>
    obtain ⟨hanswer, hnext⟩ := hlater.contains key
    exact ⟨congrArg KeyAnswer.found hanswer, hnext⟩
  | checkAndStore pause key =>
    obtain ⟨hanswer, hnext⟩ := hlater.checkAndStore
      (Int.le_add_of_nonneg_right (Int.natCast_nonneg pause)) key
    exact ⟨congrArg KeyAnswer.stored hanswer, hnext⟩
  | clear => exact ⟨rfl, hlater.clear⟩
  | size =>
    obtain ⟨hanswer, hnext⟩ := hlater.size
    exact ⟨congrArg KeyAnswer.counted hanswer, hnext⟩

theorem KeyLedger.Apart.call {l : KeyLedger} (h : l.Apart) (now : Time) (c : TimedKeyCall) :
    (l.call now c).2.Apart := by
  obtain ⟨elapsed, c⟩ := c
  cases c with
  | contains key => exact h
  | checkAndStore pause key =>
    exact h.letIn (Int.le_add_of_nonneg_right (Int.natCast_nonneg pause)) key
  | clear => exact KeyLedger.apart_nil l.ttlSeconds l.maxEntries
  | size => exact h

/-- A store and its ledger at the same reading of the clock. -/
def Clocked.Alike (w : Clocked IdempotencyStore) (w' : Clocked KeyLedger) : Prop :=
  w.now = w'.now ∧ w.state.Recalls w'.state w.now

theorem alike_calls {w : Clocked IdempotencyStore} {w' : Clocked KeyLedger} (h : w.Alike w')
    (calls : List TimedKeyCall) :
    emitted (Clocked.step IdempotencyStore.call) (Clocked.answer IdempotencyStore.call) w calls =
        emitted (Clocked.step KeyLedger.call) (Clocked.answer KeyLedger.call) w' calls ∧
      (run (Clocked.step IdempotencyStore.call) w calls).Alike
        (run (Clocked.step KeyLedger.call) w' calls) := by
  refine emitted_eq_of_related ?_ ?_ h
  · intro w w' c hw
    rw [Clocked.answer, Clocked.answer, (hw.2.call c).1, hw.1]
  · intro w w' c hw
    refine ⟨?_, ?_⟩
    · show c.ended w.now = c.ended w'.now
      rw [hw.1]
    · have hcall := (hw.2.call c).2
      rw [hw.1] at hcall
      show (w.state.call (w.now + c.elapsed) c).2.Recalls _ (c.ended w.now)
      rw [hw.1]
      exact hcall

theorem apart_calls {w : Clocked KeyLedger} (h : w.state.Apart) (calls : List TimedKeyCall) :
    (run (Clocked.step KeyLedger.call) w calls).state.Apart :=
  run_preserves (I := fun w : Clocked KeyLedger => w.state.Apart)
    (fun w c hw => hw.call (w.now + c.elapsed) c) h

/-- A store that evicts at every call answers every run of calls as the ledger does that forgets
nothing; and the ledger never lets a key in again before its time has passed, unless as many others
as the store holds have been let in since. -/
theorem idempotency_store_recalls (ttlSeconds : Time) (maxEntries : Int) (start : Time)
    (calls : List TimedKeyCall) :
    let store : Clocked IdempotencyStore := ⟨{ ttlSeconds, maxEntries }, start⟩
    let ledger : Clocked KeyLedger := ⟨{ ttlSeconds, maxEntries }, start⟩
    emitted (Clocked.step IdempotencyStore.call) (Clocked.answer IdempotencyStore.call) store calls =
        emitted (Clocked.step KeyLedger.call) (Clocked.answer KeyLedger.call) ledger calls ∧
      (run (Clocked.step KeyLedger.call) ledger calls).state.Apart := by
  intro store ledger
  have halike : store.Alike ledger := ⟨rfl, .start ttlSeconds maxEntries start⟩
  exact ⟨(alike_calls halike calls).1, apart_calls (KeyLedger.apart_nil ttlSeconds maxEntries) calls⟩

/-! ## The store of a trigger -/

/-- A store that a caller has made, has called, and hands to a trigger some time later. -/
structure StoreUse where
  ttlSeconds : Time
  maxEntries : Int
  start : Time
  calls : List TimedKeyCall := []
  idle : Nat := 0
deriving Repr, DecidableEq

namespace StoreUse

def store (u : StoreUse) : Clocked IdempotencyStore :=
  let w := run (Clocked.step IdempotencyStore.call)
    ⟨{ ttlSeconds := u.ttlSeconds, maxEntries := u.maxEntries }, u.start⟩ u.calls
  { w with now := w.now + u.idle }

def ledger (u : StoreUse) : Clocked KeyLedger :=
  let w := run (Clocked.step KeyLedger.call)
    ⟨{ ttlSeconds := u.ttlSeconds, maxEntries := u.maxEntries }, u.start⟩ u.calls
  { w with now := w.now + u.idle }

/-- What a trigger is given, and the reading of the clock at which it is made. -/
def suppliedStore (supplied : Option StoreUse) : Option IdempotencyStore :=
  supplied.map (fun u => u.store.state)

def suppliedLedger (supplied : Option StoreUse) : Option KeyLedger :=
  supplied.map (fun u => u.ledger.state)

def madeAt (supplied : Option StoreUse) (start : Time) : Time :=
  supplied.elim start (fun u => u.store.now)

theorem alike (u : StoreUse) : u.store.Alike u.ledger := by
  have hstart : Clocked.Alike ⟨{ ttlSeconds := u.ttlSeconds, maxEntries := u.maxEntries }, u.start⟩
      ⟨{ ttlSeconds := u.ttlSeconds, maxEntries := u.maxEntries }, u.start⟩ :=
    ⟨rfl, .start u.ttlSeconds u.maxEntries u.start⟩
  have hcalls := (alike_calls hstart u.calls).2
  exact ⟨congrArg (· + (u.idle : Time)) hcalls.1,
    hcalls.2.later (Int.le_add_of_nonneg_right (Int.natCast_nonneg u.idle))⟩

theorem apart (u : StoreUse) : u.ledger.state.Apart :=
  apart_calls (KeyLedger.apart_nil u.ttlSeconds u.maxEntries) u.calls

/-- The store of a trigger recalls the ledger of the trigger. -/
theorem orDefault_recalls (supplied : Option StoreUse) (start : Time) :
    (TriggerIdempotencyStore.orDefault (suppliedStore supplied) (madeAt supplied start)).Recalls
      (KeyLedger.orDefault (suppliedLedger supplied) (madeAt supplied start))
      (madeAt supplied start) := by
  cases supplied with
  | none => exact .start _ _ start
  | some u => exact u.alike.2.orDefault

theorem apart_orDefault (supplied : Option StoreUse) (now : Time) :
    (KeyLedger.orDefault (suppliedLedger supplied) now).Apart := by
  cases supplied with
  | none => exact KeyLedger.apart_nil _ _
  | some u =>
    rw [suppliedLedger, Option.map_some, KeyLedger.orDefault, Option.filter_some]
    split
    · exact u.apart
    · exact KeyLedger.apart_nil _ _

/-- A store that has just been made gives way to the default, whatever its time and its bound. -/
theorem orDefault_unused (ttlSeconds : Time) (maxEntries : Int) (start now : Time) :
    TriggerIdempotencyStore.orDefault (suppliedStore (some { ttlSeconds, maxEntries, start })) now =
      {} := by
  have hempty : (IdempotencyStore.size { ttlSeconds, maxEntries } now).1 = 0 := by
    rw [(IdempotencyStore.Recalls.start ttlSeconds maxEntries now).size.1]
    exact List.length_eq_zero_iff.mpr List.drop_nil
  exact if_pos hempty

end StoreUse

/-! ## Asking before acting -/

/-- Something that reaches a component: how long after the one before it the clock is read, how long
after that it is read again, and what it is. -/
structure Arrival (ι : Type) where
  elapsed : Nat
  pause : Nat
  input : ι

section Screening

variable {ι ο : Type} (asks : ι → Option String) (acts : ι → Option Bool → ο)

/-- Of each input a component asks its store nothing, or whether a key is new. -/
def IdempotencyStore.screen (now stamp : Time) (s : IdempotencyStore) :
    Option String → Option Bool × IdempotencyStore
  | none => (none, s)
  | some key => (s.checkAndStore now stamp key).map some id

def KeyLedger.screen (now stamp : Time) (l : KeyLedger) : Option String → Option Bool × KeyLedger
  | none => (none, l)
  | some key => (some (!l.seen now key), l.letIn now stamp key)

namespace Clocked

variable {σ : Type} (screen : Time → Time → σ → Option String → Option Bool × σ)

def screened (w : Clocked σ) (a : Arrival ι) : Option Bool × σ :=
  screen (w.now + a.elapsed) (w.now + a.elapsed + a.pause) w.state (asks a.input)

def receive (w : Clocked σ) (a : Arrival ι) : Clocked σ :=
  { state := (w.screened asks screen a).2, now := w.now + a.elapsed + a.pause }

def outcome (w : Clocked σ) (a : Arrival ι) : Option ο :=
  some (acts a.input (w.screened asks screen a).1)

end Clocked

theorem IdempotencyStore.Recalls.screen {s : IdempotencyStore} {l : KeyLedger} {now stamp : Time}
    (h : s.Recalls l now) (hstamp : now ≤ stamp) (asked : Option String) :
    (s.screen now stamp asked).1 = (l.screen now stamp asked).1 ∧
      (s.screen now stamp asked).2.Recalls (l.screen now stamp asked).2 stamp := by
  cases asked with
  | none => exact ⟨rfl, h.later hstamp⟩
  | some key =>
    obtain ⟨hanswer, hnext⟩ := h.checkAndStore hstamp key
    exact ⟨congrArg some hanswer, hnext⟩

theorem KeyLedger.Apart.screen {l : KeyLedger} (h : l.Apart) {now stamp : Time}
    (hstamp : now ≤ stamp) (asked : Option String) : (l.screen now stamp asked).2.Apart := by
  cases asked with
  | none => exact h
  | some key => exact h.letIn hstamp key

/-- A component that asks a store before it acts does what it would do if it asked the ledger. -/
theorem screening_recalls {s : IdempotencyStore} {l : KeyLedger} {start : Time}
    (h : s.Recalls l start) (arrivals : List (Arrival ι)) :
    let stored := run (Clocked.receive asks IdempotencyStore.screen) ⟨s, start⟩ arrivals
    let recorded := run (Clocked.receive asks KeyLedger.screen) ⟨l, start⟩ arrivals
    emitted (Clocked.receive asks IdempotencyStore.screen)
          (Clocked.outcome asks acts IdempotencyStore.screen) ⟨s, start⟩ arrivals =
        emitted (Clocked.receive asks KeyLedger.screen)
          (Clocked.outcome asks acts KeyLedger.screen) ⟨l, start⟩ arrivals ∧
      stored.now = recorded.now ∧ stored.state.Recalls recorded.state stored.now := by
  intro stored recorded
  have hscreen : ∀ (w : Clocked IdempotencyStore) (w' : Clocked KeyLedger) (a : Arrival ι),
      w.Alike w' →
        (w.screened asks IdempotencyStore.screen a).1 =
            (w'.screened asks KeyLedger.screen a).1 ∧
          (w.screened asks IdempotencyStore.screen a).2.Recalls
            (w'.screened asks KeyLedger.screen a).2 (w'.now + a.elapsed + a.pause) := by
    intro w w' a hw
    have hlater := hw.2.later (Int.le_add_of_nonneg_right (Int.natCast_nonneg a.elapsed))
    rw [Clocked.screened, Clocked.screened, ← hw.1]
    exact hlater.screen (Int.le_add_of_nonneg_right (Int.natCast_nonneg a.pause)) (asks a.input)
  refine emitted_eq_of_related (R := Clocked.Alike) ?_ ?_ ⟨rfl, h⟩
  · intro w w' a hw
    rw [Clocked.outcome, Clocked.outcome, (hscreen w w' a hw).1]
  · intro w w' a hw
    have hnow : w.now + a.elapsed + a.pause = w'.now + a.elapsed + a.pause := by rw [hw.1]
    refine ⟨hnow, ?_⟩
    show (w.screened asks IdempotencyStore.screen a).2.Recalls _ (w.now + a.elapsed + a.pause)
    rw [hnow]
    exact (hscreen w w' a hw).2

/-- The ledger that a component asks lets no key in twice in its time. -/
theorem screening_apart {l : KeyLedger} (h : l.Apart) (start : Time)
    (arrivals : List (Arrival ι)) :
    (run (Clocked.receive asks KeyLedger.screen) ⟨l, start⟩ arrivals).state.Apart :=
  run_preserves (I := fun w : Clocked KeyLedger => w.state.Apart)
    (fun _ a hw => hw.screen (Int.le_add_of_nonneg_right (Int.natCast_nonneg a.pause)) _) h

end Screening

end PortableRuntime
