import PortableRuntime.Library.Run
import PortableRuntime.Stores.StaleWorkers

/-!
# Compare and swap

Both stores compare the version of what is stored and then store the new value as it was
given, under the identifier that was asked for.  Neither relates the version or the identity
of the new value to the old one.
-/

namespace PortableRuntime

/-! ## Versions -/

/-- The number that a version stands for.  A float counts by its truncation. -/
def versionNumber : Json → Option Int
  | .int n => some n
  | .bool b => some (if b then 1 else 0)
  | .float truncated _ => some truncated
  | _ => none

/-- The object has a version greater than the one given. -/
def versionAbove (k : Kind) (v : Model k) (expected : Int) : Prop :=
  ∃ n, versionNumber (MemoryStore.versionOf k v) = some n ∧ expected < n

theorem versionNumber_of_pyEq {version : Json} {expected n : Int}
    (h : version.pyEq (.int expected) = true) (hn : versionNumber version = some n) :
    n = expected := by
  cases version with
  | int m =>
    have hm : m = expected := by simpa [Json.pyEq] using h
    rw [versionNumber, Option.some.injEq] at hn
    omega
  | bool b =>
    have hb : expected = if b then 1 else 0 := by simpa [Json.pyEq] using h
    rw [versionNumber, Option.some.injEq] at hn
    omega
  | _ => cases h

/-! ## The store with rows -/

/-- `CAST(json_extract(data, '$.version') AS INTEGER)` of a version within the range of a
column; `none` is NULL, and `castText` reads the number at the start of a text. -/
def castVersion (castText : String → Int) : Json → Option Int
  | .int n => some n
  | .bool b => some (if b then 1 else 0)
  | .float truncated _ => some truncated
  | .str text => some (castText text)
  | _ => none

/-- Whether the payload has a version of its own. -/
def hasVersion : (k : Kind) → Model k → Bool
  | .step, _ => true
  | .record, _ => true
  | .authorizationUse, _ => false
  | k, v => Fields.has (k.dump v) "version"

namespace SqliteStore

def casError (k : Kind) (id : String) : PyError → PyError
  | .valueError message => .valueError message
  | _ => .runtimeError
      s!"SQLite CAS execution failed for {Text.pyRepr k.text}/{Text.pyRepr id}"

/-- The row that the conditional update matches. -/
def rowVersion (castText : String → Int) (k : Kind) (v : Model k) : Option Int :=
  if hasVersion k v then castVersion castText (MemoryStore.versionOf k v) else none

/-- Atomically replace a JSON record only at the expected version.  The version is read
twice, once in each language. -/
def compareAndSwap (castText : String → Int) (now : Time) (st : SqliteStore) (k : Kind)
    (id : String) (expected : Int) (value : Model k) : Result (Bool × SqliteStore) :=
  Except.mapError (casError k id) <|
    match (st.records k).get? id with
    | none => .ok (false, st)
    | some existing => do
      let current ← versionInt (MemoryStore.versionOf k existing)
      if current ≠ expected then return (false, st)
      else do
        MemoryStore.rejectUnprovenTerminalWrite k value
        assertValidCandidateWrite now st.exportState k value
        if !storableInteger expected then
          .error (.runtimeError "Python int too large to convert to SQLite INTEGER")
        else if rowVersion castText k existing = some expected then
          return (true, st.put k id value)
        else return (false, st)

/-- The row is found and matched at the expected version. -/
def Matches (castText : String → Int) (k : Kind) (existing : Model k) (expected : Int) : Prop :=
  versionInt (MemoryStore.versionOf k existing) = .ok expected ∧ storableInteger expected = true ∧
    rowVersion castText k existing = some expected

variable {castText : String → Int} {now : Time} {st st' : SqliteStore} {k : Kind} {id : String}
  {expected : Int} {v : Model k} {b : Bool}

theorem compareAndSwap_eq_ok (h : st.compareAndSwap castText now k id expected v = .ok (b, st')) :
    (b = false ∧ st' = st) ∨
    (b = true ∧ (∃ existing, (st.records k).get? id = some existing ∧
        Matches castText k existing expected) ∧ checkedGate now st.exportState k v = .ok () ∧
      st' = st.put k id v) := by
  rw [compareAndSwap, mapError_eq_ok] at h
  cases hexisting : (st.records k).get? id with
  | none =>
    simp only [hexisting, Except.ok.injEq, Prod.mk.injEq] at h
    exact Or.inl ⟨h.1.symm, h.2.symm⟩
  | some existing =>
    simp only [hexisting] at h
    obtain ⟨current, hcurrent, h⟩ := Result.bind_eq_ok.mp h
    split_ifs at h with hversion hstorable hrow
    · obtain ⟨rfl, rfl⟩ := Prod.mk.inj (Result.pure_eq_ok.mp h)
      exact Or.inl ⟨rfl, rfl⟩
    · obtain ⟨-, h⟩ := Result.check_eq_ok.mp h
      obtain ⟨-, h⟩ := Result.check_eq_ok.mp h
      cases h
    · obtain ⟨hterminal, h⟩ := Result.check_eq_ok.mp h
      obtain ⟨hvalid, h⟩ := Result.check_eq_ok.mp h
      obtain ⟨rfl, rfl⟩ := Prod.mk.inj (Result.pure_eq_ok.mp h)
      rw [not_not] at hversion
      refine Or.inr ⟨rfl, ⟨existing, rfl, hversion ▸ hcurrent, by simpa using hstorable, hrow⟩, ?_,
        rfl⟩
      rw [checkedGate, Result.check_eq_ok]
      exact ⟨hterminal, hvalid⟩
    · obtain ⟨-, h⟩ := Result.check_eq_ok.mp h
      obtain ⟨-, h⟩ := Result.check_eq_ok.mp h
      obtain ⟨rfl, rfl⟩ := Prod.mk.inj (Result.pure_eq_ok.mp h)
      exact Or.inl ⟨rfl, rfl⟩

theorem compareAndSwap_of_matches {existing : Model k}
    (hexisting : (st.records k).get? id = some existing)
    (hmatches : Matches castText k existing expected)
    (hgate : checkedGate now st.exportState k v = .ok ()) :
    st.compareAndSwap castText now k id expected v = .ok (true, st.put k id v) := by
  obtain ⟨hcurrent, hstorable, hrow⟩ := hmatches
  rw [checkedGate, Result.check_eq_ok] at hgate
  rw [compareAndSwap, mapError_eq_ok]
  simp only [hexisting, Result.bind_eq_ok]
  refine ⟨expected, hcurrent, ?_⟩
  rw [if_neg (not_not.mpr rfl), Result.check_eq_ok, Result.check_eq_ok, hstorable, if_neg (by simp),
    if_pos hrow]
  exact ⟨hgate.1, hgate.2, rfl⟩

end SqliteStore

/-! ## What the two stores share -/

/-- A store with a compare and swap.  `Matches` is its comparison of what is stored with the
expected version. -/
structure CasStore (σ : Type) where
  get : σ → (k : Kind) → String → Option (Model k)
  put : σ → (k : Kind) → String → Model k → σ
  gate : Time → σ → (k : Kind) → Model k → Result Unit
  Matches : (k : Kind) → Model k → Int → Prop
  compareAndSwap : Time → σ → (k : Kind) → String → Int → Model k → Result (Bool × σ)
  get_put_self : ∀ st k id v, get (put st k id v) k id = some v
  get_put_of_ne : ∀ st k k' id id' v, k' ≠ k ∨ id' ≠ id →
    get (put st k id v) k' id' = get st k' id'
  matches_number : ∀ k v expected n, Matches k v expected →
    versionNumber (MemoryStore.versionOf k v) = some n → n = expected
  swapped_iff : ∀ now st k id expected v st',
    compareAndSwap now st k id expected v = .ok (true, st') ↔
      (∃ existing, get st k id = some existing ∧ Matches k existing expected) ∧
        gate now st k v = .ok () ∧ st' = put st k id v
  refused : ∀ now st k id expected v st',
    compareAndSwap now st k id expected v = .ok (false, st') → st' = st

theorem MemoryStore.compareAndSwap_of_matches {now : Time} {st : MemoryStore} {k : Kind}
    {id : String} {expected : Int} {v existing : Model k} (hexisting : st.get k id = some existing)
    (hmatches : (versionOf k existing).pyEq (.int expected) = true)
    (hgate : checkedGate now st.exportState k v = .ok ()) :
    st.compareAndSwap now k id expected v = .ok (true, st.put k id v) := by
  rw [checkedGate, Result.check_eq_ok] at hgate
  rw [compareAndSwap]
  simp only [hexisting, hmatches, Bool.not_true, Bool.false_eq_true, if_false, Result.check_eq_ok]
  exact ⟨hgate.1, hgate.2, rfl⟩

def MemoryStore.casStore : CasStore MemoryStore where
  get := MemoryStore.get
  put := MemoryStore.put
  gate now st := checkedGate now st.exportState
  Matches k existing expected := (MemoryStore.versionOf k existing).pyEq (.int expected) = true
  compareAndSwap := MemoryStore.compareAndSwap
  get_put_self st k id v := by rw [MemoryStore.get_put_self, if_pos rfl]
  get_put_of_ne st k k' id id' v hne := by
    by_cases hk : k' = k
    · subst hk
      rw [MemoryStore.get_put_self, if_neg (hne.resolve_left (not_not.mpr rfl))]
    · exact MemoryStore.get_put_of_ne st hk id id' v
  matches_number _ _ _ _ := versionNumber_of_pyEq
  swapped_iff now st k id expected v st' := by
    constructor
    · intro h
      rcases MemoryStore.compareAndSwap_eq_ok h with
        ⟨hfalse, -⟩ | ⟨-, existing, hexisting, hversion, hterminal, hvalid, rfl⟩
      · cases hfalse
      · refine ⟨⟨existing, hexisting, hversion⟩, ?_, rfl⟩
        rw [checkedGate, Result.check_eq_ok, MemoryStore.rejectUnprovenTerminalWrite,
          guardValue_eq_ok, hterminal]
        exact ⟨rfl, MemoryStore.validateCandidateWrite_eq_ok.mpr hvalid⟩
    · rintro ⟨⟨existing, hexisting, hversion⟩, hgate, rfl⟩
      exact MemoryStore.compareAndSwap_of_matches hexisting hversion hgate
  refused now st k id expected v st' h := by
    rcases MemoryStore.compareAndSwap_eq_ok h with ⟨-, rfl⟩ | ⟨hfalse, -⟩
    · rfl
    · cases hfalse

theorem SqliteStore.matches_number {castText : String → Int} {k : Kind} {existing : Model k}
    {expected n : Int} (h : Matches castText k existing expected)
    (hn : versionNumber (MemoryStore.versionOf k existing) = some n) : n = expected := by
  have hread := h.1
  cases hversion : MemoryStore.versionOf k existing with
  | int m =>
    rw [hversion] at hn hread
    exact (Option.some.inj hn).symm.trans (Except.ok.inj hread)
  | bool b =>
    rw [hversion] at hn hread
    exact (Option.some.inj hn).symm.trans (Except.ok.inj hread)
  | float truncated text =>
    rw [hversion] at hn hread
    exact (Option.some.inj hn).symm.trans (Except.ok.inj hread)
  | _ =>
    rw [hversion] at hn
    cases hn

def SqliteStore.casStore (castText : String → Int) : CasStore SqliteStore where
  get st k id := (st.records k).get? id
  put := SqliteStore.put
  gate now st := checkedGate now st.exportState
  Matches := SqliteStore.Matches castText
  compareAndSwap now st := st.compareAndSwap castText now
  get_put_self st k id v := by simp [SqliteStore.put]
  get_put_of_ne st k k' id id' v hne := by
    by_cases hk : k' = k
    · subst hk
      simp [SqliteStore.put, Dict.get?_set, hne.resolve_left (not_not.mpr rfl)]
    · simp [SqliteStore.put, hk]
  matches_number _ _ _ _ := SqliteStore.matches_number
  swapped_iff now st k id expected v st' := by
    constructor
    · intro h
      rcases SqliteStore.compareAndSwap_eq_ok h with ⟨hfalse, -⟩ | ⟨-, hmatches, hgate, hst⟩
      · cases hfalse
      · exact ⟨hmatches, hgate, hst⟩
    · rintro ⟨⟨existing, hexisting, hmatches⟩, hgate, rfl⟩
      exact SqliteStore.compareAndSwap_of_matches hexisting hmatches hgate
  refused now st k id expected v st' h := by
    rcases SqliteStore.compareAndSwap_eq_ok h with ⟨-, rfl⟩ | ⟨hfalse, -⟩
    · rfl
    · cases hfalse

/-! ## Interleaved calls -/

structure CasCall where
  now : Time
  kind : Kind
  id : String
  expected : Int
  value : Model kind

/-- A compare and swap, or anything else that happens to the store. -/
inductive CasMove (σ : Type) where
  | swap (c : CasCall)
  | other (change : σ → σ)

namespace CasStore

variable {σ : Type} (s : CasStore σ)

def call (st : σ) (c : CasCall) : Result (Bool × σ) :=
  s.compareAndSwap c.now st c.kind c.id c.expected c.value

/-- A call that raises leaves the store as it was. -/
def step (st : σ) : CasMove σ → σ
  | .swap c => match s.call st c with
    | .ok (_, st') => st'
    | .error _ => st
  | .other change => change st

/-- The expected version of a call on the object that returns `True`. -/
def winner (k : Kind) (id : String) (st : σ) : CasMove σ → Option Int
  | .swap c => match s.call st c with
    | .ok (true, _) => if c.kind = k ∧ c.id = id then some c.expected else none
    | _ => none
  | .other _ => none

/-- Nothing but a compare and swap touches the object. -/
def Undisturbed (k : Kind) (id : String) (st : σ) : CasMove σ → Prop
  | .swap _ => True
  | .other change => s.get (change st) k id = s.get st k id

/-- A call that returns `True` leaves an object of its identifier and of a later version. -/
def Replaces (st : σ) : CasMove σ → Prop
  | .swap c => ∀ st', s.call st c = .ok (true, st') →
      ∃ v, s.get st' c.kind c.id = some v ∧ c.kind.identifier v = c.id ∧
        versionAbove c.kind v c.expected
  | .other _ => True

/-- A call that does not return `True` leaves the store as it was. -/
def Keeps (st : σ) : CasMove σ → Prop
  | .swap c => (∀ st', s.call st c ≠ .ok (true, st')) → s.step st (.swap c) = st
  | .other _ => True

structure RealCas (start : σ) (moves : List (CasMove σ)) : Prop where
  replaces : Along s.step s.Replaces start moves
  keeps : Along s.step s.Keeps start moves
  once : ∀ k id before during, before ++ during <+: moves →
    Along s.step (s.Undisturbed k id) (run s.step start before) during →
      (emitted s.step (s.winner k id) (run s.step start before) during).Nodup

/-- A value that is about to be stored has the identifier that was asked for, and a version
above the expected one. -/
def Advances (st : σ) : CasMove σ → Prop
  | .swap c => (∃ existing, s.get st c.kind c.id = some existing ∧
        s.Matches c.kind existing c.expected) →
      s.gate c.now st c.kind c.value = .ok () →
        c.kind.identifier c.value = c.id ∧ versionAbove c.kind c.value c.expected
  | .other _ => True

/-! ## Winners are in order of their versions -/

variable {s} {st : σ} {k : Kind} {id : String} {e e' : Int}

/-- The object has left the version behind. -/
def Past (s : CasStore σ) (k : Kind) (id : String) (e : Int) (st : σ) : Prop :=
  ∃ v, s.get st k id = some v ∧ versionAbove k v e

theorem winner_eq_some {m : CasMove σ} (h : s.winner k id st m = some e) :
    ∃ now v, m = .swap ⟨now, k, id, e, v⟩ ∧
      (∃ existing, s.get st k id = some existing ∧ s.Matches k existing e) ∧
      s.gate now st k v = .ok () ∧ s.step st m = s.put st k id v := by
  cases m with
  | other change => cases h
  | swap c =>
    obtain ⟨now, kind, cid, expected, value⟩ := c
    rw [winner] at h
    split at h
    · next st' hcall =>
      split_ifs at h with hobject
      obtain ⟨rfl, rfl⟩ := hobject
      obtain rfl := Option.some.inj h
      obtain ⟨hmatches, hgate, hst⟩ := (s.swapped_iff _ _ _ _ _ _ _).mp hcall
      refine ⟨now, value, rfl, hmatches, hgate, ?_⟩
      rw [step]
      simp only [hcall, hst]
    · cases h

/-- What one call can do to the object. -/
theorem get_swap (s : CasStore σ) (st : σ) (c : CasCall) (k : Kind) (id : String) :
    s.get (s.step st (.swap c)) k id = s.get st k id ∨
      (c.kind = k ∧ c.id = id ∧ s.winner k id st (.swap c) = some c.expected) := by
  rw [step, winner]
  cases hcall : s.call st c with
  | error _ => exact Or.inl rfl
  | ok result =>
    obtain ⟨b, st'⟩ := result
    cases b with
    | false =>
      rw [show st' = st from s.refused _ _ _ _ _ _ _ hcall]
      exact Or.inl rfl
    | true =>
      obtain ⟨-, -, hst⟩ := (s.swapped_iff _ _ _ _ _ _ _).mp hcall
      by_cases hobject : c.kind = k ∧ c.id = id
      · exact Or.inr ⟨hobject.1, hobject.2, if_pos hobject⟩
      · refine Or.inl ?_
        rw [hst]
        refine s.get_put_of_ne _ _ _ _ _ _ ?_
        rcases not_and_or.mp hobject with hkind | hid
        · exact Or.inl (Ne.symm hkind)
        · exact Or.inr (Ne.symm hid)

theorem past_of_winner {m : CasMove σ} (hadvances : s.Advances st m)
    (h : s.winner k id st m = some e) : s.Past k id e (s.step st m) := by
  obtain ⟨now, v, rfl, hmatches, hgate, hstep⟩ := winner_eq_some h
  rw [hstep]
  exact ⟨v, s.get_put_self st k id v, (hadvances hmatches hgate).2⟩

theorem Past.lt_of_winner (hpast : s.Past k id e st) {m : CasMove σ}
    (h : s.winner k id st m = some e') : e < e' := by
  obtain ⟨v, hget, n, hn, hlt⟩ := hpast
  obtain ⟨_, _, _, ⟨existing, hexisting, hmatches⟩, -, -⟩ := winner_eq_some h
  rw [hget, Option.some.injEq] at hexisting
  subst hexisting
  rw [s.matches_number k v e' n hmatches hn] at hlt
  exact hlt

theorem Past.step (hpast : s.Past k id e st) {m : CasMove σ} (hadvances : s.Advances st m)
    (hundisturbed : s.Undisturbed k id st m) : s.Past k id e (s.step st m) := by
  cases m with
  | other change =>
    obtain ⟨v, hget, habove⟩ := hpast
    exact ⟨v, hundisturbed.trans hget, habove⟩
  | swap c =>
    rcases get_swap s st c k id with hsame | ⟨-, -, hwinner⟩
    · obtain ⟨v, hget, habove⟩ := hpast
      exact ⟨v, hsame.trans hget, habove⟩
    · have hlt := hpast.lt_of_winner hwinner
      obtain ⟨v, hget, n, hn, habove⟩ := past_of_winner hadvances hwinner
      exact ⟨v, hget, n, hn, hlt.trans habove⟩

theorem winners_increase {moves : List (CasMove σ)}
    (hadvances : Along s.step s.Advances st moves)
    (hundisturbed : Along s.step (s.Undisturbed k id) st moves) :
    (emitted s.step (s.winner k id) st moves).Pairwise (· < ·) := by
  have hpast : ∀ st m e, (s.Advances st m ∧ s.Undisturbed k id st m) →
      s.winner k id st m = some e → s.Past k id e (s.step st m) := by
    intro st m e hm hwinner
    exact past_of_winner hm.1 hwinner
  have hkeep : ∀ st m e, (s.Advances st m ∧ s.Undisturbed k id st m) →
      s.Past k id e st → s.Past k id e (s.step st m) := by
    intro st m e hm hpast
    exact hpast.step hm.1 hm.2
  have hlater : ∀ st m e e', (s.Advances st m ∧ s.Undisturbed k id st m) →
      s.Past k id e st → s.winner k id st m = some e' → e < e' := by
    intro st m e e' _ hpast hwinner
    exact hpast.lt_of_winner hwinner
  exact emitted_pairwise hpast hkeep hlater (along_and.mpr ⟨hadvances, hundisturbed⟩)

theorem keeps (s : CasStore σ) (st : σ) (m : CasMove σ) : s.Keeps st m := by
  cases m with
  | other change => trivial
  | swap c =>
    intro hlost
    rw [CasStore.step]
    cases hcall : s.call st c with
    | error _ => rfl
    | ok result =>
      obtain ⟨b, st'⟩ := result
      cases b with
      | false => exact s.refused _ _ _ _ _ _ _ hcall
      | true => exact absurd hcall (hlost st')

theorem replaces_iff_advances (s : CasStore σ) (st : σ) (m : CasMove σ) :
    s.Replaces st m ↔ s.Advances st m := by
  cases m with
  | other change => exact Iff.rfl
  | swap c =>
    constructor
    · intro h hmatches hgate
      have hcall : s.call st c = .ok (true, s.put st c.kind c.id c.value) :=
        (s.swapped_iff _ _ _ _ _ _ _).mpr ⟨hmatches, hgate, rfl⟩
      obtain ⟨v, hget, hid, habove⟩ := h _ hcall
      rw [s.get_put_self, Option.some.injEq] at hget
      subst hget
      exact ⟨hid, habove⟩
    · intro h st' hcall
      obtain ⟨hmatches, hgate, rfl⟩ := (s.swapped_iff _ _ _ _ _ _ _).mp hcall
      exact ⟨c.value, s.get_put_self st c.kind c.id c.value, h hmatches hgate⟩

theorem realCas_iff (s : CasStore σ) (start : σ) (moves : List (CasMove σ)) :
    s.RealCas start moves ↔ Along s.step s.Advances start moves := by
  constructor
  · intro h
    exact h.replaces.mono (fun st m => (replaces_iff_advances s st m).mp)
  · intro h
    refine ⟨h.mono (fun st m => (replaces_iff_advances s st m).mpr), along_of_forall s.keeps, ?_⟩
    intro k id before during hprefix hundisturbed
    obtain ⟨after, rfl⟩ := hprefix
    rw [along_append, along_append] at h
    exact (winners_increase h.1.2 hundisturbed).imp (fun hlt => hlt.ne)

end CasStore

/-- In both stores, over any interleaving of calls with anything else: compare and swap is
one exactly where every new value that is about to be stored has the identifier that was
asked for and a version above the expected one. -/
theorem compareAndSwap_real_iff (castText : String → Int) :
    (∀ (start : MemoryStore) (moves : List (CasMove MemoryStore)),
      MemoryStore.casStore.RealCas start moves ↔
        Along MemoryStore.casStore.step MemoryStore.casStore.Advances start moves) ∧
    (∀ (start : SqliteStore) (moves : List (CasMove SqliteStore)),
      (SqliteStore.casStore castText).RealCas start moves ↔
        Along (SqliteStore.casStore castText).step (SqliteStore.casStore castText).Advances start
          moves) :=
  ⟨CasStore.realCas_iff _, CasStore.realCas_iff _⟩

/-! ## Two winners of one version -/

def pendingStep : Step :=
  { id := "step_a", createdAt := 0, runId := "run_1", stepKey := "write", kind := "generic",
    updatedAt := 0 }

/-- Two writers that read version 0 and do not raise it. -/
def rivals {σ : Type} : List (CasMove σ) :=
  [.swap ⟨1, .step, "step_a", 0, { pendingStep with status := .running }⟩,
   .swap ⟨1, .step, "step_a", 0, { pendingStep with status := .cancelled }⟩]

theorem rivals_both_win :
    emitted MemoryStore.casStore.step (MemoryStore.casStore.winner .step "step_a")
        (unleasedStore.save .step pendingStep) rivals = [0, 0] ∧
    emitted (SqliteStore.casStore (fun _ => 0)).step
        ((SqliteStore.casStore (fun _ => 0)).winner .step "step_a")
        (unleasedTable.save .step pendingStep) rivals = [0, 0] :=
  ⟨by decide +kernel, by decide +kernel⟩

theorem not_realCas :
    (¬ ∀ (start : MemoryStore) (moves : List (CasMove MemoryStore)),
      MemoryStore.casStore.RealCas start moves) ∧
    (¬ ∀ (castText : String → Int) (start : SqliteStore) (moves : List (CasMove SqliteStore)),
      (SqliteStore.casStore castText).RealCas start moves) := by
  obtain ⟨hmemory, hsqlite⟩ := rivals_both_win
  constructor
  · intro h
    have hnodup := (h (unleasedStore.save .step pendingStep) rivals).once .step "step_a" [] rivals
      List.prefix_rfl ⟨trivial, trivial, trivial⟩
    rw [run_nil, hmemory] at hnodup
    exact absurd hnodup (by decide)
  · intro h
    have hnodup := (h (fun _ => 0) (unleasedTable.save .step pendingStep) rivals).once
      .step "step_a" [] rivals List.prefix_rfl ⟨trivial, trivial, trivial⟩
    rw [run_nil, hsqlite] at hnodup
    exact absurd hnodup (by decide)

end PortableRuntime
