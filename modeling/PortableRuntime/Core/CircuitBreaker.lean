import PortableRuntime.Library.Run

/-!
# Circuit breakers

A breaker opens after enough failures, and lets probes through once its timeout has passed.  The
results that are recorded may be those of invocations that began in any state.  Clock readings are
in microseconds.
-/

namespace PortableRuntime

inductive CircuitState where
  | closed | opened | halfOpen
deriving Repr, DecidableEq, Inhabited

structure CircuitBreaker where
  failureThreshold : Int := 5
  recoveryTimeout : Int := 30000000
  halfOpenProbes : Int := 1
  failures : Int := 0
  state : CircuitState := .closed
  openedAt : Option Int := none
  successes : Int := 0
deriving Repr, DecidableEq

namespace CircuitBreaker

def recordSuccess (b : CircuitBreaker) : CircuitBreaker :=
  if b.state = .halfOpen then
    if b.halfOpenProbes ≤ b.successes + 1 then
      { b with failures := 0, state := .closed, successes := 0 }
    else { b with failures := 0, successes := b.successes + 1 }
  else { b with failures := 0, state := .closed }

def recordFailure (b : CircuitBreaker) (now : Int) : CircuitBreaker :=
  if b.failureThreshold ≤ b.failures + 1 then
    { b with failures := b.failures + 1, state := .opened, openedAt := some now }
  else { b with failures := b.failures + 1 }

/-- The breaker has been open for its timeout. -/
def timedOut (b : CircuitBreaker) (now : Int) : Bool :=
  b.openedAt.any (fun t => b.recoveryTimeout ≤ now - t)

def allow (b : CircuitBreaker) (now : Int) : Bool × CircuitBreaker :=
  match b.state with
  | .closed => (true, b)
  | .opened =>
    if b.timedOut now then (true, { b with state := .halfOpen, successes := 0 }) else (false, b)
  | .halfOpen => (true, b)

/-- The `state` property, which may move the breaker on. -/
def readState (b : CircuitBreaker) (now : Int) : CircuitState × CircuitBreaker :=
  let b := if b.state = .opened && b.timedOut now then { b with state := .halfOpen } else b
  (b.state, b)

/-! ## Calls -/

inductive Call where
  | allow | recordSuccess | recordFailure | state
deriving Repr, DecidableEq

/-- A call, and how long after the one before it the clock is read. -/
structure Timed where
  elapsed : Nat
  call : Call
deriving Repr, DecidableEq

/-- A breaker, the last reading of the clock, and how often `allow` has answered true since the
breaker became half-open, while no result has been recorded since. -/
structure Watched where
  breaker : CircuitBreaker
  now : Int
  grants : Option Nat := none
deriving Repr, DecidableEq

namespace Watched

/-- The count after a call that leaves the breaker in a state: it begins as the breaker becomes
half-open. -/
def counted (w : Watched) (after : CircuitState) : Option Nat :=
  if w.breaker.state = .opened && after = .halfOpen then some 0 else w.grants

def step (w : Watched) (o : Timed) : Watched :=
  let now := w.now + o.elapsed
  match o.call with
  | .allow =>
    let (answer, breaker) := w.breaker.allow now
    let grants := w.counted breaker.state
    { breaker, now, grants := if answer then grants.map (· + 1) else grants }
  | .recordSuccess => { breaker := w.breaker.recordSuccess, now, grants := none }
  | .recordFailure => { breaker := w.breaker.recordFailure now, now, grants := none }
  | .state =>
    let breaker := (w.breaker.readState now).2
    { breaker, now, grants := w.counted breaker.state }

/-- The breaker refuses until its timeout has passed, gives out no more probes than it may, and
would open again on a failure of a probe. -/
structure Contained (w : Watched) : Prop where
  shut : ∀ t later, w.breaker.openedAt = some t → w.now ≤ later →
    later < t + w.breaker.recoveryTimeout → (w.breaker.allow later).1 = false
  probes : ∀ n, w.grants = some n → n ≤ w.breaker.halfOpenProbes
  reopens : w.breaker.state = .halfOpen → (w.breaker.recordFailure w.now).state = .opened

/-- No success is recorded while the breaker is open and its timeout has not passed, nor as a probe
that leaves it half-open with its failures forgotten; and no more probes are asked for than it may
give out. -/
def CallContained (w : Watched) (o : Timed) : Prop :=
  match o.call with
  | .allow => ∀ n ∈ w.grants, n < w.breaker.halfOpenProbes
  | .recordSuccess =>
    (w.breaker.state = .opened → w.breaker.timedOut (w.now + o.elapsed) = true) ∧
      (w.breaker.state = .halfOpen → w.breaker.failureThreshold ≤ 1 ∨
        w.breaker.halfOpenProbes ≤ w.breaker.successes + 1)
  | _ => True

instance (w : Watched) (o : Timed) : Decidable (w.CallContained o) := by
  unfold CallContained
  cases o.call <;> infer_instance

end Watched

/-! ## Breakers whose calls are contained -/

/-- The thresholds are positive. -/
structure Positive (b : CircuitBreaker) : Prop where
  threshold : 0 < b.failureThreshold
  timeout : 0 < b.recoveryTimeout
  probes : 0 < b.halfOpenProbes

/-- A breaker as it is made. -/
structure Fresh (b : CircuitBreaker) : Prop where
  failures : b.failures = 0
  state : b.state = .closed
  openedAt : b.openedAt = none
  successes : b.successes = 0

/-- What the calls of a contained run keep. -/
structure Guarded (w : Watched) : Prop where
  positive : w.breaker.Positive
  opening : w.breaker.state = .opened → w.breaker.openedAt.isSome = true
  passed : w.breaker.state ≠ .opened → ∀ t, w.breaker.openedAt = some t →
    t + w.breaker.recoveryTimeout ≤ w.now
  failing : w.breaker.state ≠ .closed → w.breaker.failureThreshold ≤ w.breaker.failures + 1
  probes : ∀ n, w.grants = some n → n ≤ w.breaker.halfOpenProbes
  counting : w.breaker.state ≠ .halfOpen → w.grants = none

variable {w : Watched} {o : Timed}

/-- A success closes the breaker, or it is one of the probes that a half-open one still needs. -/
theorem recordSuccess_cases (b : CircuitBreaker) :
    (∃ successes, b.recordSuccess = { b with failures := 0, state := .closed, successes } ∧
        (b.state = .halfOpen → b.halfOpenProbes ≤ b.successes + 1)) ∨
      (b.state = .halfOpen ∧ b.successes + 1 < b.halfOpenProbes ∧
        b.recordSuccess = { b with failures := 0, successes := b.successes + 1 }) := by
  by_cases hhalf : b.state = .halfOpen
  · by_cases henough : b.halfOpenProbes ≤ b.successes + 1
    · refine Or.inl ⟨0, ?_, fun _ => henough⟩
      rw [recordSuccess, if_pos hhalf, if_pos henough]
    · refine Or.inr ⟨hhalf, by omega, ?_⟩
      rw [recordSuccess, if_pos hhalf, if_neg henough]
  · refine Or.inl ⟨b.successes, ?_, fun h => absurd h hhalf⟩
    rw [recordSuccess, if_neg hhalf]

/-- Until its timeout has passed an open breaker refuses; then it becomes half-open. -/
theorem allow_cases (b : CircuitBreaker) (now : Int) :
    (b.state ≠ .opened ∧ b.allow now = (true, b)) ∨
      (b.state = .opened ∧ b.timedOut now = true ∧
        b.allow now = (true, { b with state := .halfOpen, successes := 0 })) ∨
      (b.state = .opened ∧ b.timedOut now = false ∧ b.allow now = (false, b)) := by
  cases hstate : b.state with
  | closed => exact Or.inl ⟨by simp, by simp only [allow, hstate]⟩
  | halfOpen => exact Or.inl ⟨by simp, by simp only [allow, hstate]⟩
  | opened =>
    cases hout : b.timedOut now with
    | true => exact Or.inr (Or.inl ⟨rfl, rfl, by simp only [allow, hstate, hout, if_true]⟩)
    | false =>
      refine Or.inr (Or.inr ⟨rfl, rfl, ?_⟩)
      simp only [allow, hstate, hout, Bool.false_eq_true, if_false]

theorem readState_cases (b : CircuitBreaker) (now : Int) :
    (b.readState now).2 = b ∨
      (b.state = .opened ∧ b.timedOut now = true ∧
        (b.readState now).2 = { b with state := .halfOpen }) := by
  by_cases hturn : b.state = .opened ∧ b.timedOut now = true
  · exact Or.inr ⟨hturn.1, hturn.2, by simp [readState, hturn]⟩
  · refine Or.inl ?_
    have hstays : ¬ ((b.state = .opened && b.timedOut now) = true) := by
      simpa using hturn
    simp only [readState, if_neg hstays]

theorem timedOut_iff {b : CircuitBreaker} {now t : Int} (h : b.openedAt = some t) :
    b.timedOut now = true ↔ t + b.recoveryTimeout ≤ now := by
  rw [timedOut, h, Option.any_some, decide_eq_true_eq]
  exact ⟨fun h => by omega, fun h => by omega⟩

namespace Guarded

theorem contained (h : Guarded w) : w.Contained := by
  refine ⟨fun t later hopened hlater hbefore => ?_, h.probes, fun hhalf => ?_⟩
  · have hstate : w.breaker.state = .opened := by
      refine Decidable.byContradiction (fun hstate => ?_)
      have hpassed := h.passed hstate t hopened
      omega
    have hnot : ¬ w.breaker.timedOut later = true := by
      rw [timedOut_iff hopened]
      omega
    simp only [allow, hstate, hnot, Bool.false_eq_true, if_false]
  · have hfailing := h.failing (by simp [hhalf])
    rw [recordFailure, if_pos hfailing]

/-- A reading of the clock alone keeps what is guarded. -/
theorem later (h : Guarded w) (n : Nat) : Guarded { w with now := w.now + n } := by
  refine ⟨h.positive, h.opening, fun hstate t ht => ?_, h.failing, h.probes, h.counting⟩
  have hpassed := h.passed hstate t ht
  show t + w.breaker.recoveryTimeout ≤ w.now + n
  omega

/-- So does the breaker's becoming half-open once its timeout has passed. -/
theorem turned {successes : Int} {count : Nat} (h : Guarded w)
    (hopened : w.breaker.state = .opened) (hout : w.breaker.timedOut w.now = true)
    (hcount : count ≤ 1) :
    Guarded { w with breaker := { w.breaker with state := .halfOpen, successes },
                     grants := some count } where
  positive := ⟨h.positive.threshold, h.positive.timeout, h.positive.probes⟩
  opening := fun hstate => nomatch hstate
  passed := fun _ t ht => (timedOut_iff ht).mp hout
  failing := fun _ => h.failing (by simp [hopened])
  probes := by
    intro n hn
    obtain rfl : count = n := Option.some.inj hn
    have hprobes : 0 < w.breaker.halfOpenProbes := h.positive.probes
    show (count : Int) ≤ w.breaker.halfOpenProbes
    omega
  counting := fun hstate => absurd rfl hstate

theorem granted (h : Guarded w) (hroom : ∀ n ∈ w.grants, n < w.breaker.halfOpenProbes) :
    Guarded { w with grants := w.grants.map (· + 1) } where
  positive := h.positive
  opening := h.opening
  passed := h.passed
  failing := h.failing
  probes := by
    intro n hn
    obtain ⟨m, hm, rfl⟩ := Option.map_eq_some_iff.mp hn
    have hless := hroom m hm
    show ((m + 1 : Nat) : Int) ≤ w.breaker.halfOpenProbes
    omega
  counting := by
    intro hstate
    show w.grants.map (· + 1) = none
    rw [h.counting hstate, Option.map_none]

theorem recordSuccess (h : Guarded w)
    (hopened : w.breaker.state = .opened → w.breaker.timedOut w.now = true)
    (hhalf : w.breaker.state = .halfOpen → w.breaker.failureThreshold ≤ 1 ∨
      w.breaker.halfOpenProbes ≤ w.breaker.successes + 1) :
    Guarded { w with breaker := w.breaker.recordSuccess, grants := none } := by
  have hpositive : w.breaker.Positive := h.positive
  have hpassed : ∀ t, w.breaker.openedAt = some t → t + w.breaker.recoveryTimeout ≤ w.now := by
    intro t ht
    by_cases hstate : w.breaker.state = .opened
    · exact (timedOut_iff ht).mp (hopened hstate)
    · exact h.passed hstate t ht
  obtain ⟨successes, heq, _⟩ | ⟨hstate, hless, heq⟩ := recordSuccess_cases w.breaker
  · rw [heq]
    exact ⟨⟨hpositive.threshold, hpositive.timeout, hpositive.probes⟩, (fun hstate => nomatch hstate),
      fun _ t ht => hpassed t ht, fun hstate => absurd rfl hstate, (fun n hn => nomatch hn),
      fun _ => rfl⟩
  · rw [heq]
    refine ⟨⟨hpositive.threshold, hpositive.timeout, hpositive.probes⟩, fun hopen => ?_,
      fun _ t ht => hpassed t ht, fun _ => ?_, (fun n hn => nomatch hn), fun _ => rfl⟩
    · have hopen' : w.breaker.state = .opened := hopen
      rw [hstate] at hopen'
      exact nomatch hopen'
    · have hthreshold := (hhalf hstate).resolve_right (by omega)
      show w.breaker.failureThreshold ≤ 0 + 1
      omega

theorem recordFailure (h : Guarded w) :
    Guarded { w with breaker := w.breaker.recordFailure w.now, grants := none } := by
  have hpositive : w.breaker.Positive := h.positive
  rw [CircuitBreaker.recordFailure]
  split
  · rename_i hmany
    refine ⟨⟨hpositive.threshold, hpositive.timeout, hpositive.probes⟩, fun _ => rfl,
      fun hstate => absurd rfl hstate, fun _ => ?_, (fun n hn => nomatch hn), fun _ => rfl⟩
    show w.breaker.failureThreshold ≤ w.breaker.failures + 1 + 1
    omega
  · rename_i hfew
    -- only a closed breaker has so few failures
    have hclosed : w.breaker.state = .closed :=
      Decidable.byContradiction (fun hstate => hfew (h.failing hstate))
    exact ⟨⟨hpositive.threshold, hpositive.timeout, hpositive.probes⟩, h.opening, h.passed,
      fun hstate => absurd hclosed hstate, (fun n hn => nomatch hn), fun _ => rfl⟩

theorem step (h : Guarded w) (hcall : w.CallContained o) : Guarded (w.step o) := by
  have hlater := h.later o.elapsed
  obtain ⟨elapsed, call⟩ := o
  cases call with
  | allow =>
    simp only [Watched.step, Watched.counted]
    obtain ⟨hstate, heq⟩ | ⟨hopened, hout, heq⟩ | ⟨hopened, _, heq⟩ :=
      allow_cases w.breaker (w.now + elapsed)
    · simp only [heq, hstate, decide_false, Bool.false_and, Bool.false_eq_true, if_false, if_true]
      exact hlater.granted hcall
    · simp only [heq, hopened, decide_true, Bool.and_true, if_true]
      exact hlater.turned hopened hout (Nat.le_refl 1)
    · simp only [heq, hopened, reduceCtorEq, decide_false, Bool.and_false, Bool.false_eq_true,
        if_false]
      exact hlater
  | recordSuccess => exact hlater.recordSuccess hcall.1 hcall.2
  | recordFailure => exact hlater.recordFailure
  | state =>
    simp only [Watched.step, Watched.counted]
    obtain heq | ⟨hopened, hout, heq⟩ := readState_cases w.breaker (w.now + elapsed)
    · have hstays : ¬ ((decide (w.breaker.state = .opened) &&
          decide (w.breaker.state = .halfOpen)) = true) := by
        cases w.breaker.state <;> decide
      simp only [heq, if_neg hstays]
      exact hlater
    · simp only [heq, hopened, decide_true, Bool.and_true, if_true]
      exact hlater.turned hopened hout (Nat.zero_le 1)

/-- A call after which the breaker is contained is a contained call. -/
theorem callContained (h : Guarded w) (hstep : (w.step o).Contained) : w.CallContained o := by
  obtain ⟨elapsed, call⟩ := o
  cases call with
  | allow =>
    intro n hn
    have hhalf : w.breaker.state = .halfOpen := by
      refine Decidable.byContradiction (fun hstate => ?_)
      rw [h.counting hstate] at hn
      exact nomatch hn
    have hgrants : (w.step ⟨elapsed, .allow⟩).grants = some (n + 1) := by
      simp only [Watched.step, Watched.counted, allow, hhalf, reduceCtorEq, decide_false,
        Bool.false_and, Bool.false_eq_true, if_false, if_true, Option.mem_def.mp hn,
        Option.map_some]
    have hprobes : (w.step ⟨elapsed, .allow⟩).breaker.halfOpenProbes = w.breaker.halfOpenProbes := by
      simp only [Watched.step, allow, hhalf]
    have hmost := hstep.probes (n + 1) hgrants
    rw [hprobes] at hmost
    omega
  | recordSuccess =>
    obtain ⟨successes, heq, henough⟩ | ⟨hhalf, hless, heq⟩ := recordSuccess_cases w.breaker
    · refine ⟨fun hopened => ?_, fun hhalf => Or.inr (henough hhalf)⟩
      -- a breaker closed before its timeout has passed would allow at once
      obtain ⟨t, ht⟩ := Option.isSome_iff_exists.mp (h.opening hopened)
      refine (timedOut_iff ht).mpr (Int.not_lt.mp (fun hearly => ?_))
      have hbreaker : (w.step ⟨elapsed, .recordSuccess⟩).breaker =
          { w.breaker with failures := 0, state := .closed, successes } := heq
      have hshut := hstep.shut t (w.now + elapsed) (by rw [hbreaker]; exact ht) (Int.le_refl _)
        (by rw [hbreaker]; exact hearly)
      rw [hbreaker] at hshut
      exact nomatch hshut
    · refine ⟨fun hopened => ?_, fun _ => Or.inl ?_⟩
      · rw [hhalf] at hopened
        exact nomatch hopened
      · have hbreaker : (w.step ⟨elapsed, .recordSuccess⟩).breaker =
            { w.breaker with failures := 0, successes := w.breaker.successes + 1 } := heq
        have hreopens := hstep.reopens (by rw [hbreaker]; exact hhalf)
        rw [hbreaker, CircuitBreaker.recordFailure] at hreopens
        split at hreopens
        · rename_i hthreshold
          have hthreshold' : w.breaker.failureThreshold ≤ 0 + 1 := hthreshold
          omega
        · rw [hhalf] at hreopens
          exact nomatch hreopens
  | recordFailure => trivial
  | state => trivial

end Guarded

theorem Fresh.guarded {b : CircuitBreaker} (h : b.Fresh) (hpositive : b.Positive) (now : Int) :
    Guarded { breaker := b, now } where
  positive := hpositive
  opening := by
    intro hstate
    rw [h.state] at hstate
    exact nomatch hstate
  passed := by
    intro _ t ht
    rw [h.openedAt] at ht
    exact nomatch ht
  failing := fun hstate => absurd h.state hstate
  probes := fun n hn => nomatch hn
  counting := fun _ => rfl

/-! ## What a breaker contains -/

/-- A fresh breaker with positive thresholds contains the failures of a run of calls exactly when
every call is a contained one. -/
theorem circuit_contains_iff {b : CircuitBreaker} (hfresh : b.Fresh) (hpositive : b.Positive)
    (now : Int) (calls : List Timed) :
    (∀ pre, pre <+: calls → (run Watched.step { breaker := b, now } pre).Contained) ↔
      Along Watched.step Watched.CallContained { breaker := b, now } calls :=
  property_iff_along (fun _ h => h.contained) (fun _ _ h => h.callContained)
    (fun _ _ h => h.step) (hfresh.guarded hpositive now)

/-- Five failures, each at once, and a success, a second later, of an invocation that began before
them. -/
def lateSuccess : List Timed :=
  List.replicate 5 ⟨0, .recordFailure⟩ ++ [⟨1000000, .recordSuccess⟩]

/-- The breaker then allows the next invocation 28 seconds before its timeout has passed. -/
theorem circuit_closed_by_late_success :
    ¬ ∀ (b : CircuitBreaker), b.Fresh → b.Positive → ∀ (now : Int) (calls : List Timed),
      ∀ pre, pre <+: calls → (run Watched.step { breaker := b, now } pre).Contained := by
  intro h
  have hcontained := h {} ⟨rfl, rfl, rfl, rfl⟩ ⟨by decide, by decide, by decide⟩ 0 lateSuccess
    lateSuccess (List.prefix_refl _)
  have hshut := hcontained.shut 0 2000000 (by decide) (by decide) (by decide)
  exact absurd hshut (by decide)

/-- A success in time and one that closes the breaker keep it contained. -/
theorem circuit_contains_probe :
    let calls : List Timed := List.replicate 5 ⟨0, .recordFailure⟩ ++
      [⟨1000000, .allow⟩, ⟨29000000, .allow⟩, ⟨0, .recordSuccess⟩, ⟨0, .allow⟩]
    ∀ pre, pre <+: calls → (run Watched.step { breaker := {}, now := 0 } pre).Contained := by
  intro calls
  refine (circuit_contains_iff ⟨rfl, rfl, rfl, rfl⟩ ⟨by decide, by decide, by decide⟩ 0 calls).mpr ?_
  exact ⟨trivial, trivial, trivial, trivial, trivial, by decide, by decide, by decide, by decide,
    trivial⟩

end CircuitBreaker
end PortableRuntime
