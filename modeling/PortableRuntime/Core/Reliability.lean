import PortableRuntime.Library.Run
import PortableRuntime.Python.Json

/-!
# Reliability controls

A small gate that tracks the durable budget, how much side effect has been spent, and the
transient one, how many side effects are in flight.  `assess` reads the counters,
`recordAction` and `completeAction` move them.
-/

namespace PortableRuntime

/-- The thresholds, with their defaults. -/
structure ReliabilityLimits where
  maxActionRate : Int := 100
  maxParallelSideEffects : Int := 10
  blastRadius : Int := 5
  exposureBudget : Int := 1000
  sideEffectBudget : Int := 100
deriving Repr, DecidableEq, Inhabited

structure ReliabilityObservation where
  actionRate : Int
  activeSideEffects : Int
  sideEffectCount : Int
  exposureUsed : Int
  requestedBlastRadius : Int
  requestedExposure : Int
  cooldownRemaining : Time
deriving Repr, DecidableEq

/-- `t_detect`, `t_judge`, `t_correct` and `t_irreversible`. -/
structure RecoveryTiming where
  detect : Time
  judge : Time
  correct : Time
  irreversible : Time
deriving Repr, DecidableEq

/-- The timing of a request: absent, a mapping that lacks a number, or four numbers. -/
inductive TimingInput where
  | absent
  | incomplete
  | given (timing : RecoveryTiming)
deriving Repr, DecidableEq

structure ReliabilityStageInput where
  sideEffect : Bool
  actionBlastRadius : Int := 1
  exposure : Option Int := none
  irreversible : Bool := false
  procedureProfile : String := "minimal"
  timing : TimingInput := .absent
deriving Repr, DecidableEq

/-- The exposure a request is charged with. -/
def ReliabilityStageInput.requestedExposure (input : ReliabilityStageInput) : Int :=
  input.exposure.getD input.actionBlastRadius

/-- The first structural reason against a request. -/
def riskReason (obs : ReliabilityObservation) (input : ReliabilityStageInput) : Option String :=
  if input.sideEffect && obs.requestedBlastRadius < 1 then some "blast_radius_positive"
  else if input.sideEffect && obs.requestedExposure < 1 then some "exposure_positive"
  else if input.procedureProfile = "enhanced" || input.irreversible then
    match input.timing with
    | .absent => some "recovery_timing_required"
    | .incomplete => some "recovery_timing_incomplete"
    | .given t =>
      if min (min t.detect t.judge) (min t.correct t.irreversible) < 0 then
        some "recovery_timing_non_negative"
      else if t.irreversible ≤ t.detect + t.judge + t.correct then some "recovery_window"
      else none
  else none

/-- The first threshold that an observation meets. -/
def limitReason (obs : ReliabilityObservation) (limits : ReliabilityLimits) : Option String :=
  if limits.maxActionRate ≤ obs.actionRate then some "max_action_rate"
  else if limits.blastRadius < obs.requestedBlastRadius then some "blast_radius_limit"
  else if limits.maxParallelSideEffects ≤ obs.activeSideEffects then
    some "parallel_side_effect_limit"
  else if limits.sideEffectBudget ≤ obs.sideEffectCount then some "side_effect_budget"
  else if limits.exposureBudget < obs.exposureUsed + obs.requestedExposure then
    some "exposure_budget"
  else if 0 < obs.cooldownRemaining then some "cooldown"
  else none

def reasonText (obs : ReliabilityObservation) (limits : ReliabilityLimits) : String → String
  | "max_action_rate" => "max_action_rate exceeded"
  | "blast_radius_positive" => "blast_radius must be positive"
  | "blast_radius_limit" =>
    s!"blast_radius {obs.requestedBlastRadius} exceeds limit {limits.blastRadius}"
  | "exposure_positive" => "exposure must be positive"
  | "parallel_side_effect_limit" => "max_parallel_side_effects exceeded"
  | "side_effect_budget" => "side_effect_budget exhausted"
  | "exposure_budget" => "exposure_budget exhausted"
  | "cooldown" => "cooldown active"
  | "recovery_timing_required" => "enhanced side effect requires recovery timing"
  | "recovery_timing_incomplete" => "recovery timing is incomplete"
  | "recovery_timing_non_negative" => "recovery timing must be non-negative"
  | "recovery_window" => "recovery loop exceeds irreversible window"
  | _ => "allowed"

/-- The disposition: whether the request is allowed, and the text of the reason. -/
def ReliabilityLimits.decide (limits : ReliabilityLimits) (obs : ReliabilityObservation)
    (input : ReliabilityStageInput) : Bool × String :=
  match (riskReason obs input).or (limitReason obs limits) with
  | none => (true, "allowed")
  | some reason => (false, reasonText obs limits reason)

structure ReliabilityControls where
  limits : ReliabilityLimits := {}
  cooldown : Time := 5000000
  actionTimestamps : List Time := []
  sideEffectCount : Int := 0
  activeSideEffects : Int := 0
  exposureUsed : Int := 0
  lastSideEffectAt : Option Time := none
  lastBlockReason : Option String := none
deriving Repr, DecidableEq, Inhabited

namespace ReliabilityControls

/-- Actions count for one minute. -/
def recentActions (rc : ReliabilityControls) (now : Time) : List Time :=
  rc.actionTimestamps.filter (fun t => now - t < 60000000)

def observe (rc : ReliabilityControls) (now : Time) (input : ReliabilityStageInput) :
    ReliabilityObservation where
  actionRate := (rc.recentActions now).length
  activeSideEffects := rc.activeSideEffects
  sideEffectCount := rc.sideEffectCount
  exposureUsed := rc.exposureUsed
  requestedBlastRadius := input.actionBlastRadius
  requestedExposure := input.requestedExposure
  cooldownRemaining := rc.lastSideEffectAt.elim 0 (fun t => max 0 (rc.cooldown - (now - t)))

/-- An admissibility decision and a stable reason. -/
def assess (rc : ReliabilityControls) (now : Time) (input : ReliabilityStageInput) :
    (Bool × String) × ReliabilityControls :=
  let disposition := rc.limits.decide (rc.observe now input) input
  (disposition,
    { rc with
      actionTimestamps := rc.recentActions now
      lastBlockReason := if disposition.1 then none else some disposition.2 })

def recordAction (rc : ReliabilityControls) (now : Time) (input : ReliabilityStageInput) :
    ReliabilityControls :=
  let recorded := { rc with actionTimestamps := rc.actionTimestamps ++ [now] }
  if input.sideEffect then
    { recorded with
      sideEffectCount := rc.sideEffectCount + 1
      activeSideEffects := rc.activeSideEffects + 1
      exposureUsed := rc.exposureUsed + input.requestedExposure
      lastSideEffectAt := some now }
  else recorded

/-- Release transient parallel capacity after provider completion. -/
def completeAction (rc : ReliabilityControls) (sideEffect : Bool) : ReliabilityControls :=
  if sideEffect && 0 < rc.activeSideEffects then
    { rc with activeSideEffects := rc.activeSideEffects - 1 }
  else rc

/-- The counters keep to the budgets. -/
structure WithinBudgets (rc : ReliabilityControls) : Prop where
  parallel : rc.activeSideEffects ≤ rc.limits.maxParallelSideEffects
  count : rc.sideEffectCount ≤ rc.limits.sideEffectBudget
  exposure : rc.exposureUsed ≤ rc.limits.exposureBudget

/-- No budget refuses one more side effect of this exposure. -/
structure RoomFor (rc : ReliabilityControls) (input : ReliabilityStageInput) : Prop where
  parallel : rc.activeSideEffects < rc.limits.maxParallelSideEffects
  count : rc.sideEffectCount < rc.limits.sideEffectBudget
  exposure : rc.exposureUsed + input.requestedExposure ≤ rc.limits.exposureBudget

instance (rc : ReliabilityControls) : Decidable rc.WithinBudgets :=
  decidable_of_iff (_ ∧ _ ∧ _) ⟨fun ⟨a, b, c⟩ => ⟨a, b, c⟩, fun ⟨a, b, c⟩ => ⟨a, b, c⟩⟩

instance (rc : ReliabilityControls) (input : ReliabilityStageInput) :
    Decidable (rc.RoomFor input) :=
  decidable_of_iff (_ ∧ _ ∧ _) ⟨fun ⟨a, b, c⟩ => ⟨a, b, c⟩, fun ⟨a, b, c⟩ => ⟨a, b, c⟩⟩

variable {rc : ReliabilityControls} {now : Time} {input : ReliabilityStageInput}

/-- What an assessment allows it finds room for. -/
theorem roomFor_of_assess (h : (rc.assess now input).1.1 = true) : rc.RoomFor input := by
  have hnone : limitReason (rc.observe now input) rc.limits = none := by
    have hdecide : (rc.limits.decide (rc.observe now input) input).1 = true := h
    rw [ReliabilityLimits.decide] at hdecide
    cases hrisk : riskReason (rc.observe now input) input with
    | some reason => simp [hrisk] at hdecide
    | none =>
      cases hlimit : limitReason (rc.observe now input) rc.limits with
      | some reason => simp [hrisk, hlimit] at hdecide
      | none => rfl
  rw [limitReason] at hnone
  split_ifs at hnone with hrate hradius hparallel hcount hexposure
  exact ⟨not_le.mp hparallel, not_le.mp hcount, not_lt.mp hexposure⟩

theorem withinBudgets_assess : (rc.assess now input).2.WithinBudgets ↔ rc.WithinBudgets :=
  ⟨fun ⟨a, b, c⟩ => ⟨a, b, c⟩, fun ⟨a, b, c⟩ => ⟨a, b, c⟩⟩

theorem withinBudgets_completeAction {sideEffect : Bool} (h : rc.WithinBudgets) :
    (rc.completeAction sideEffect).WithinBudgets := by
  rw [completeAction]
  split_ifs
  · have hparallel := h.parallel
    have hless : rc.activeSideEffects - 1 ≤ rc.limits.maxParallelSideEffects := by omega
    exact ⟨hless, h.count, h.exposure⟩
  · exact h

/-- Recording a side effect keeps the budgets exactly when there is room for it. -/
theorem withinBudgets_recordAction_iff (hside : input.sideEffect = true) :
    (rc.recordAction now input).WithinBudgets ↔ rc.RoomFor input := by
  rw [recordAction, if_pos hside]
  constructor
  · rintro ⟨hparallel, hcount, hexposure⟩
    have hparallel : rc.activeSideEffects + 1 ≤ rc.limits.maxParallelSideEffects := hparallel
    have hcount : rc.sideEffectCount + 1 ≤ rc.limits.sideEffectBudget := hcount
    exact ⟨by omega, by omega, hexposure⟩
  · rintro ⟨hparallel, hcount, hexposure⟩
    have hparallel' : rc.activeSideEffects + 1 ≤ rc.limits.maxParallelSideEffects := by omega
    have hcount' : rc.sideEffectCount + 1 ≤ rc.limits.sideEffectBudget := by omega
    exact ⟨hparallel', hcount', hexposure⟩

theorem roomFor_assess {other : ReliabilityStageInput} :
    (rc.assess now other).2.RoomFor input ↔ rc.RoomFor input :=
  ⟨fun ⟨a, b, c⟩ => ⟨a, b, c⟩, fun ⟨a, b, c⟩ => ⟨a, b, c⟩⟩

theorem roomFor_recordAction_pure {other : ReliabilityStageInput}
    (hside : other.sideEffect = false) :
    (rc.recordAction now other).RoomFor input ↔ rc.RoomFor input := by
  rw [recordAction, hside]
  exact ⟨fun ⟨a, b, c⟩ => ⟨a, b, c⟩, fun ⟨a, b, c⟩ => ⟨a, b, c⟩⟩

/-- A completion only gives room back. -/
theorem roomFor_completeAction {sideEffect : Bool} (h : rc.RoomFor input) :
    (rc.completeAction sideEffect).RoomFor input := by
  rw [completeAction]
  split_ifs
  · have hparallel := h.parallel
    have hless : rc.activeSideEffects - 1 < rc.limits.maxParallelSideEffects := by omega
    exact ⟨hless, h.count, h.exposure⟩
  · exact h

theorem withinBudgets_recordAction_pure (hside : input.sideEffect = false) :
    (rc.recordAction now input).WithinBudgets ↔ rc.WithinBudgets := by
  rw [recordAction, hside]
  exact ⟨fun ⟨a, b, c⟩ => ⟨a, b, c⟩, fun ⟨a, b, c⟩ => ⟨a, b, c⟩⟩

end ReliabilityControls
end PortableRuntime
