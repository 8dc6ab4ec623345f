import PortableRuntime.Core.Models

/-!
# Capability requests and fencing

The run-owned lease facts of a request are compared with one snapshot of the run.
-/

namespace PortableRuntime

inductive CapabilityResultStatus where
  | succeeded | failed | unavailable | needsInput | cancelled | unknown
deriving Repr, DecidableEq, Inhabited

structure CapabilityRequest where
  id : String
  capability : String
  workId : Option String := none
  runId : Option String := none
  metadata : Fields := []
  idempotencyKey : Option String := none
  stepKey : Option String := none
  leaseGeneration : Int := 0
  leaseOwner : Option String := none
deriving Repr, Inhabited

/-- The field of a request always holds an integer, so its metadata is never consulted. -/
def extractLeaseGeneration (request : CapabilityRequest) : Option Int :=
  some request.leaseGeneration

def extractLeaseOwner (request : CapabilityRequest) : Option String :=
  match request.leaseOwner with
  | some owner => some owner
  | none => match request.metadata.get "lease_owner" with
    | .str owner => some owner
    | _ => none

/-- The truth value of an optional string. -/
def truthy (s : Option String) : Bool := s.any (· ≠ "")

/-- The last comparison: a lease without an expiry never expires. -/
def checkLeaseExpiry (expiresAt : Option Time) (now : Time) : Bool × String :=
  match expiresAt with
  | none => (true, "fencing ok")
  | some expiry =>
    if expiry ≤ now then (false, s!"fencing: lease expired at {Text.isoformat expiry}")
    else (true, "fencing ok")

/-- The verdict on a request and the reason given for it. -/
def validateFencing (request : CapabilityRequest) (run : Option Run) (now : Time) :
    Bool × String :=
  match run, request.runId with
  | none, _ => (true, "no run fencing required")
  | _, none => (true, "no run fencing required")
  | some run, some _ =>
    let owner := run.leaseOwner.getD ""
    if !truthy run.leaseOwner && run.leaseGeneration = 0 then (true, "unleased run")
    else match extractLeaseGeneration request with
      | none => (false, s!"fencing: missing lease_generation, expected {run.leaseGeneration}")
      | some generation =>
        if generation ≠ run.leaseGeneration then
          (false, s!"fencing: generation mismatch request {generation} != current {run.leaseGeneration}")
        else if truthy run.leaseOwner then
          match extractLeaseOwner request with
          | some presented =>
            if presented ≠ owner then (false, s!"fencing: owner mismatch {presented} != {owner}")
            else checkLeaseExpiry run.leaseExpiresAt now
          | none => (false, s!"fencing: missing lease_owner, expected {owner}")
        else checkLeaseExpiry run.leaseExpiresAt now

theorem truthy_eq_true {s : Option String} : truthy s = true ↔ ∃ text, s = some text ∧ text ≠ "" := by
  cases s with
  | none => simp [truthy]
  | some text => simp [truthy]

theorem checkLeaseExpiry_eq_true {expiresAt : Option Time} {now : Time} :
    (checkLeaseExpiry expiresAt now).1 = true ↔ ∀ expiry, expiresAt = some expiry → now < expiry := by
  cases expiresAt with
  | none => simp [checkLeaseExpiry]
  | some expiry =>
    rw [checkLeaseExpiry]
    by_cases h : expiry ≤ now
    · have : ¬ now < expiry := not_lt.mpr h
      simp [h, this]
    · have : now < expiry := not_le.mp h
      simp [h, this]

/-- An accepted request meets an unleased run, or it names the generation of the lease,
its owner where there is one, and a time before its expiry where it has one. -/
theorem validateFencing_eq_true {request : CapabilityRequest} {run : Run} {runId : String}
    {now : Time} (hrun : request.runId = some runId) :
    (validateFencing request (some run) now).1 = true ↔
      (truthy run.leaseOwner = false ∧ run.leaseGeneration = 0) ∨
      (request.leaseGeneration = run.leaseGeneration ∧
        (truthy run.leaseOwner = true → extractLeaseOwner request = run.leaseOwner) ∧
        ∀ expiry, run.leaseExpiresAt = some expiry → now < expiry) := by
  unfold validateFencing
  rw [hrun, ← checkLeaseExpiry_eq_true]
  cases howner : truthy run.leaseOwner with
  | false =>
    by_cases hzero : run.leaseGeneration = 0
    · simp [howner, hzero]
    · by_cases hgeneration : request.leaseGeneration = run.leaseGeneration
      · simp [extractLeaseGeneration, howner, hgeneration, hzero]
      · simp [extractLeaseGeneration, hgeneration, hzero]
  | true =>
    obtain ⟨owner, hsome, -⟩ := truthy_eq_true.mp howner
    have htext : truthy (some owner) = true := by rwa [hsome] at howner
    by_cases hgeneration : request.leaseGeneration = run.leaseGeneration
    · cases hpresented : extractLeaseOwner request with
      | none => simp [extractLeaseGeneration, hgeneration, hsome, htext]
      | some presented =>
        by_cases hsame : presented = owner
        · simp [extractLeaseGeneration, hgeneration, hsome, htext, hsame]
        · simp [extractLeaseGeneration, hgeneration, hsome, htext, hsame]
    · simp [extractLeaseGeneration, howner, hgeneration]

end PortableRuntime
