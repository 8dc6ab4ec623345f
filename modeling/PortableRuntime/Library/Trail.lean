/-
Trails of a log.

A log of changes is a trail from one view to another when its first change starts at the one, each
change starts where the one before it ended, and the last ends at the other.  A machine that emits a
change exactly when its view changes leaves a trail (`trail_emitted`).
-/
import PortableRuntime.Library.Run

namespace PortableRuntime

section Trail

variable {ν ε : Type} (source target : ε → ν)

def Trail : ν → List ε → ν → Prop
  | x, [], y => x = y
  | x, change :: rest, y => source change = x ∧ Trail (target change) rest y

variable {source target}

theorem Trail.ne_nil {x y : ν} {log : List ε} (h : Trail source target x log y) (hne : x ≠ y) :
    log ≠ [] := by
  intro hnil
  rw [hnil] at h
  exact hne h

/-- Where each change raises a measure by one, a trail has as many changes as the measure says. -/
theorem Trail.measure_eq {m : ν → Int} {x y : ν} {log : List ε}
    (h : Trail source target x log y)
    (hone : ∀ change ∈ log, m (target change) = m (source change) + 1) :
    m y = m x + log.length := by
  induction log generalizing x with
  | nil =>
    rw [show x = y from h]
    simp
  | cons change rest ih =>
    have hrest := ih h.2 (fun later hlater => hone later (List.mem_cons_of_mem _ hlater))
    rw [hrest, hone change List.mem_cons_self, h.1, List.length_cons]
    omega

variable {σ ω : Type} {step : σ → ω → σ} {emit : σ → ω → Option ε} {view : σ → ν}

theorem trail_emitted
    (hstep : ∀ s op, (emit s op = none ∧ view (step s op) = view s) ∨
      ∃ change, emit s op = some change ∧ source change = view s ∧
        target change = view (step s op)) (s : σ) (ops : List ω) :
    Trail source target (view s) (emitted step emit s ops) (view (run step s ops)) := by
  induction ops generalizing s with
  | nil => rfl
  | cons op rest ih =>
    rw [emitted, run_cons]
    cases hstep s op with
    | inl hsame =>
      rw [hsame.1, ← hsame.2]
      exact ih (step s op)
    | inr hchange =>
      obtain ⟨change, hemit, hsource, htarget⟩ := hchange
      rw [hemit]
      exact ⟨hsource, htarget ▸ ih (step s op)⟩

/-- The part of a log that meets a condition is what the steps emit of it. -/
theorem filter_emitted (p : ε → Bool) (s : σ) (ops : List ω) :
    (emitted step emit s ops).filter p =
      emitted step (fun s op => (emit s op).filter p) s ops := by
  induction ops generalizing s with
  | nil => rfl
  | cons op rest ih =>
    rw [emitted, emitted, List.filter_append, ih]
    congr 1
    cases emit s op with
    | none => rfl
    | some change =>
      by_cases h : p change
      · simp [Option.filter, h]
      · simp [Option.filter, h]

end Trail

end PortableRuntime
