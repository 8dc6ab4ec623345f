import PortableRuntime.Governance.Distinction
import PortableRuntime.Library.Decimal

/-!
# What an anchor tells

An anchor starts with the version, up to the first bar, so states of one anchor have one
version.
-/

namespace PortableRuntime

/-- Two lists that agree, and whose beginnings do not hold the letter that ends them. -/
theorem eq_of_append_eq {α : Type} {a b c d : List α} {bar : α} (ha : bar ∉ a) (hb : bar ∉ b)
    (h : a ++ bar :: c = b ++ bar :: d) : a = b := by
  induction a generalizing b with
  | nil =>
    cases b with
    | nil => rfl
    | cons y rest =>
      obtain ⟨rfl, -⟩ := List.cons.inj h
      exact absurd List.mem_cons_self hb
  | cons x rest ih =>
    cases b with
    | nil =>
      obtain ⟨rfl, -⟩ := List.cons.inj h
      exact absurd List.mem_cons_self ha
    | cons y rest' =>
      obtain ⟨rfl, htail⟩ := List.cons.inj h
      rw [ih (fun hx => ha (List.mem_cons_of_mem x hx)) (fun hy => hb (List.mem_cons_of_mem x hy))
        htail]

namespace Governance

theorem version_eq_of_anchor {a b : DistinctionState} (h : stateAnchor a = stateAnchor b) :
    a.version = b.version := by
  have hlist := congrArg String.toList h
  simp only [stateAnchor, String.toList_append, List.append_assoc] at hlist
  have hbar : "|q=".toList = '|' :: "q=".toList := by decide
  rw [hbar] at hlist
  have hrest := List.append_cancel_left hlist
  exact toString_int_injective
    (eq_of_append_eq (bar_not_mem_toString a.version) (bar_not_mem_toString b.version) hrest)

end Governance
end PortableRuntime
