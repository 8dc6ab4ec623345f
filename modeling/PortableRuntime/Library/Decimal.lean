/-
Decimal texts.

The text of an integer is its digits, after a sign if it is negative, so two integers of
one text are equal and no text of an integer has a bar in it.
-/

namespace PortableRuntime

theorem isDigit_natRepr {n : Nat} {c : Char} (h : c ∈ n.repr.toList) : c.isDigit = true := by
  rw [Nat.toList_repr] at h
  exact Nat.isDigit_of_mem_toDigits (by decide) (by decide) h

theorem natRepr_injective {m n : Nat} (h : m.repr.toList = n.repr.toList) : m = n := by
  rw [Nat.toList_repr, Nat.toList_repr] at h
  rw [← Nat.ofDigitChars_ten_toDigits (n := m), h, Nat.ofDigitChars_ten_toDigits]

/-- The decimal of a number: digits, after a sign if it is negative. -/
theorem toList_intRepr (v : Int) :
    (∃ n : Nat, v = n ∧ (toString v).toList = n.repr.toList) ∨
    (∃ n : Nat, v = Int.negSucc n ∧ (toString v).toList = '-' :: (n + 1).repr.toList) := by
  cases v with
  | ofNat n => exact .inl ⟨n, rfl, rfl⟩
  | negSucc n => exact .inr ⟨n, rfl, by
      rw [show toString (Int.negSucc n) = "-" ++ (n + 1).repr from rfl, String.toList_append]
      rfl⟩

theorem bar_not_mem_toString (v : Int) : '|' ∉ (toString v).toList := by
  have hdigit : ∀ n : Nat, '|' ∉ n.repr.toList := fun n h => absurd (isDigit_natRepr h) (by decide)
  rcases toList_intRepr v with ⟨n, -, hv⟩ | ⟨n, -, hv⟩
  · rw [hv]
    exact hdigit n
  · rw [hv, List.mem_cons, not_or]
    exact ⟨by decide, hdigit (n + 1)⟩

theorem toString_int_injective {v w : Int} (h : (toString v).toList = (toString w).toList) :
    v = w := by
  have hsign : ∀ m n : Nat, m.repr.toList ≠ '-' :: n.repr.toList := by
    intro m n heq
    have hmem : '-' ∈ m.repr.toList := heq ▸ List.mem_cons_self
    exact absurd (isDigit_natRepr hmem) (by decide)
  rcases toList_intRepr v with ⟨m, rfl, hv⟩ | ⟨m, rfl, hv⟩ <;>
    rcases toList_intRepr w with ⟨n, rfl, hw⟩ | ⟨n, rfl, hw⟩ <;> rw [hv, hw] at h
  · rw [natRepr_injective h]
  · exact absurd h (hsign m _)
  · exact absurd h.symm (hsign n _)
  · have hsucc := natRepr_injective (List.cons.inj h).2
    rw [Nat.succ.inj hsucc]

end PortableRuntime
