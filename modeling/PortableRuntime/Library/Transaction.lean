import PortableRuntime.Library.Run

/-
Programs of operations with all-or-nothing blocks.

A `Prog` is one operation or a transaction over a list of programs.  A transaction
that fails leaves the state it began in.  `Follows C s p` asks the condition `C` of
each operation whose effect can last, in the state in which the program takes it.
-/

namespace PortableRuntime

inductive Prog (ω : Type) where
  | op (o : ω)
  | transaction (body : List (Prog ω)) (fails : Bool)

namespace Prog

section Exec

variable {σ ω : Type} (step : σ → ω → σ)

mutual
def exec : σ → Prog ω → σ
  | s, .op o => step s o
  | s, .transaction body fails => if fails then s else execAll s body
termination_by structural _ p => p

def execAll : σ → List (Prog ω) → σ
  | s, [] => s
  | s, p :: rest => execAll (exec s p) rest
termination_by structural _ ps => ps
end

variable (C : σ → ω → Prop)

mutual
def Follows : σ → Prog ω → Prop
  | s, .op o => C s o
  | s, .transaction body fails => fails = false → FollowsAll s body
termination_by structural _ p => p

def FollowsAll : σ → List (Prog ω) → Prop
  | _, [] => True
  | s, p :: rest => Follows s p ∧ FollowsAll (exec step s p) rest
termination_by structural _ ps => ps
end

variable {step} {C}

@[simp] theorem execAll_nil (s : σ) : execAll step s [] = s := rfl

@[simp] theorem execAll_cons (s : σ) (p : Prog ω) (rest : List (Prog ω)) :
    execAll step s (p :: rest) = execAll step (exec step s p) rest := rfl

theorem execAll_append (s : σ) (a b : List (Prog ω)) :
    execAll step s (a ++ b) = execAll step (execAll step s a) b := by
  induction a generalizing s with
  | nil => rfl
  | cons p rest ih => exact ih _

theorem followsAll_append {s : σ} {a b : List (Prog ω)} :
    FollowsAll step C s (a ++ b) ↔
      FollowsAll step C s a ∧ FollowsAll step C (execAll step s a) b := by
  induction a generalizing s with
  | nil => simp [FollowsAll]
  | cons p rest ih => simp only [List.cons_append, FollowsAll, ih, execAll_cons, and_assoc]

/-- What every conditioned operation relates to its state, a program relates to the
state it began in: the relation is a preorder, and a transaction that fails is one of
its reflexive pairs. -/
theorem exec_related {I : σ → Prop} {R : σ → σ → Prop} (hrefl : ∀ s, R s s)
    (htrans : ∀ a b c, R a b → R b c → R a c)
    (hstep : ∀ s o, I s → C s o → I (step s o) ∧ R s (step s o)) {ps : List (Prog ω)} :
    ∀ {s : σ}, I s → FollowsAll step C s ps →
      I (execAll step s ps) ∧ R s (execAll step s ps) := by
  refine @Prog.rec_1 ω
    (fun p => ∀ {s}, I s → Follows step C s p → I (exec step s p) ∧ R s (exec step s p))
    (fun ps => ∀ {s}, I s → FollowsAll step C s ps →
      I (execAll step s ps) ∧ R s (execAll step s ps)) ?_ ?_ ?_ ?_ ps
  · exact fun o s hs hC => hstep s o hs hC
  · intro body fails ih s hs hC
    cases fails with
    | true => exact ⟨hs, hrefl s⟩
    | false => exact ih hs (hC rfl)
  · exact fun hs _ => ⟨hs, hrefl _⟩
  · intro p rest ihp ihrest s hs hC
    obtain ⟨hI, hR⟩ := ihp hs hC.1
    obtain ⟨hI', hR'⟩ := ihrest hI hC.2
    exact ⟨hI', htrans _ _ _ hR hR'⟩

theorem exec_invariant {I : σ → Prop} (hstep : ∀ s o, I s → C s o → I (step s o))
    {ps : List (Prog ω)} {s : σ} (hs : I s) (hC : FollowsAll step C s ps) :
    I (execAll step s ps) :=
  (exec_related (R := fun _ _ => True) (fun _ => trivial) (fun _ _ _ _ _ => trivial)
    (fun s o hI hc => ⟨hstep s o hI hc, trivial⟩) hs hC).1

end Exec

end Prog

end PortableRuntime
