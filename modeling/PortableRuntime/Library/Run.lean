/-
Runs of a deterministic step function under conditions on its steps.

`Along step C s ops` says that each operation of `ops` meets `C` in the state in
which the run takes it.  An invariant that every conditioned step keeps holds at
the end of every such run (`run_invariant`; `run_preserves` when the steps need no
condition), and a preorder that every conditioned
step follows relates the two ends of the run (`run_related`).  Steps may emit values;
`emitted` is the log of them, and `emitted_invariant` relates the log to the state.
-/

namespace PortableRuntime

section Run

variable {σ ω : Type} (step : σ → ω → σ)

def run (s : σ) (ops : List ω) : σ := ops.foldl step s

def Along (C : σ → ω → Prop) : σ → List ω → Prop
  | _, [] => True
  | s, op :: rest => C s op ∧ Along C (step s op) rest

variable {step}

@[simp] theorem run_nil (s : σ) : run step s [] = s := rfl

@[simp] theorem run_cons (s : σ) (op : ω) (rest : List ω) :
    run step s (op :: rest) = run step (step s op) rest := rfl

theorem run_append (s : σ) (a b : List ω) : run step s (a ++ b) = run step (run step s a) b :=
  List.foldl_append

theorem along_append {C : σ → ω → Prop} {s : σ} {a b : List ω} :
    Along step C s (a ++ b) ↔ Along step C s a ∧ Along step C (run step s a) b := by
  induction a generalizing s with
  | nil => simp [Along]
  | cons op rest ih => simp only [List.cons_append, Along, ih, run_cons, and_assoc]

theorem Along.mono {C C' : σ → ω → Prop} {s : σ} {ops : List ω} (h : Along step C s ops)
    (hC : ∀ s op, C s op → C' s op) : Along step C' s ops := by
  induction ops generalizing s with
  | nil => trivial
  | cons op rest ih => exact ⟨hC s op h.1, ih h.2⟩

theorem along_and {C C' : σ → ω → Prop} {s : σ} {ops : List ω} :
    Along step (fun s op => C s op ∧ C' s op) s ops ↔ Along step C s ops ∧ Along step C' s ops := by
  induction ops generalizing s with
  | nil => simp [Along]
  | cons op rest ih =>
    simp only [Along, ih]
    exact and_and_and_comm

theorem along_true {s : σ} {ops : List ω} : Along step (fun _ _ => True) s ops := by
  induction ops generalizing s with
  | nil => trivial
  | cons op rest ih => exact ⟨trivial, ih⟩

theorem along_of_forall {C : σ → ω → Prop} (h : ∀ s op, C s op) {s : σ} {ops : List ω} :
    Along step C s ops :=
  along_true.mono (fun s op _ => h s op)

/-- A condition along a run is the condition at the end of each of its proper prefixes. -/
theorem along_iff_forall_step {C : σ → ω → Prop} {s : σ} {ops : List ω} :
    Along step C s ops ↔ ∀ pre op, pre ++ [op] <+: ops → C (run step s pre) op := by
  induction ops generalizing s with
  | nil => exact iff_of_true trivial (fun pre op h => absurd (List.prefix_nil.mp h) (by simp))
  | cons first rest ih =>
    constructor
    · rintro ⟨hfirst, hrest⟩ pre op hpre
      cases pre with
      | nil =>
        obtain ⟨rfl, -⟩ := List.cons_prefix_cons.mp hpre
        exact hfirst
      | cons op' pre =>
        obtain ⟨rfl, hpre'⟩ := List.cons_prefix_cons.mp hpre
        exact ih.mp hrest pre op hpre'
    · intro h
      refine ⟨h [] first (List.cons_prefix_cons.mpr ⟨rfl, List.nil_prefix⟩), ih.mpr ?_⟩
      intro pre op hpre
      exact h (first :: pre) op (List.cons_prefix_cons.mpr ⟨rfl, hpre⟩)

theorem run_invariant {C : σ → ω → Prop} {I : σ → Prop}
    (hstep : ∀ s op, I s → C s op → I (step s op)) {s : σ} {ops : List ω}
    (hs : I s) (hC : Along step C s ops) : I (run step s ops) := by
  induction ops generalizing s with
  | nil => exact hs
  | cons op rest ih => exact ih (hstep s op hs hC.1) hC.2

theorem run_preserves {I : σ → Prop} (hstep : ∀ s op, I s → I (step s op)) {s : σ} {ops : List ω}
    (hs : I s) : I (run step s ops) := by
  induction ops generalizing s with
  | nil => exact hs
  | cons op rest ih => exact ih (hstep s op hs)

theorem run_related {C : σ → ω → Prop} {I : σ → Prop} {R : σ → σ → Prop}
    (hrefl : ∀ s, R s s) (htrans : ∀ a b c, R a b → R b c → R a c)
    (hinv : ∀ s op, I s → C s op → I (step s op))
    (hstep : ∀ s op, I s → C s op → R s (step s op)) {s : σ} {ops : List ω}
    (hs : I s) (hC : Along step C s ops) : R s (run step s ops) := by
  induction ops generalizing s with
  | nil => exact hrefl s
  | cons op rest ih =>
    exact htrans _ _ _ (hstep s op hs hC.1) (ih (hinv s op hs hC.1) hC.2)

/-- A property that holds wherever an invariant does, and that a step from the invariant
keeps only under the condition that keeps the invariant, holds all along a run exactly when
every step meets the condition. -/
theorem property_iff_along {C : σ → ω → Prop} {I J : σ → Prop} (hproperty : ∀ s, I s → J s)
    (hneeds : ∀ s op, I s → J (step s op) → C s op)
    (hkeeps : ∀ s op, I s → C s op → I (step s op)) {s : σ} {ops : List ω} (hs : I s) :
    (∀ pre, pre <+: ops → J (run step s pre)) ↔ Along step C s ops := by
  induction ops generalizing s with
  | nil =>
    refine iff_of_true (fun pre hpre => ?_) trivial
    rw [List.prefix_nil.mp hpre]
    exact hproperty s hs
  | cons op rest ih =>
    constructor
    · intro h
      have hop : C s op :=
        hneeds s op hs (h [op] (List.cons_prefix_cons.mpr ⟨rfl, List.nil_prefix⟩))
      refine ⟨hop, (ih (hkeeps s op hs hop)).mp (fun pre hpre => ?_)⟩
      exact h (op :: pre) (List.cons_prefix_cons.mpr ⟨rfl, hpre⟩)
    · rintro ⟨hop, halong⟩ pre hpre
      cases pre with
      | nil => exact hproperty s hs
      | cons op' pre =>
        obtain ⟨rfl, hpre'⟩ := List.cons_prefix_cons.mp hpre
        exact (ih (hkeeps s op' hs hop)).mpr halong pre hpre'

/-- An invariant that a step keeps exactly under its condition holds all along a run
exactly when every step meets the condition. -/
theorem always_iff_along {C : σ → ω → Prop} {I : σ → Prop}
    (hstep : ∀ s op, I s → (I (step s op) ↔ C s op)) {s : σ} {ops : List ω} :
    (∀ pre, pre <+: ops → I (run step s pre)) ↔ I s ∧ Along step C s ops := by
  have halong (hs : I s) :
      (∀ pre, pre <+: ops → I (run step s pre)) ↔ Along step C s ops :=
    property_iff_along (fun _ h => h) (fun s op h => (hstep s op h).mp)
      (fun s op h => (hstep s op h).mpr) hs
  constructor
  · intro h
    have hs : I s := h [] List.nil_prefix
    exact ⟨hs, (halong hs).mp h⟩
  · rintro ⟨hs, hconditions⟩
    exact (halong hs).mpr hconditions

/-- Two conditions that agree wherever an invariant holds ask the same of a run. -/
theorem along_iff_along {C C' : σ → ω → Prop} {I : σ → Prop}
    (hinv : ∀ s op, I s → I (step s op)) (hC : ∀ s op, I s → (C s op ↔ C' s op))
    {s : σ} {ops : List ω} (hs : I s) : Along step C s ops ↔ Along step C' s ops := by
  induction ops generalizing s with
  | nil => exact Iff.rfl
  | cons op rest ih => exact and_congr (hC s op hs) (ih (hinv s op hs))

end Run

/-- Where an invariant holds, a condition on the steps that gives a property of the steps, and
is needed for it, gives it along a run. -/
theorem along_iff_along_of_kept {σ ω : Type} {step : σ → ω → σ} {J C : σ → ω → Prop}
    {I : σ → Prop} (hneeds : ∀ s op, J s op → C s op) (hgives : ∀ s op, I s → C s op → J s op)
    (hkeeps : ∀ s op, I s → C s op → I (step s op)) {s : σ} {ops : List ω} (hs : I s) :
    Along step J s ops ↔ Along step C s ops := by
  constructor
  · intro h
    exact h.mono hneeds
  · intro h
    induction ops generalizing s with
    | nil => trivial
    | cons op rest ih => exact ⟨hgives s op hs h.1, ih (hkeeps s op hs h.1) h.2⟩

section Emitted

variable {σ ω α : Type} (step : σ → ω → σ) (emit : σ → ω → Option α)

def emitted : σ → List ω → List α
  | _, [] => []
  | s, op :: rest => (emit s op).toList ++ emitted (step s op) rest

variable {step} {emit}

theorem emitted_append {s : σ} {a b : List ω} :
    emitted step emit s (a ++ b) =
      emitted step emit s a ++ emitted step emit (run step s a) b := by
  induction a generalizing s with
  | nil => rfl
  | cons op rest ih => rw [List.cons_append, emitted, emitted, ih, run_cons, List.append_assoc]

/-- What relates the log of a run to its state, once every conditioned step keeps it. -/
theorem emitted_invariant_along {C : σ → ω → Prop} {J : List α → σ → Prop}
    (hstep : ∀ log s op, J log s → C s op → J (log ++ (emit s op).toList) (step s op))
    {log : List α} {s : σ} {ops : List ω} (h : J log s) (hC : Along step C s ops) :
    J (log ++ emitted step emit s ops) (run step s ops) := by
  induction ops generalizing log s with
  | nil => simpa [emitted] using h
  | cons op rest ih =>
    rw [emitted, ← List.append_assoc, run_cons]
    exact ih (hstep log s op h hC.1) hC.2

theorem emitted_invariant {J : List α → σ → Prop}
    (hstep : ∀ log s op, J log s → J (log ++ (emit s op).toList) (step s op))
    {log : List α} {s : σ} {ops : List ω} (h : J log s) :
    J (log ++ emitted step emit s ops) (run step s ops) :=
  emitted_invariant_along (fun log s op hJ _ => hstep log s op hJ) h along_true

/-- Two machines that agree on what they emit, and stay related as they step, emit the same along
every run. -/
theorem emitted_eq_of_related {σ' : Type} {step' : σ' → ω → σ'} {emit' : σ' → ω → Option α}
    {R : σ → σ' → Prop} (hemit : ∀ s s' op, R s s' → emit s op = emit' s' op)
    (hstep : ∀ s s' op, R s s' → R (step s op) (step' s' op)) {s : σ} {s' : σ'} {ops : List ω}
    (h : R s s') :
    emitted step emit s ops = emitted step' emit' s' ops ∧ R (run step s ops) (run step' s' ops) := by
  induction ops generalizing s s' with
  | nil => exact ⟨rfl, h⟩
  | cons op rest ih =>
    obtain ⟨hemitted, hrelated⟩ := ih (hstep s s' op h)
    exact ⟨by rw [emitted, emitted, hemit s s' op h, hemitted], hrelated⟩

/-- What has been emitted stays past, and what is emitted later stands in a relation to
everything past. -/
theorem emitted_pairwise {C : σ → ω → Prop} {Past : α → σ → Prop} {r : α → α → Prop}
    (hpast : ∀ s op a, C s op → emit s op = some a → Past a (step s op))
    (hkeep : ∀ s op a, C s op → Past a s → Past a (step s op))
    (hlater : ∀ s op a b, C s op → Past a s → emit s op = some b → r a b)
    {s : σ} {ops : List ω} (hC : Along step C s ops) :
    (emitted step emit s ops).Pairwise r := by
  have hstep : ∀ (log : List α) s op, (log.Pairwise r ∧ ∀ a ∈ log, Past a s) → C s op →
      ((log ++ (emit s op).toList).Pairwise r ∧
        ∀ a ∈ log ++ (emit s op).toList, Past a (step s op)) := by
    intro log s op hlog hop
    cases hemit : emit s op with
    | none =>
      rw [Option.toList_none, List.append_nil]
      exact ⟨hlog.1, fun a ha => hkeep s op a hop (hlog.2 a ha)⟩
    | some b =>
      rw [Option.toList_some, List.pairwise_append]
      refine ⟨⟨hlog.1, List.pairwise_singleton r b, ?_⟩, ?_⟩
      · intro a ha b' hb'
        obtain rfl := List.mem_singleton.mp hb'
        exact hlater s op a b' hop (hlog.2 a ha) hemit
      · intro a ha
        rcases List.mem_append.mp ha with ha | ha
        · exact hkeep s op a hop (hlog.2 a ha)
        · obtain rfl := List.mem_singleton.mp ha
          exact hpast s op a hop hemit
  have hstart : ([] : List α).Pairwise r ∧ ∀ a ∈ ([] : List α), Past a s :=
    ⟨List.Pairwise.nil, fun a ha => (nomatch ha)⟩
  have hrun := emitted_invariant_along hstep hstart hC
  rw [List.nil_append] at hrun
  exact hrun.1

end Emitted

end PortableRuntime
