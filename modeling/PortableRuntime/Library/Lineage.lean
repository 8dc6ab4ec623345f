import Mathlib.Data.List.Perm.Subperm
import Mathlib.Logic.Relation

/-
Depth-first cycle detection over a finite edge list.

`visit` walks the successors of a node, carrying the nodes on the current path,
the nodes already finished, and the nodes at which the walk met its own path.
The theorem this file exists for is `cycleNodes_eq_nil`: when every node with an
outgoing edge is a root, the walk reports nothing exactly when the edge relation
is acyclic.  The finished nodes are kept newest first, and `Finished` states that
this list is a topological order of what has been walked.
-/

namespace PortableRuntime
namespace Lineage

section Relation

variable {ν : Type}

def Edge (edges : List (ν × ν)) (a b : ν) : Prop := (a, b) ∈ edges

def Acyclic (edges : List (ν × ν)) : Prop :=
  ∀ x, ¬ Relation.TransGen (Edge edges) x x

theorem source_of_edge {edges : List (ν × ν)} {a b : ν} (h : Edge edges a b) :
    a ∈ edges.map Prod.fst := List.mem_map.mpr ⟨(a, b), h, rfl⟩

theorem source_of_transGen {edges : List (ν × ν)} {a b : ν}
    (h : Relation.TransGen (Edge edges) a b) : a ∈ edges.map Prod.fst := by
  obtain ⟨c, hac, -⟩ := Relation.TransGen.head'_iff.mp h
  exact source_of_edge hac

/-- Acyclicity reads the edges as a relation, so neither their order nor their
multiplicity matters, and fewer edges stay acyclic. -/
theorem Acyclic.mono {edges edges' : List (ν × ν)} (h : Acyclic edges) (hsub : edges' ⊆ edges) :
    Acyclic edges' := by
  have hle : Edge edges' ≤ Edge edges := fun _ _ he => hsub he
  exact fun x hx => h x (Relation.TransGen.mono hle x x hx)

/-- Along a path kept newest first, every older node reaches the newest. -/
theorem transGen_of_chain {edges : List (ν × ν)} {a x : ν} {l : List ν}
    (h : List.IsChain (fun b c => Edge edges c b) (a :: l)) (hx : x ∈ l) :
    Relation.TransGen (Edge edges) x a := by
  induction l generalizing a with
  | nil => exact absurd hx List.not_mem_nil
  | cons b l ih =>
    rw [List.isChain_cons_cons] at h
    rcases List.mem_cons.mp hx with rfl | hx
    · exact .single h.1
    · exact (ih h.2 hx).tail h.1

theorem foldl_reports {f : List ν × List ν → ν → List ν × List ν} {l : List ν} {P : ν → Prop}
    (h : ∀ st, ∀ p ∈ l, ∀ x ∈ (f st p).2, x ∈ st.2 ∨ P x) (st : List ν × List ν) :
    ∀ x ∈ (l.foldl f st).2, x ∈ st.2 ∨ P x := by
  induction l generalizing st with
  | nil => exact fun x hx => .inl hx
  | cons p rest ih =>
    intro x hx
    rcases ih (fun st q hq => h st q (List.mem_cons_of_mem p hq)) _ x hx with hx | hx
    · exact h st p List.mem_cons_self x hx
    · exact .inr hx

/-- A list of finished nodes, newest first: each node comes before all of its
successors. -/
inductive Finished (edges : List (ν × ν)) : List ν → Prop
  | nil : Finished edges []
  | cons {v : ν} {vs : List ν} : v ∉ vs → (∀ p, Edge edges v p → p ∈ vs) →
      Finished edges vs → Finished edges (v :: vs)

theorem Finished.closed {edges : List (ν × ν)} {vs : List ν} (h : Finished edges vs)
    {a b : ν} (ha : a ∈ vs) (hab : Relation.TransGen (Edge edges) a b) : b ∈ vs := by
  have step : ∀ {vs}, Finished edges vs → ∀ {a b}, a ∈ vs → Edge edges a b → b ∈ vs := by
    intro vs h
    induction h with
    | nil => intro a b ha; exact absurd ha List.not_mem_nil
    | cons _ hsucc _ ih =>
      intro a b ha hab
      rcases List.mem_cons.mp ha with rfl | ha
      · exact List.mem_cons_of_mem _ (hsucc b hab)
      · exact List.mem_cons_of_mem _ (ih ha hab)
  induction hab with
  | single hab => exact step h ha hab
  | tail _ hbc ih => exact step h ih hbc

theorem Finished.no_cycle {edges : List (ν × ν)} {vs : List ν} (h : Finished edges vs)
    {x : ν} (hx : x ∈ vs) : ¬ Relation.TransGen (Edge edges) x x := by
  induction h with
  | nil => exact absurd hx List.not_mem_nil
  | cons hnew hsucc hvs ih =>
    rcases List.mem_cons.mp hx with rfl | hx
    · intro hcyc
      obtain ⟨p, hxp, hpx⟩ := Relation.TransGen.head'_iff.mp hcyc
      have hp := hsucc p hxp
      rcases Relation.reflTransGen_iff_eq_or_transGen.mp hpx with heq | htrans
      · exact hnew (heq ▸ hp)
      · exact hnew (hvs.closed hp htrans)
    · exact ih hx

/-- What a silent walk does to the finished nodes: it puts new nodes in front,
none of them on the path. -/
structure Grown (edges : List (ν × ν)) (path before after : List ν) : Prop where
  finished : Finished edges after
  front : ∃ new, after = new ++ before ∧ ∀ x ∈ new, x ∉ path

theorem Grown.refl {edges : List (ν × ν)} {vs : List ν} (h : Finished edges vs) (path : List ν) :
    Grown edges path vs vs := ⟨h, [], rfl, fun _ hx => absurd hx List.not_mem_nil⟩

theorem Grown.trans {edges : List (ν × ν)} {path a b c : List ν}
    (hab : Grown edges path a b) (hbc : Grown edges path b c) : Grown edges path a c := by
  obtain ⟨-, new₁, rfl, h₁⟩ := hab
  obtain ⟨hfin, new₂, rfl, h₂⟩ := hbc
  refine ⟨hfin, new₂ ++ new₁, by rw [List.append_assoc], fun x hx => ?_⟩
  rcases List.mem_append.mp hx with hx | hx
  · exact h₂ x hx
  · exact h₁ x hx

theorem Grown.mem {edges : List (ν × ν)} {path a b : List ν} (h : Grown edges path a b)
    {x : ν} (hx : x ∈ a) : x ∈ b := by
  obtain ⟨-, new, rfl, -⟩ := h
  exact List.mem_append_right new hx

end Relation

section Walk

variable {ν : Type} [DecidableEq ν]

def successors (edges : List (ν × ν)) (node : ν) : List ν :=
  (edges.filter (fun e => e.1 = node)).map Prod.snd

/-- One call of the walk.  The first component of the state is the finished
nodes, the second the nodes where a cycle was met.  Fuel bounds the depth of the
path. -/
def visit (edges : List (ν × ν)) : Nat → List ν → List ν × List ν → ν → List ν × List ν
  | 0, _, st, _ => st
  | fuel + 1, path, st, node =>
    if node ∈ path then (st.1, st.2 ++ [node])
    else if node ∈ st.1 then st
    else
      let done := (successors edges node).foldl (visit edges fuel (node :: path)) st
      (node :: done.1, done.2)

/-- The cycle reports of the walk started at each root in turn.  A path repeats
no node and every node on it but the last has an outgoing edge, so the number of
edges bounds its length. -/
def cycleNodes (edges : List (ν × ν)) (roots : List ν) : List ν :=
  (roots.foldl (visit edges (edges.length + 1) []) ([], [])).2

theorem mem_successors {edges : List (ν × ν)} {node p : ν} :
    p ∈ successors edges node ↔ Edge edges node p := by
  simp [successors, Edge]

/-! ## Reports imply a cycle -/

/-- A node is reported where the path has come back to it. -/
theorem visit_reports {edges : List (ν × ν)} (fuel : Nat) :
    ∀ (path : List ν) (st : List ν × List ν) (node : ν),
      List.IsChain (fun b c => Edge edges c b) (node :: path) →
        ∀ x ∈ (visit edges fuel path st node).2, x ∈ st.2 ∨ Relation.TransGen (Edge edges) x x := by
  induction fuel with
  | zero => exact fun path st node _ x hx => .inl hx
  | succ fuel ih =>
    intro path st node hchain
    by_cases hpath : node ∈ path
    · rw [visit, if_pos hpath]
      intro x hx
      rcases List.mem_append.mp hx with hx | hx
      · exact .inl hx
      · rw [List.mem_singleton.mp hx]
        exact .inr (transGen_of_chain hchain hpath)
    · by_cases hdone : node ∈ st.1
      · simp only [visit, hpath, hdone, if_false, if_true]
        exact fun x hx => .inl hx
      · simp only [visit, hpath, hdone, if_false]
        refine foldl_reports (fun st p hp => ih _ st p ?_) st
        exact List.isChain_cons_cons.mpr ⟨mem_successors.mp hp, hchain⟩

theorem mem_cycleNodes {edges : List (ν × ν)} {roots : List ν} {x : ν}
    (hx : x ∈ cycleNodes edges roots) : Relation.TransGen (Edge edges) x x := by
  have hroots := foldl_reports (fun st p (_ : p ∈ roots) =>
    visit_reports (edges.length + 1) [] st p (List.IsChain.singleton p)) ([], []) x hx
  exact hroots.resolve_left List.not_mem_nil

/-! ## No report implies acyclic -/

theorem visit_reports_extend (edges : List (ν × ν)) (fuel : Nat) :
    ∀ (path : List ν) (st : List ν × List ν) (node : ν),
      st.2 <+: (visit edges fuel path st node).2 := by
  induction fuel with
  | zero => intro path st node; exact List.prefix_refl _
  | succ fuel ih =>
    intro path st node
    have hfold : ∀ (l : List ν) (st : List ν × List ν),
        st.2 <+: (l.foldl (visit edges fuel (node :: path)) st).2 := by
      intro l
      induction l with
      | nil => intro st; exact List.prefix_refl _
      | cons p rest ihl => intro st; exact (ih _ st p).trans (ihl _)
    by_cases hpath : node ∈ path
    · simp only [visit, hpath, if_true]
      exact List.prefix_append _ _
    · by_cases hdone : node ∈ st.1
      · simp only [visit, hpath, hdone, if_false, if_true]
        exact List.prefix_refl _
      · simp only [visit, hpath, hdone, if_false]
        exact hfold _ st

theorem foldl_visit_silent {edges : List (ν × ν)} {fuel : Nat} {path : List ν} {l : List ν}
    (hvisit : ∀ st p, p ∈ l → (visit edges fuel path st p).2 = [] → Finished edges st.1 →
      Grown edges path st.1 (visit edges fuel path st p).1 ∧
        p ∈ (visit edges fuel path st p).1) :
    ∀ st : List ν × List ν, (l.foldl (visit edges fuel path) st).2 = [] → Finished edges st.1 →
      Grown edges path st.1 (l.foldl (visit edges fuel path) st).1 ∧
        ∀ p ∈ l, p ∈ (l.foldl (visit edges fuel path) st).1 := by
  induction l with
  | nil => intro st _ hst; exact ⟨Grown.refl hst path, fun p hp => absurd hp List.not_mem_nil⟩
  | cons p rest ih =>
    intro st hsilent hst
    rw [List.foldl_cons] at hsilent ⊢
    have hprefix : (visit edges fuel path st p).2 <+:
        (rest.foldl (visit edges fuel path) (visit edges fuel path st p)).2 := by
      generalize visit edges fuel path st p = st'
      clear hsilent hvisit ih
      induction rest generalizing st' with
      | nil => exact List.prefix_refl _
      | cons q rest ihr => exact (visit_reports_extend edges fuel path st' q).trans (ihr _)
    have hp : (visit edges fuel path st p).2 = [] := by
      rw [hsilent] at hprefix
      exact List.prefix_nil.mp hprefix
    obtain ⟨hgrow, hmem⟩ := hvisit st p List.mem_cons_self hp hst
    obtain ⟨hgrow', hmem'⟩ :=
      ih (fun st q hq => hvisit st q (List.mem_cons_of_mem p hq)) _ hsilent hgrow.finished
    refine ⟨hgrow.trans hgrow', fun q hq => ?_⟩
    rcases List.mem_cons.mp hq with rfl | hq
    · exact hgrow'.mem hmem
    · exact hmem' q hq

/-- A silent call finishes its node.  The path is duplicate free and made of
sources, which is what keeps the fuel from running out. -/
theorem visit_silent {edges : List (ν × ν)} (fuel : Nat) :
    ∀ (path : List ν) (st : List ν × List ν) (node : ν),
      path.Nodup → path ⊆ edges.map Prod.fst → edges.length + 1 ≤ fuel + path.length →
      (visit edges fuel path st node).2 = [] → Finished edges st.1 →
        Grown edges path st.1 (visit edges fuel path st node).1 ∧
          node ∈ (visit edges fuel path st node).1 := by
  induction fuel with
  | zero =>
    intro path st node hnodup hsub hfuel _ _
    have hlen : path.length ≤ (edges.map Prod.fst).length := (hnodup.subperm hsub).length_le
    rw [List.length_map] at hlen
    omega
  | succ fuel ih =>
    intro path st node hnodup hsub hfuel hsilent hst
    by_cases hpath : node ∈ path
    · simp [visit, hpath] at hsilent
    · by_cases hdone : node ∈ st.1
      · rw [visit, if_neg hpath, if_pos hdone]
        exact ⟨Grown.refl hst path, hdone⟩
      · simp only [visit, hpath, hdone, if_false] at hsilent ⊢
        -- A successor exists whenever the recursion is entered, so `node` is a source.
        obtain ⟨hgrow, hmem⟩ := foldl_visit_silent (l := successors edges node)
          (fun st p hp hs hf => ih (node :: path) st p (List.nodup_cons.mpr ⟨hpath, hnodup⟩)
            (List.cons_subset.mpr ⟨source_of_edge (mem_successors.mp hp), hsub⟩)
            (by rw [List.length_cons]; omega) hs hf) st hsilent hst
        obtain ⟨hfin, new, hnew, hfresh⟩ := hgrow
        have hnot : node ∉ ((successors edges node).foldl
            (visit edges fuel (node :: path)) st).1 := by
          rw [hnew]
          intro hm
          rcases List.mem_append.mp hm with hm | hm
          · exact hfresh node hm List.mem_cons_self
          · exact hdone hm
        refine ⟨⟨.cons hnot (fun p hp => hmem p (mem_successors.mpr hp)) hfin,
          node :: new, by rw [hnew]; rfl, fun x hx => ?_⟩, List.mem_cons_self⟩
        rcases List.mem_cons.mp hx with rfl | hx
        · exact hpath
        · exact fun hp => hfresh x hx (List.mem_cons_of_mem node hp)

/-- The walk reports nothing exactly when the edges are acyclic, provided every
node with an outgoing edge is a root. -/
theorem cycleNodes_eq_nil {edges : List (ν × ν)} {roots : List ν}
    (hroots : edges.map Prod.fst ⊆ roots) :
    cycleNodes edges roots = [] ↔ Acyclic edges := by
  constructor
  · intro hsilent x hx
    obtain ⟨hgrow, hmem⟩ := @foldl_visit_silent ν _ edges (edges.length + 1) [] roots
      (fun st p _ hs hf => visit_silent (edges.length + 1) [] st p List.nodup_nil
        (List.nil_subset _) (by simp) hs hf) ([], []) hsilent .nil
    exact hgrow.finished.no_cycle (hmem x (hroots (source_of_transGen hx))) hx
  · intro hac
    exact List.eq_nil_iff_forall_not_mem.mpr fun x hx => hac x (mem_cycleNodes hx)

end Walk

end Lineage
end PortableRuntime
