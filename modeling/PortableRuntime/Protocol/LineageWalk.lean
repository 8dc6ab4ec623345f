import PortableRuntime.Library.Words
import PortableRuntime.Protocol.Reordering

/-!
# The walk over supersedes edges

The validator walks the lineage with two mutable sets, the nodes it is visiting and the nodes it
has visited, and turns back where it meets either.  The interpreter bounds how deep calls may nest:
the walk is given that depth and is lost where it is exceeded.
-/

namespace PortableRuntime

/-- `supersedes_graph`: the predecessors of each superseder, in the order of the relations. -/
def supersedesGraph (relations : List RecordRelation) (isLocal : String → Bool) :
    Dict String (List String) :=
  relations.foldl (fun graph r =>
    if r.relationType = .supersedes ∧ isLocal r.subjectRef ∧ isLocal r.objectRef then
      graph.set r.subjectRef ((graph.get? r.subjectRef).getD [] ++ [r.objectRef])
    else graph) .empty

/-- What `visit` reads and changes. -/
structure LineageWalk where
  visiting : List String := []
  visited : List String := []
  errors : List String := []

def cycleError (node : String) : String :=
  s!"supersedes lineage contains a cycle at {Text.pyRepr node}"

namespace LineageWalk

def visit (graph : Dict String (List String)) : Nat → LineageWalk → String → Option LineageWalk
  | 0, _, _ => none
  | depth + 1, w, node =>
    if node ∈ w.visiting then some { w with errors := w.errors ++ [cycleError node] }
    else if node ∈ w.visited then some w
    else do
      let w ← ((graph.get? node).getD []).foldlM (visit graph depth)
        { w with visiting := node :: w.visiting }
      return { w with visiting := w.visiting.erase node, visited := node :: w.visited }

end LineageWalk

/-- The errors of the walk, which starts at each superseder in turn. -/
def walkLineage (depth : Nat) (relations : List RecordRelation) (isLocal : String → Bool) :
    Option (List String) :=
  let graph := supersedesGraph relations isLocal
  (graph.keys.foldlM (LineageWalk.visit graph depth) {}).map LineageWalk.errors

/-! ## The graph and its edges -/

/-- The edges that a list of relations draws between local objects. -/
def supersedesEdges (relations : List RecordRelation) (isLocal : String → Bool) :
    List (String × String) :=
  (relations.filter (fun r =>
    r.relationType = .supersedes ∧ isLocal r.subjectRef ∧ isLocal r.objectRef)).map
    (fun r => (r.subjectRef, r.objectRef))

/-- An object supersedes another one: a relation says so, and both are local. -/
def Supersedes (relations : List RecordRelation) (isLocal : String → Bool) (a b : String) : Prop :=
  isLocal a = true ∧ isLocal b = true ∧
    ∃ r ∈ relations, r.relationType = .supersedes ∧ r.subjectRef = a ∧ r.objectRef = b

theorem edge_supersedesEdges (relations : List RecordRelation) (isLocal : String → Bool) :
    Lineage.Edge (supersedesEdges relations isLocal) = Supersedes relations isLocal := by
  funext a b
  apply propext
  rw [Lineage.Edge, supersedesEdges, List.mem_map]
  constructor
  · intro h
    obtain ⟨r, hr, heq⟩ := h
    obtain ⟨hmem, hr⟩ := List.mem_filter.mp hr
    obtain ⟨htype, hsubject, hobject⟩ := of_decide_eq_true hr
    obtain ⟨ha, hb⟩ := Prod.mk.inj heq
    exact ⟨ha ▸ hsubject, hb ▸ hobject, r, hmem, htype, ha, hb⟩
  · intro h
    obtain ⟨ha, hb, r, hmem, htype, hsubject, hobject⟩ := h
    refine ⟨r, List.mem_filter.mpr ⟨hmem, decide_eq_true ⟨htype, ?_, ?_⟩⟩, ?_⟩
    · rw [hsubject]
      exact ha
    · rw [hobject]
      exact hb
    · rw [hsubject, hobject]

theorem supersedesEdges_state (s : State) : supersedesEdges s.relations s.hasId = s.lineageEdges := by
  rw [supersedesEdges, State.lineageEdges, State.supersedes, List.filter_filter]
  refine congrArg (List.map _) (List.filter_congr fun r _ => ?_)
  simp only [Bool.decide_and, Bool.decide_eq_true, Bool.and_comm]

theorem length_supersedesEdges (relations : List RecordRelation) (isLocal : String → Bool) :
    (supersedesEdges relations isLocal).length ≤ relations.length := by
  rw [supersedesEdges, List.length_map]
  exact List.length_filter_le _ _

/-- Edges are put in one by one. -/
def addEdge (graph : Dict String (List String)) (e : String × String) : Dict String (List String) :=
  graph.set e.1 ((graph.get? e.1).getD [] ++ [e.2])

theorem supersedesGraph_eq (relations : List RecordRelation) (isLocal : String → Bool) :
    supersedesGraph relations isLocal = (supersedesEdges relations isLocal).foldl addEdge .empty := by
  rw [supersedesEdges, List.foldl_map, List.foldl_filter, supersedesGraph]
  simp only [addEdge, decide_eq_true_eq]

theorem successors_concat (edges : List (String × String)) (e : String × String) (node : String) :
    Lineage.successors (edges ++ [e]) node =
      if e.1 = node then Lineage.successors edges node ++ [e.2] else Lineage.successors edges node := by
  rw [Lineage.successors, List.filter_append, List.map_append]
  by_cases h : e.1 = node
  · rw [if_pos h, List.filter_singleton, decide_eq_true h]
    rfl
  · rw [if_neg h, List.filter_singleton, decide_eq_false h]
    exact List.append_nil _

/-- Under each node the graph lists the successors of it. -/
theorem get?_graph (edges : List (String × String)) (node : String) :
    ((edges.foldl addEdge .empty).get? node).getD [] = Lineage.successors edges node := by
  induction edges using List.reverseRecOn with
  | nil => rfl
  | append_singleton edges e ih =>
    rw [List.foldl_append, List.foldl_cons, List.foldl_nil, addEdge, Dict.get?_set,
      successors_concat]
    by_cases h : e.1 = node
    · rw [if_pos h.symm, if_pos h, Option.getD_some, h, ih]
    · rw [if_neg (Ne.symm h), if_neg h, ih]

/-- The nodes of the graph are the sources, in the order in which they come first. -/
theorem keys_graph (edges : List (String × String)) :
    (edges.foldl addEdge .empty).keys = keepFirst id [] (edges.map Prod.fst) := by
  induction edges using List.reverseRecOn with
  | nil => rfl
  | append_singleton edges e ih =>
    rw [List.foldl_append, List.foldl_cons, List.foldl_nil, addEdge, List.map_append,
      keepFirst_append, ← ih]
    by_cases h : e.1 ∈ (edges.foldl addEdge .empty).keys
    · simp [Dict.keys_set_of_mem h, keepFirst, h]
    · simp [Dict.keys_set_of_not_mem h, keepFirst, h]

/-! ## The walk with sets and the walk along a path -/

namespace LineageWalk

/-- The sets of a walk along a path, with the errors of what it has reported. -/
def of (path : List String) (st : List String × List String) : LineageWalk :=
  { visiting := path, visited := st.1, errors := st.2.map cycleError }

section Visit

variable {graph : Dict String (List String)} {edges : List (String × String)}

theorem foldlM_of {depth : Nat} {path l : List String}
    (h : ∀ st, ∀ p ∈ l, visit graph depth (of path st) p =
      some (of path (Lineage.visit edges depth path st p))) (st : List String × List String) :
    l.foldlM (visit graph depth) (of path st) =
      some (of path (l.foldl (Lineage.visit edges depth path) st)) := by
  induction l generalizing st with
  | nil => rfl
  | cons p rest ih =>
    rw [List.foldlM_cons, h st p List.mem_cons_self, List.foldl_cons]
    exact ih (fun st q hq => h st q (List.mem_cons_of_mem p hq)) _

/-- Where the depth does not run out, a call leaves the set of nodes under visit as it found it.
The nodes on the path are distinct sources, so no path is longer than the list of edges. -/
theorem visit_of (hgraph : ∀ node, (graph.get? node).getD [] = Lineage.successors edges node)
    (depth : Nat) : ∀ (path : List String) (st : List String × List String) (node : String),
      path.Nodup → path ⊆ edges.map Prod.fst → edges.length + 1 ≤ depth + path.length →
      visit graph depth (of path st) node = some (of path (Lineage.visit edges depth path st node)) := by
  induction depth with
  | zero =>
    intro path st node hnodup hsub hdepth
    have hlen : path.length ≤ (edges.map Prod.fst).length := (hnodup.subperm hsub).length_le
    rw [List.length_map] at hlen
    omega
  | succ depth ih =>
    intro path st node hnodup hsub hdepth
    by_cases hpath : node ∈ path
    · rw [visit, if_pos (show node ∈ (of path st).visiting from hpath), Lineage.visit, if_pos hpath]
      simp [of]
    · by_cases hdone : node ∈ st.1
      · rw [visit, if_neg (show ¬ node ∈ (of path st).visiting from hpath),
          if_pos (show node ∈ (of path st).visited from hdone), Lineage.visit, if_neg hpath,
          if_pos hdone]
      · rw [visit, if_neg (show ¬ node ∈ (of path st).visiting from hpath),
          if_neg (show ¬ node ∈ (of path st).visited from hdone), hgraph]
        have hfold : (Lineage.successors edges node).foldlM (visit graph depth) (of (node :: path) st) =
            some (of (node :: path)
              ((Lineage.successors edges node).foldl (Lineage.visit edges depth (node :: path)) st)) := by
          refine foldlM_of (fun st p hp => ih _ st p (List.nodup_cons.mpr ⟨hpath, hnodup⟩) ?_ ?_) st
          · have hsource := Lineage.source_of_edge (Lineage.mem_successors.mp hp)
            exact List.cons_subset.mpr ⟨hsource, hsub⟩
          · rw [List.length_cons]
            omega
        rw [show ({ of path st with visiting := node :: (of path st).visiting } : LineageWalk) =
          of (node :: path) st from rfl, hfold]
        simp [Lineage.visit, hpath, hdone, of]

/-- A call that does not exceed a depth does the same with more. -/
theorem visit_mono {depth depth' : Nat} (hle : depth ≤ depth') :
    ∀ {w w' : LineageWalk} {node : String},
      visit graph depth w node = some w' → visit graph depth' w node = some w' := by
  induction depth generalizing depth' with
  | zero =>
    intro w w' node h
    exact absurd h (by simp [visit])
  | succ depth ih =>
    intro w w' node h
    obtain ⟨more, rfl⟩ : ∃ more, depth' = more + 1 := ⟨depth' - 1, by omega⟩
    rw [visit] at h ⊢
    split_ifs at h ⊢
    · exact h
    · exact h
    · obtain ⟨v, hv, hw⟩ := Option.bind_eq_some_iff.mp h
      exact Option.bind_eq_some_iff.mpr ⟨v, foldlM_mono (ih (by omega)) hv, hw⟩

end Visit

end LineageWalk

/-! ## What the walk reports -/

/-- With enough depth the walk gives the errors of the validator. -/
theorem walkLineage_eq {relations : List RecordRelation} {isLocal : String → Bool} {depth : Nat}
    (hdepth : relations.length < depth) :
    walkLineage depth relations isLocal =
      let edges := supersedesEdges relations isLocal
      some ((Lineage.cycleNodes edges (keepFirst id [] (edges.map Prod.fst))).map cycleError) := by
  have hlength := length_supersedesEdges relations isLocal
  rw [walkLineage, supersedesGraph_eq]
  generalize supersedesEdges relations isLocal = edges at hlength
  have hwalk : ∀ roots : List String,
      roots.foldlM (LineageWalk.visit (edges.foldl addEdge .empty) (edges.length + 1)) {} =
        some (.of [] (roots.foldl (Lineage.visit edges (edges.length + 1) []) ([], []))) :=
    fun roots => LineageWalk.foldlM_of (fun st p _ => LineageWalk.visit_of (get?_graph edges)
      (edges.length + 1) [] st p List.nodup_nil (List.nil_subset _) (by simp)) ([], [])
  have hdeep := foldlM_mono (LineageWalk.visit_mono (show edges.length + 1 ≤ depth by omega))
    (hwalk (edges.foldl addEdge .empty).keys)
  show Option.map LineageWalk.errors _ = _
  rw [hdeep, keys_graph]
  rfl

theorem walkLineage_mono {relations : List RecordRelation} {isLocal : String → Bool}
    {depth depth' : Nat} (hle : depth ≤ depth') {errors : List String}
    (h : walkLineage depth relations isLocal = some errors) :
    walkLineage depth' relations isLocal = some errors := by
  obtain ⟨w, hw, rfl⟩ := Option.map_eq_some_iff.mp h
  exact Option.map_eq_some_iff.mpr ⟨w, foldlM_mono (LineageWalk.visit_mono hle) hw, rfl⟩

/-- The validator's errors on a state are those of the walk. -/
theorem walkLineage_state (s : State) {depth : Nat} (hdepth : s.relations.length < depth) :
    walkLineage depth s.relations s.hasId = some (lineageErrors s) := by
  rw [walkLineage_eq hdepth, supersedesEdges_state]
  rfl

/-- The walk returns wherever calls may nest deeper than there are relations, and whenever it
returns it reports a cycle if and only if there is one, each at a node that lies on a cycle. -/
theorem walkLineage_exact (relations : List RecordRelation) (isLocal : String → Bool) :
    ∃ errors,
      (∀ depth, relations.length < depth → walkLineage depth relations isLocal = some errors) ∧
      (∀ depth answer, walkLineage depth relations isLocal = some answer → answer = errors) ∧
      (errors ≠ [] ↔ ∃ node, Relation.TransGen (Supersedes relations isLocal) node node) ∧
      ∀ e ∈ errors, ∃ node, e = cycleError node ∧
        Relation.TransGen (Supersedes relations isLocal) node node := by
  have hedge := edge_supersedesEdges relations isLocal
  refine ⟨_, fun depth hdepth => walkLineage_eq hdepth, fun depth answer hanswer => ?_, ?_, ?_⟩
  · have hdeep := walkLineage_mono (Nat.le_max_left depth (relations.length + 1)) hanswer
    rw [walkLineage_eq (by omega)] at hdeep
    exact (Option.some.inj hdeep).symm
  · rw [ne_eq, List.map_eq_nil_iff,
      Lineage.cycleNodes_eq_nil fun a ha => mem_keepFirst_id.mpr ha, Lineage.Acyclic, hedge]
    exact not_forall_not
  · intro e he
    obtain ⟨node, hnode, rfl⟩ := List.mem_map.mp he
    exact ⟨node, rfl, hedge ▸ Lineage.mem_cycleNodes hnode⟩

end PortableRuntime
