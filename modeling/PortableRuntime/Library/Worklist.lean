import Mathlib.Logic.Relation
import PortableRuntime.Library.Dict

/-
A search with a worklist.

The node at the front of the queue is taken off and its neighbours are gone through in order.
One that has been seen is passed over, and so is one that does not resolve; any other one is
found, marked as seen and queued.  Over finitely many neighbours the queue runs empty
(`queue_search`), and what has been found then is what can be reached (`get?_search`), in
whatever order the neighbours come.
-/

namespace PortableRuntime

structure Worklist (α β : Type) where
  queue : List α
  seen : List α
  found : Dict α β

namespace Worklist

variable {α β : Type}

def start (roots : List α) : Worklist α β := { queue := roots, seen := roots, found := .empty }

/-- One step leads to a neighbour that resolves. -/
def Step (next : α → List α) (resolve : α → Option β) (a b : α) : Prop :=
  b ∈ next a ∧ (resolve b).isSome = true

/-- A node is reached from the roots in one step or more. -/
def Reached (next : α → List α) (resolve : α → Option β) (roots : List α) (b : α) : Prop :=
  ∃ a ∈ roots, Relation.TransGen (Step next resolve) a b

section Paths

variable {next : α → List α} {resolve : α → Option β} {roots : List α}

/-- The end of a path resolves, and the node before it is a root or is reached as well. -/
theorem Reached.last {b : α} (h : Reached next resolve roots b) :
    ∃ a, (a ∈ roots ∨ Reached next resolve roots a) ∧ Step next resolve a b := by
  obtain ⟨root, hroot, hpath⟩ := h
  cases hpath with
  | single hstep => exact ⟨root, .inl hroot, hstep⟩
  | tail hpath hstep => exact ⟨_, .inr ⟨root, hroot, hpath⟩, hstep⟩

theorem Reached.resolves {b : α} (h : Reached next resolve roots b) : (resolve b).isSome = true := by
  obtain ⟨a, -, hstep⟩ := h.last
  exact hstep.2

end Paths

variable [DecidableEq α]

def visit (resolve : α → Option β) (w : Worklist α β) (a : α) : Worklist α β :=
  if a ∈ w.seen then w
  else match resolve a with
    | none => w
    | some v => { queue := w.queue ++ [a], seen := a :: w.seen, found := w.found.set a v }

/-- The search, which takes at most `fuel` nodes off the queue. -/
def search (next : α → List α) (resolve : α → Option β) : Nat → Worklist α β → Worklist α β
  | 0, w => w
  | fuel + 1, w => match w.queue with
    | [] => w
    | a :: rest => search next resolve fuel ((next a).foldl (visit resolve) { w with queue := rest })

variable {next : α → List α} {resolve : α → Option β} {roots : List α} {w : Worklist α β}

/-! ## One neighbour -/

theorem visit_of_seen {a : α} (h : a ∈ w.seen) : w.visit resolve a = w := if_pos h

theorem visit_of_none {a : α} (h : resolve a = none) : w.visit resolve a = w := by
  by_cases ha : a ∈ w.seen
  · exact visit_of_seen ha
  · simp only [visit, if_neg ha, h]

theorem visit_of_some {a : α} {v : β} (ha : a ∉ w.seen) (h : resolve a = some v) :
    w.visit resolve a =
      { queue := w.queue ++ [a], seen := a :: w.seen, found := w.found.set a v } := by
  simp only [visit, if_neg ha, h]

/-- What a visit can do. -/
theorem visit_cases (resolve : α → Option β) (w : Worklist α β) (a : α) :
    (w.visit resolve a = w ∧ ((resolve a).isSome = true → a ∈ w.seen)) ∨
    ∃ v, a ∉ w.seen ∧ resolve a = some v ∧ w.visit resolve a =
      { queue := w.queue ++ [a], seen := a :: w.seen, found := w.found.set a v } := by
  by_cases ha : a ∈ w.seen
  · exact .inl ⟨visit_of_seen ha, fun _ => ha⟩
  · cases h : resolve a with
    | none => exact .inl ⟨visit_of_none h, fun hsome => absurd hsome (by simp)⟩
    | some v => exact .inr ⟨v, ha, rfl, visit_of_some ha h⟩

/-! ## The neighbours of a node -/

theorem seen_visits (l : List α) {a : α} (h : a ∈ w.seen) :
    a ∈ (l.foldl (visit resolve) w).seen := by
  induction l generalizing w with
  | nil => exact h
  | cons b rest ih =>
    apply ih
    rcases visit_cases resolve w b with ⟨hsame, -⟩ | ⟨v, -, -, hnew⟩
    · rw [hsame]
      exact h
    · rw [hnew]
      exact List.mem_cons_of_mem b h

theorem queue_visits (l : List α) {a : α} (h : a ∈ w.queue) :
    a ∈ (l.foldl (visit resolve) w).queue := by
  induction l generalizing w with
  | nil => exact h
  | cons b rest ih =>
    apply ih
    rcases visit_cases resolve w b with ⟨hsame, -⟩ | ⟨v, -, -, hnew⟩
    · rw [hsame]
      exact h
    · rw [hnew]
      exact List.mem_append_left [b] h

/-- Every neighbour that resolves has been seen afterwards. -/
theorem mem_seen_visits {l : List α} {a : α} (ha : a ∈ l) (h : (resolve a).isSome = true) :
    a ∈ (l.foldl (visit resolve) w).seen := by
  induction l generalizing w with
  | nil => cases ha
  | cons b rest ih =>
    rcases List.mem_cons.mp ha with rfl | hrest
    · have hvisited : a ∈ (w.visit resolve a).seen := by
        rcases visit_cases resolve w a with ⟨hsame, hseen⟩ | ⟨v, -, -, hnew⟩
        · rw [hsame]
          exact hseen h
        · rw [hnew]
          exact List.mem_cons_self
      exact seen_visits rest hvisited
    · exact ih hrest

/-- What is seen for the first time is queued. -/
theorem seen_or_queued {l : List α} {a : α} (h : a ∈ (l.foldl (visit resolve) w).seen) :
    a ∈ w.seen ∨ a ∈ (l.foldl (visit resolve) w).queue := by
  induction l generalizing w with
  | nil => exact .inl h
  | cons b rest ih =>
    rcases ih h with hseen | hqueued
    · rcases visit_cases resolve w b with ⟨hsame, -⟩ | ⟨v, -, -, hnew⟩
      · rw [hsame] at hseen
        exact .inl hseen
      · rw [hnew] at hseen
        rcases List.mem_cons.mp hseen with rfl | hold
        · refine .inr (queue_visits rest ?_)
          rw [hnew]
          exact List.mem_append_right w.queue (List.mem_singleton_self a)
        · exact .inl hold
    · exact .inr hqueued

/-! ## The invariants -/

/-- What has been found is what has been seen beyond the roots, and it has been reached. -/
structure Sound (next : α → List α) (resolve : α → Option β) (roots : List α)
    (w : Worklist α β) : Prop where
  rootsSeen : ∀ a ∈ roots, a ∈ w.seen
  queueSeen : ∀ a ∈ w.queue, a ∈ w.seen
  found : ∀ a v, w.found.get? a = some v ↔ (a ∈ w.seen ∧ a ∉ roots) ∧ resolve a = some v
  reached : ∀ a ∈ w.seen, a ∈ roots ∨ Reached next resolve roots a

/-- Every node that has left the queue has had its neighbours seen. -/
def Closed (next : α → List α) (resolve : α → Option β) (w : Worklist α β) : Prop :=
  ∀ a ∈ w.seen, a ∉ w.queue → ∀ b, Step next resolve a b → b ∈ w.seen

theorem sound_start : Sound next resolve roots (start roots) := by
  refine ⟨fun a h => h, fun a h => h, fun a v => ?_, fun a h => .inl h⟩
  show (Dict.empty : Dict α β).get? a = some v ↔ _
  rw [Dict.get?_empty]
  constructor
  · intro h
    cases h
  · intro h
    exact absurd h.1.1 h.1.2

omit [DecidableEq α] in
theorem closed_start : Closed next resolve (start roots) := fun _ h hqueue => absurd h hqueue

theorem Sound.visit (h : Sound next resolve roots w) {a : α}
    (ha : (resolve a).isSome = true → Reached next resolve roots a) :
    Sound next resolve roots (w.visit resolve a) := by
  rcases visit_cases resolve w a with ⟨hsame, -⟩ | ⟨v, hnew, hv, hvisit⟩
  · rw [hsame]
    exact h
  · rw [hvisit]
    have hroot : a ∉ roots := fun hroot => hnew (h.rootsSeen a hroot)
    refine ⟨fun b hb => List.mem_cons_of_mem a (h.rootsSeen b hb), ?_, ?_, ?_⟩
    · intro b hb
      rcases List.mem_append.mp hb with hb | hb
      · exact List.mem_cons_of_mem a (h.queueSeen b hb)
      · exact List.mem_cons.mpr (.inl (List.mem_singleton.mp hb))
    · intro b u
      show (w.found.set a v).get? b = some u ↔ (b ∈ a :: w.seen ∧ b ∉ roots) ∧ resolve b = some u
      by_cases hb : b = a
      · subst hb
        simp only [Dict.get?_set_self, hv, List.mem_cons_self, hroot, not_false_eq_true, and_self,
          true_and]
      · rw [Dict.get?_set_of_ne _ hb, h.found, List.mem_cons, or_iff_right hb]
    · intro b hb
      rcases List.mem_cons.mp hb with rfl | hb
      · exact .inr (ha (by rw [hv]; rfl))
      · exact h.reached b hb

theorem Sound.visits (h : Sound next resolve roots w) {l : List α}
    (hl : ∀ a ∈ l, (resolve a).isSome = true → Reached next resolve roots a) :
    Sound next resolve roots (l.foldl (Worklist.visit resolve) w) := by
  induction l generalizing w with
  | nil => exact h
  | cons a rest ih =>
    exact ih (h.visit (hl a List.mem_cons_self)) (fun b hb => hl b (List.mem_cons_of_mem a hb))

/-- A step from a node that has been seen reaches its end. -/
theorem Sound.reached_step (h : Sound next resolve roots w) {a b : α} (ha : a ∈ w.seen)
    (hstep : Step next resolve a b) : Reached next resolve roots b := by
  rcases h.reached a ha with hroot | ⟨root, hroot, hpath⟩
  · exact ⟨a, hroot, .single hstep⟩
  · exact ⟨root, hroot, hpath.tail hstep⟩

theorem Sound.advance (h : Sound next resolve roots w) {a : α} {rest : List α}
    (hqueue : w.queue = a :: rest) :
    Sound next resolve roots
      ((next a).foldl (Worklist.visit resolve) { w with queue := rest }) := by
  have hmem (b : α) (hb : b ∈ a :: rest) : b ∈ w.seen := h.queueSeen b (hqueue ▸ hb)
  have hrest : Sound next resolve roots { w with queue := rest } :=
    ⟨h.rootsSeen, fun b hb => hmem b (List.mem_cons_of_mem a hb), h.found, h.reached⟩
  apply hrest.visits
  intro b hb hresolved
  exact h.reached_step (hmem a List.mem_cons_self) ⟨hb, hresolved⟩

theorem Closed.advance (h : Closed next resolve w) {a : α} {rest : List α}
    (hqueue : w.queue = a :: rest) :
    Closed next resolve
      ((next a).foldl (Worklist.visit resolve) { w with queue := rest }) := by
  intro x hx hleft b hstep
  have hseen : x ∈ w.seen := by
    rcases seen_or_queued hx with hseen | hqueued
    · exact hseen
    · exact absurd hqueued hleft
  by_cases hxa : x = a
  · subst hxa
    exact mem_seen_visits hstep.1 hstep.2
  · have hx' : x ∉ w.queue := by
      intro hmem
      rw [hqueue] at hmem
      rcases List.mem_cons.mp hmem with heq | hrest
      · exact hxa heq
      · exact hleft (queue_visits (next a) hrest)
    exact seen_visits (next a) (h x hseen hx' b hstep)

theorem sound_search (fuel : Nat) (hsound : Sound next resolve roots w)
    (hclosed : Closed next resolve w) :
    Sound next resolve roots (search next resolve fuel w) ∧
      Closed next resolve (search next resolve fuel w) := by
  induction fuel generalizing w with
  | zero => exact ⟨hsound, hclosed⟩
  | succ fuel ih =>
    cases hqueue : w.queue with
    | nil =>
      simp only [search, hqueue]
      exact ⟨hsound, hclosed⟩
    | cons a rest =>
      simp only [search, hqueue]
      exact ih (hsound.advance hqueue) (hclosed.advance hqueue)

/-! ## Termination -/

/-- The nodes of the queue, and those of `nodes` that may still join it. -/
def pending (nodes : List α) (w : Worklist α β) : Nat :=
  w.queue.length + (nodes.filter (· ∉ w.seen)).length

theorem pending_visit_le {nodes : List α} {a : α} (ha : a ∈ nodes) :
    pending nodes (w.visit resolve a) ≤ pending nodes w := by
  rcases visit_cases resolve w a with ⟨hsame, -⟩ | ⟨v, hnew, -, hvisit⟩
  · exact Nat.le_of_eq (by rw [hsame])
  · rw [hvisit]
    have hfilter : nodes.filter (· ∉ a :: w.seen) =
        (nodes.filter (· ∉ w.seen)).filter (· ≠ a) := by
      rw [List.filter_filter]
      apply List.filter_congr
      intro b _
      simp [not_or]
    have hlt : ((nodes.filter (· ∉ w.seen)).filter (· ≠ a)).length <
        (nodes.filter (· ∉ w.seen)).length := by
      apply List.length_filter_lt_length_iff_exists.mpr
      exact ⟨a, List.mem_filter.mpr ⟨ha, by simpa using hnew⟩, by simp⟩
    simp only [pending, hfilter, List.length_append, List.length_singleton]
    omega

theorem pending_visits_le {nodes l : List α} (hl : ∀ a ∈ l, a ∈ nodes) :
    pending nodes (l.foldl (visit resolve) w) ≤ pending nodes w := by
  induction l generalizing w with
  | nil => exact Nat.le_refl _
  | cons a rest ih =>
    apply Nat.le_trans (ih (fun b hb => hl b (List.mem_cons_of_mem a hb)))
    exact pending_visit_le (hl a List.mem_cons_self)

theorem queue_search {nodes : List α} (hnext : ∀ a, ∀ b ∈ next a, b ∈ nodes) {fuel : Nat}
    (hfuel : pending nodes w ≤ fuel) : (search next resolve fuel w).queue = [] := by
  induction fuel generalizing w with
  | zero =>
    have hlength : w.queue.length = 0 := by
      rw [pending] at hfuel
      omega
    exact List.length_eq_zero_iff.mp hlength
  | succ fuel ih =>
    cases hqueue : w.queue with
    | nil =>
      simp only [search, hqueue]
    | cons a rest =>
      simp only [search, hqueue]
      apply ih
      have hle : pending nodes ((next a).foldl (visit resolve) { w with queue := rest }) ≤
          pending nodes { w with queue := rest } := pending_visits_le (hnext a)
      simp only [pending, hqueue, List.length_cons] at hfuel hle ⊢
      omega

theorem pending_start (nodes : List α) :
    pending nodes (start roots : Worklist α β) ≤ roots.length + nodes.length := by
  have hfilter := List.length_filter_le (· ∉ (start roots : Worklist α β).seen) nodes
  exact Nat.add_le_add_left hfilter roots.length

/-! ## Exactness -/

/-- Where the queue is empty, everything that can be reached has been seen. -/
theorem seen_of_reached (hsound : Sound next resolve roots w) (hclosed : Closed next resolve w)
    (hdone : w.queue = []) {b : α} (h : Reached next resolve roots b) : b ∈ w.seen := by
  obtain ⟨root, hroot, hpath⟩ := h
  have hleft (a : α) : a ∉ w.queue := by
    rw [hdone]
    exact List.not_mem_nil
  induction hpath with
  | single hstep => exact hclosed root (hsound.rootsSeen root hroot) (hleft root) _ hstep
  | tail _ hstep ih => exact hclosed _ ih (hleft _) _ hstep

theorem get?_search {nodes : List α} (hnext : ∀ a, ∀ b ∈ next a, b ∈ nodes) {fuel : Nat}
    (hfuel : roots.length + nodes.length ≤ fuel) {a : α} {v : β} :
    (search next resolve fuel (start roots)).found.get? a = some v ↔
      (Reached next resolve roots a ∧ a ∉ roots) ∧ resolve a = some v := by
  obtain ⟨hsound, hclosed⟩ :=
    @sound_search α β _ next resolve roots (start roots) fuel sound_start closed_start
  have hdone : (search next resolve fuel (start roots)).queue = [] :=
    queue_search hnext (Nat.le_trans (pending_start nodes) hfuel)
  rw [hsound.found]
  constructor
  · intro h
    refine ⟨⟨?_, h.1.2⟩, h.2⟩
    exact (hsound.reached a h.1.1).resolve_left h.1.2
  · intro h
    exact ⟨⟨seen_of_reached hsound hclosed hdone h.1.1, h.1.2⟩, h.2⟩

end Worklist

end PortableRuntime
