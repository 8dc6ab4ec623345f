import PortableRuntime.Controller.StateLog

/-!
# Interleaved controller calls

A call of the controller runs in one piece, except that an invocation stops at its await and
is resumed later.  Calls that read the latest state extend its lineage; a resumed invocation
extends it exactly when its waiting state is still the latest.
-/

namespace PortableRuntime

structure ControllerRun where
  store : ControllerStore := {}
  pending : List PendingInvocation := []

/-- What happens between two awaits.  The provider answers or fails an invocation; the
responsibility kernel and other writers of Work act on the same store. -/
inductive ControllerMove where
  | create (seed : ControllerSeed) (fresh : FreshId) (now : Time)
  | apply (decision : ControllerDecision) (fresh : FreshId) (now : Time)
  | step (controllerId : String) (policy : ControllerPolicy) (fresh : FreshId) (now : Time)
  | reopenRequired (controllerId reason : String) (now : Time)
  | answered (i : Nat) (resultRef : String) (now : Time)
  | failed (i : Nat)
  | kernel (call : KernelCall)
  | saveWork (work : Work)

namespace ControllerRun

/-- The store after a decision, and the invocation that it left at its await. -/
def replied (r : ControllerRun) (outcome : ControllerStore × Result ControllerReply) :
    ControllerRun :=
  { store := outcome.1,
    pending := match outcome.2 with
      | .ok (.invoked p) => r.pending ++ [p]
      | _ => r.pending }

def step (ids : StableId) (r : ControllerRun) : ControllerMove → ControllerRun
  | .create seed fresh now =>
    match r.store.create seed fresh now with
    | .ok (s, _) => { r with store := s }
    | .error _ => r
  | .apply decision fresh now => r.replied (r.store.apply decision fresh now)
  | .step controllerId policy fresh now => r.replied (r.store.step controllerId policy fresh now)
  | .reopenRequired controllerId reason now =>
    match r.store.reopenRequired controllerId reason now with
    | .ok (s, _) => { r with store := s }
    | .error _ => r
  | .answered i resultRef now =>
    match r.pending[i]? with
    | some p => { store := (r.store.resume p resultRef now).1, pending := r.pending.eraseIdx i }
    | none => r
  | .failed i => { r with pending := r.pending.eraseIdx i }
  | .kernel call =>
    { r with
      store := { r.store with responsibilities := call.step ids r.store.responsibilities } }
  | .saveWork work =>
    { r with
      store := { r.store with responsibilities := r.store.responsibilities.putWork work } }

/-- No two recorded states of a controller have one version. -/
def VersionsOnce (r : ControllerRun) : Prop :=
  ∀ controllerId, ((r.store.stateLog controllerId).map (·.1.version)).Nodup

/-- Versions are used once, and each recorded state, those of reopenings among them, is
superseded only by one computed from it. -/
def Respected (r : ControllerRun) : Prop :=
  r.VersionsOnce ∧ ∀ controllerId (i : Nat) x y, (r.store.stateLog controllerId)[i]? = some x →
    (r.store.stateLog controllerId)[i + 1]? = some y → y.2 = some x.1

/-- An invocation is resumed while its waiting state is the latest one recorded. -/
def ResumesCurrent (r : ControllerRun) : ControllerMove → Prop
  | .answered i _ _ =>
    ∀ p, r.pending[i]? = some p → r.store.lastState p.waiting.id = some p.waiting
  | _ => True

end ControllerRun

namespace ControllerStore

/-! ## Lineages -/

/-- The versions count the states, and each state is computed from the one before it. -/
def Lineage (controllerId : String) (log : List Recorded) : Prop :=
  ∀ (i : Nat) entry, log[i]? = some entry → entry.1.id = controllerId ∧ entry.1.version = i ∧
    entry.2 = ((log.take i).getLast?).map Prod.fst

section Lineage

variable {controllerId : String} {log : List Recorded}

theorem Lineage.concat (h : Lineage controllerId log) {next : ControllerState}
    {computedFrom : Option ControllerState} (hid : next.id = controllerId)
    (hversion : next.version = log.length)
    (hfrom : computedFrom = (log.getLast?).map Prod.fst) :
    Lineage controllerId (log ++ [(next, computedFrom)]) := by
  intro i entry hentry
  rcases Nat.lt_or_ge i log.length with hlt | hge
  · rw [List.getElem?_append_left hlt] at hentry
    rw [List.take_append_of_le_length hlt.le]
    exact h i entry hentry
  · rw [List.getElem?_append_right hge, List.getElem?_eq_some_iff] at hentry
    obtain ⟨hlast, hget⟩ := hentry
    have hi : i = log.length := by
      simp only [List.length_singleton] at hlast
      omega
    obtain rfl : (next, computedFrom) = entry := by simpa using hget
    rw [hi, List.take_left]
    exact ⟨hid, hversion, hfrom⟩

theorem Lineage.versions (h : Lineage controllerId log) :
    log.map (·.1.version) = List.range log.length := by
  refine List.ext_getElem (by simp) (fun i hi _ => ?_)
  rw [List.length_map] at hi
  rw [List.getElem_map, List.getElem_range]
  exact (h i log[i] (List.getElem?_eq_getElem hi)).2.1

theorem Lineage.nodup (h : Lineage controllerId log) : (log.map (·.1.version)).Nodup := by
  rw [h.versions]
  exact List.nodup_range

theorem Lineage.adjacent (h : Lineage controllerId log) {i : Nat} {x y : Recorded}
    (hx : log[i]? = some x) (hy : log[i + 1]? = some y) : y.2 = some x.1 := by
  obtain ⟨hi, hget⟩ := List.getElem?_eq_some_iff.mp hx
  rw [(h (i + 1) y hy).2.2, List.take_add_one, hx]
  simp

/-- A state that no version exceeds is the last. -/
theorem Lineage.last_of_max (h : Lineage controllerId log) {state : ControllerState}
    {computedFrom : Option ControllerState} (hmem : (state, computedFrom) ∈ log)
    (hmax : ∀ entry ∈ log, entry.1.version ≤ state.version) :
    state.id = controllerId ∧ state.version + 1 = log.length ∧
      (log.getLast?).map Prod.fst = some state := by
  obtain ⟨i, hi⟩ := List.getElem?_of_mem hmem
  obtain ⟨hid, hversion, -⟩ := h i _ hi
  obtain ⟨hlt, hget⟩ := List.getElem?_eq_some_iff.mp hi
  obtain ⟨last, hlast⟩ : ∃ last, log[log.length - 1]? = some last :=
    ⟨_, List.getElem?_eq_getElem (by omega)⟩
  have hle := hmax _ (List.mem_of_getElem? hlast)
  have hlastVersion := (h _ _ hlast).2.1
  dsimp only at hversion hid
  have hindex : i = log.length - 1 := by omega
  refine ⟨hid, by omega, ?_⟩
  rw [List.getLast?_eq_getElem?, ← hindex, hi]
  rfl

theorem Lineage.length_of_last (h : Lineage controllerId log) {state : ControllerState}
    (hlast : (log.getLast?).map Prod.fst = some state) : state.version + 1 = log.length := by
  obtain ⟨entry, hentry, rfl⟩ := Option.map_eq_some_iff.mp hlast
  rw [List.getLast?_eq_getElem?] at hentry
  have hversion : entry.1.version = log.length - 1 := (h _ entry hentry).2.1
  obtain ⟨hlt, -⟩ := List.getElem?_eq_some_iff.mp hentry
  omega

/-- A state that is not the last is followed by one of the next version. -/
theorem Lineage.exists_next (h : Lineage controllerId log) {state : ControllerState}
    {computedFrom : Option ControllerState} (hmem : (state, computedFrom) ∈ log)
    (hlast : (log.getLast?).map Prod.fst ≠ some state) :
    state.version + 1 ∈ log.map (·.1.version) := by
  rw [h.versions, List.mem_range]
  obtain ⟨i, hi⟩ := List.getElem?_of_mem hmem
  have hversion : state.version = i := (h i _ hi).2.1
  obtain ⟨hlt, -⟩ := List.getElem?_eq_some_iff.mp hi
  by_contra hnone
  have hindex : i = log.length - 1 := by omega
  rw [List.getLast?_eq_getElem?, ← hindex, hi] at hlast
  exact hlast rfl

end Lineage

/-- The state that a call reads is the latest of its lineage. -/
theorem lastState_of_require {s : ControllerStore} {controllerId : String} {state : ControllerState}
    (hlineage : Lineage controllerId (s.stateLog controllerId))
    (h : s.require controllerId = .ok state) :
    state.id = controllerId ∧ s.lastState controllerId = some state := by
  obtain ⟨result, hget, hresult⟩ := Result.bind_eq_ok.mp h
  rw [orRaise_eq_ok.mp hresult] at hget
  obtain ⟨⟨computedFrom, hmem⟩, hmax⟩ := get_eq_some hget
  obtain ⟨hid, -, hlast⟩ := hlineage.last_of_max hmem hmax
  exact ⟨hid, hlast⟩

theorem requireCurrent_eq_ok {s : ControllerStore} {decision : ControllerDecision}
    {state : ControllerState} : s.requireCurrent decision = .ok state ↔
      s.require decision.controllerRef = .ok state ∧ decision.stateVersion = state.version ∧
        decision.kind ∈ allowed state := by
  constructor
  · intro h
    obtain ⟨state', hrequire, h⟩ := Result.bind_eq_ok.mp h
    obtain ⟨hversion, h⟩ := Result.check_eq_ok.mp h
    obtain ⟨hallowed, h⟩ := Result.check_eq_ok.mp h
    obtain rfl := Result.pure_eq_ok.mp h
    exact ⟨hrequire, of_decide_eq_true (guardValue_eq_ok.mp hversion),
      List.contains_iff_mem.mp (guardValue_eq_ok.mp hallowed)⟩
  · rintro ⟨hrequire, hversion, hallowed⟩
    refine Result.bind_eq_ok.mpr ⟨state, hrequire, ?_⟩
    refine Result.check_eq_ok.mpr ⟨guardValue_eq_ok.mpr (decide_eq_true hversion), ?_⟩
    exact Result.check_eq_ok.mpr ⟨guardValue_eq_ok.mpr (List.contains_iff_mem.mpr hallowed), rfl⟩

/-- A decision changes no log, or is accepted and records one state computed from the
latest. -/
theorem apply_cases (s : ControllerStore) (decision : ControllerDecision) (fresh : FreshId)
    (now : Time) :
    ((∃ e, (s.apply decision fresh now).2 = .error e) ∧
      ∀ controllerId, (s.apply decision fresh now).1.stateLog controllerId =
        s.stateLog controllerId) ∨
    ∃ state next reply, s.requireCurrent decision = .ok state ∧ NextOf decision next state ∧
      LogsOf (s.apply decision fresh now).1 s next (some state) ∧
      (s.apply decision fresh now).2 = .ok reply ∧
      (reply = .recorded next ∨ ∃ p : PendingInvocation, reply = .invoked p ∧ p.waiting = next ∧
        decision.kind = .invokeCapability) := by
  unfold apply
  cases hcurrent : s.requireCurrent decision with
  | error e => exact .inl ⟨⟨e, rfl⟩, fun _ => rfl⟩
  | ok state =>
    dsimp only
    cases hperform : (s.append now decision.controllerRef (.decision decision)).perform state
        decision fresh now with
    | error e => exact .inl ⟨⟨e, rfl⟩, fun _ => stateLog_append_of_none rfl⟩
    | ok p =>
      obtain ⟨next, hnext, hlogs, hreply⟩ := perform_records hperform
      exact .inr ⟨state, next, p.2, rfl, hnext, logsOf_append (fun _ => rfl) hlogs, rfl,
        hreply⟩

end ControllerStore

namespace ControllerRun

open ControllerStore

/-- The recorded states are lineages, and each pending invocation has recorded its waiting
state. -/
structure Sound (r : ControllerRun) : Prop where
  lineage : ∀ controllerId, Lineage controllerId (r.store.stateLog controllerId)
  waited : ∀ p ∈ r.pending, ∃ computedFrom,
    (p.waiting, computedFrom) ∈ r.store.stateLog p.waiting.id

theorem Sound.respected {r : ControllerRun} (h : Sound r) : r.Respected :=
  ⟨fun controllerId => (h.lineage controllerId).nodup,
    fun controllerId _ _ _ hx hy => (h.lineage controllerId).adjacent hx hy⟩

theorem Sound.empty : Sound {} where
  lineage _ i entry h := absurd h (by simp [stateLog])
  waited _ h := absurd h List.not_mem_nil

section Sound

variable {r : ControllerRun} {s' : ControllerStore} {pending : List PendingInvocation}

/-- Logs that do not change keep a run sound. -/
theorem Sound.unchanged (h : Sound r)
    (hlogs : ∀ controllerId, s'.stateLog controllerId = r.store.stateLog controllerId)
    (hpending : ∀ p ∈ pending, p ∈ r.pending) : Sound ⟨s', pending⟩ where
  lineage controllerId := (hlogs controllerId).symm ▸ h.lineage controllerId
  waited p hp := by
    rw [hlogs]
    exact h.waited p (hpending p hp)

/-- A state computed from the latest one keeps a run sound. -/
theorem Sound.record (h : Sound r) {next : ControllerState} {computedFrom : Option ControllerState}
    (hlogs : LogsOf s' r.store next computedFrom)
    (hversion : next.version = (r.store.stateLog next.id).length)
    (hfrom : computedFrom = r.store.lastState next.id)
    (hpending : ∀ p ∈ pending, p ∈ r.pending ∨ p.waiting = next) : Sound ⟨s', pending⟩ where
  lineage controllerId := by
    rw [hlogs controllerId]
    by_cases hid : next.id = controllerId
    · subst hid
      rw [if_pos rfl]
      exact (h.lineage next.id).concat rfl hversion hfrom
    · rw [if_neg hid]
      exact h.lineage controllerId
  waited p hp := by
    rw [hlogs]
    rcases hpending p hp with hold | rfl
    · obtain ⟨source, hmem⟩ := h.waited p hold
      refine ⟨source, ?_⟩
      split
      · exact List.mem_append_left _ hmem
      · exact hmem
    · exact ⟨computedFrom, by simp⟩

theorem Sound.computed (h : Sound r) {state next : ControllerState} {controllerId : String}
    (hrequire : r.store.require controllerId = .ok state) (hnext : ComputedFrom next state)
    (hlogs : LogsOf s' r.store next (some state))
    (hpending : ∀ p ∈ pending, p ∈ r.pending ∨ p.waiting = next) : Sound ⟨s', pending⟩ := by
  obtain ⟨hid, hlast⟩ := lastState_of_require (h.lineage controllerId) hrequire
  have hnextId : next.id = controllerId := hnext.id.trans hid
  refine h.record hlogs ?_ (by rw [hnextId, hlast]) hpending
  obtain ⟨result, hget, hresult⟩ := Result.bind_eq_ok.mp hrequire
  rw [orRaise_eq_ok.mp hresult] at hget
  obtain ⟨⟨computedFrom, hmem⟩, hmax⟩ := get_eq_some hget
  rw [hnext.version, hnextId]
  exact ((h.lineage controllerId).last_of_max hmem hmax).2.1

theorem Sound.replied (h : Sound r) (decision : ControllerDecision) (fresh : FreshId)
    (now : Time) : Sound (r.replied (r.store.apply decision fresh now)) := by
  rcases apply_cases r.store decision fresh now with ⟨⟨e, herror⟩, hlogs⟩ |
    ⟨state, next, reply, hcurrent, hnext, hlogs, hok, hreply⟩
  · refine h.unchanged hlogs (fun p hp => ?_)
    rwa [herror] at hp
  · have hrequire := (requireCurrent_eq_ok.mp hcurrent).1
    refine h.computed hrequire hnext.toComputedFrom hlogs (fun p hp => ?_)
    rw [hok] at hp
    rcases hreply with rfl | ⟨p', rfl, hwaiting, -⟩
    · exact .inl hp
    · rcases List.mem_append.mp hp with hold | hnew
      · exact .inl hold
      · rw [List.mem_singleton.mp hnew]
        exact .inr hwaiting

end Sound

theorem Sound.step {ids : StableId} {r : ControllerRun} {move : ControllerMove} (h : Sound r)
    (hcurrent : r.ResumesCurrent move) : Sound (r.step ids move) := by
  cases move with
  | create seed fresh now =>
    unfold ControllerRun.step
    dsimp only
    cases hcreate : r.store.create seed fresh now with
    | error e => exact h
    | ok p =>
      obtain ⟨existing, hget, hrest⟩ := Result.bind_eq_ok.mp hcreate
      obtain ⟨hnone, hrest⟩ := Result.check_eq_ok.mp hrest
      obtain rfl := Result.pure_eq_ok.mp hrest
      rw [guardValue_eq_ok, Option.isNone_iff_eq_none] at hnone
      subst hnone
      have hempty := get_eq_none hget
      refine h.record (logsOf_recordState _ none) ?_ ?_ (fun p hp => .inl hp)
      · rw [hempty]
        rfl
      · rw [lastState, hempty]
        rfl
  | apply decision fresh now => exact h.replied decision fresh now
  | step controllerId policy fresh now =>
    unfold ControllerRun.step ControllerStore.step
    dsimp only
    cases r.store.select controllerId policy with
    | error e => exact h.unchanged (fun _ => rfl) (fun p hp => hp)
    | ok decision => exact h.replied decision fresh now
  | reopenRequired controllerId reason now =>
    unfold ControllerRun.step
    dsimp only
    cases hreopen : r.store.reopenRequired controllerId reason now with
    | error e => exact h
    | ok p =>
      obtain ⟨state, hrequire, hrest⟩ := Result.bind_eq_ok.mp hreopen
      obtain rfl := Result.pure_eq_ok.mp hrest
      refine h.computed hrequire ?_ (logsOf_append (fun _ => rfl) (logsOf_recordState _ _))
        (fun p hp => .inl hp)
      exact ⟨rfl, rfl⟩
  | answered i resultRef now =>
    unfold ControllerRun.step
    dsimp only
    cases hp : r.pending[i]? with
    | none => exact h
    | some p =>
      have hlast := hcurrent p hp
      exact h.record (logsOf_append (fun _ => rfl) (logsOf_recordState _ _))
        ((h.lineage p.waiting.id).length_of_last hlast) hlast.symm
        (fun p' hp' => .inl (List.mem_of_mem_eraseIdx hp'))
  | failed i =>
    exact h.unchanged (fun _ => rfl) (fun p hp => List.mem_of_mem_eraseIdx hp)
  | kernel call => exact h.unchanged (fun _ => rfl) (fun p hp => hp)
  | saveWork work => exact h.unchanged (fun _ => rfl) (fun p hp => hp)

/-- A stale invocation records a version that is in the log. -/
theorem Sound.resumesCurrent {ids : StableId} {r : ControllerRun} {move : ControllerMove}
    (h : Sound r) (honce : (r.step ids move).VersionsOnce) : r.ResumesCurrent move := by
  cases move with
  | answered i resultRef now =>
    intro p hp
    obtain ⟨computedFrom, hmem⟩ := h.waited p (List.mem_of_getElem? hp)
    by_contra hstale
    have hnext := (h.lineage p.waiting.id).exists_next hmem hstale
    have hnodup := honce p.waiting.id
    unfold ControllerRun.step at hnodup
    dsimp only at hnodup
    rw [hp] at hnodup
    dsimp only at hnodup
    have hlogs : LogsOf (r.store.resume p resultRef now).1 r.store _ (some p.waiting) :=
      logsOf_append (fun _ => rfl) (logsOf_recordState _ _)
    rw [hlogs, if_pos rfl, List.map_append, List.nodup_append] at hnodup
    exact hnodup.2.2 _ hnext _ (by simp) rfl
  | _ => trivial

/-- In every run the versions of each controller are used once and its states superseded only
by states computed from them, as long as every invocation is resumed while its waiting state
is the latest; one that is not uses a version twice. -/
theorem versions_respected_iff (ids : StableId) (moves : List ControllerMove) :
    ((∀ pre, pre <+: moves → (run (ControllerRun.step ids) {} pre).Respected) ↔
      Along (ControllerRun.step ids) ResumesCurrent {} moves) ∧
    ((∀ pre, pre <+: moves → (run (ControllerRun.step ids) {} pre).VersionsOnce) ↔
      Along (ControllerRun.step ids) ResumesCurrent {} moves) := by
  constructor
  · exact property_iff_along (fun _ h => h.respected)
      (fun _ _ h hrespected => h.resumesCurrent hrespected.1)
      (fun _ _ h hcurrent => h.step hcurrent) Sound.empty
  · exact property_iff_along (fun _ h => h.respected.1)
      (fun _ _ h honce => h.resumesCurrent honce)
      (fun _ _ h hcurrent => h.step hcurrent) Sound.empty

end ControllerRun

namespace Listing

def invocation : ControllerDecision :=
  { id := "decision", controllerRef := "controller", stateVersion := 0, kind := .invokeCapability,
    capability := some "search" }

/-- Reopening is required while the invocation awaits its provider. -/
def overtaken : List ControllerMove :=
  [.create { controllerId := some "controller" } ⟨"fresh", Eq.refl true⟩ 0,
   .apply invocation ⟨"request", Eq.refl true⟩ 1,
   .reopenRequired "controller" "evidence changed" 2,
   .answered 0 "result" 3]

end Listing

namespace ControllerRun

/-- The answer records a second state of version 2, computed from the waiting state, and the
controller is open again. -/
theorem versions_reused_listing :
    ¬ (∀ pre, pre <+: Listing.overtaken →
      (run (ControllerRun.step Listing.ids) {} pre).Respected) ∧
    ((run (ControllerRun.step Listing.ids) {} Listing.overtaken).store.stateLog
      "controller").map (fun x => (x.1.version, x.1.status, x.2.map (·.version))) =
        [(0, .open, none), (1, .waiting, some 0), (2, .reopenRequired, some 1),
         (2, .open, some 1)] := by
  have hlog : ((run (ControllerRun.step Listing.ids) {} Listing.overtaken).store.stateLog
      "controller").map (fun x => (x.1.version, x.1.status, x.2.map (·.version))) =
        [(0, .open, none), (1, .waiting, some 0), (2, .reopenRequired, some 1),
         (2, .open, some 1)] := by decide
  refine ⟨fun h => ?_, hlog⟩
  have honce := (h Listing.overtaken (List.prefix_refl _)).1 "controller"
  have hversions : ((run (ControllerRun.step Listing.ids) {} Listing.overtaken).store.stateLog
      "controller").map (·.1.version) = [0, 1, 2, 2] := by
    have hmap := congrArg (List.map Prod.fst) hlog
    rw [List.map_map] at hmap
    exact hmap
  rw [hversions] at honce
  exact absurd honce (by decide)

end ControllerRun
end PortableRuntime
