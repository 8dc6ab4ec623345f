import Mathlib.Algebra.Order.BigOperators.Group.List
import Mathlib.Algebra.GroupWithZero.Nat
import Mathlib.Algebra.Order.Group.Nat
import PortableRuntime.Responsibility.Growth

/-!
# No overcommit

`heldAmount` is what the reservations held on a pool take of one dimension.  Releases and
the passing of time only lower it, and a reservation is admitted only into what it leaves of
the capacity.  The truncated subtraction of `available_resources` hides no overdraft,
because there is none to hide: that is the invariant `WithinCapacity`.
-/

namespace PortableRuntime
namespace ResponsibilityStore

def heldAmount (s : ResponsibilityStore) (poolId : String) (now : Time) (d : Dimension) : Nat :=
  ((s.heldReservations poolId now).map (·.resources.amount d)).sum

theorem amount_foldl_plus (vectors : List ResourceVector) (acc : ResourceVector) (d : Dimension) :
    (vectors.foldl ResourceVector.plus acc).amount d =
      acc.amount d + (vectors.map (·.amount d)).sum := by
  induction vectors generalizing acc with
  | nil => simp
  | cons v rest ih =>
    rw [List.foldl_cons, ih, ResourceVector.amount_plus, List.map_cons, List.sum_cons,
      Nat.add_assoc]

theorem availableResources_eq_ok {s : ResponsibilityStore} {poolId : String} {now : Time}
    {available : ResourceVector} (h : s.availableResources poolId now = .ok available) :
    ∃ pool, s.journalGet poolId = some (.pool pool) ∧
      ∀ d, available.amount d = pool.capacity.amount d - s.heldAmount poolId now d := by
  obtain ⟨pool, hpool, havailable⟩ := Result.bind_eq_ok.mp h
  rw [getPool_eq_ok] at hpool
  have hid : pool.id = poolId := id_of_journalGet hpool
  refine ⟨pool, hpool, fun d => ?_⟩
  rw [Result.pure_eq_ok] at havailable
  rw [← havailable, ResourceVector.amount_remaining, amount_foldl_plus, List.map_map, hid]
  simp [heldAmount, Function.comp_def]

/-! ## What time and each new object do to the held amount -/

section Held

variable {s : ResponsibilityStore} {poolId : String} {now now' : Time} {d : Dimension}

/-- A release or an expiry is not undone by the passing of time. -/
theorem reservationReleased_mono {r : ResourceReservation} (hle : now ≤ now')
    (h : s.reservationReleased r now = true) : s.reservationReleased r now' = true := by
  rw [reservationReleased, Bool.or_eq_true] at h ⊢
  refine h.imp_right (fun hexpired => ?_)
  rw [Option.any_eq_true] at hexpired ⊢
  obtain ⟨expiry, hsome, hdue⟩ := hexpired
  exact ⟨expiry, hsome, decide_eq_true ((of_decide_eq_true hdue).trans hle)⟩

theorem heldAmount_antitone (hle : now ≤ now') :
    s.heldAmount poolId now' d ≤ s.heldAmount poolId now d := by
  refine ((List.monotone_filter_right _ fun r hr => ?_).map _).sum_le_sum (fun _ _ => Nat.zero_le _)
  rw [Bool.and_eq_true, Bool.not_eq_true'] at hr ⊢
  refine ⟨hr.1, Bool.eq_false_iff.mpr (fun hreleased => ?_)⟩
  exact absurd (reservationReleased_mono hle hreleased) (Bool.eq_false_iff.mp hr.2)

theorem mem_list_record {v w : ResponsibilityObject} {objectType : String} {ref : Option String}
    (hfresh : s.journalGet v.id = none) (hw : w ∈ s.list objectType ref) :
    w ∈ (s.record v).list objectType ref := by
  rw [mem_list] at hw ⊢
  exact ⟨journalGet_record_of_some hfresh hw.1, hw.2⟩

/-- A released reservation stays released when the journal grows. -/
theorem reservationReleased_record {v : ResponsibilityObject} {r : ResourceReservation}
    (hfresh : s.journalGet v.id = none) (h : s.reservationReleased r now = true) :
    (s.record v).reservationReleased r now = true := by
  rw [reservationReleased, Bool.or_eq_true] at h ⊢
  refine h.imp_left (fun hreleased => ?_)
  rw [Bool.not_eq_true', List.isEmpty_eq_false_iff_exists_mem] at hreleased ⊢
  obtain ⟨release, hmem⟩ := hreleased
  rw [releases, List.mem_filter, listed, List.mem_filterMap] at hmem
  obtain ⟨⟨o, ho, hrelease⟩, hof⟩ := hmem
  refine ⟨release, ?_⟩
  rw [releases, List.mem_filter, listed, List.mem_filterMap]
  exact ⟨⟨o, mem_list_record hfresh ho, hrelease⟩, hof⟩

/-- What an object adds to the amount held on a pool. -/
def taken (poolId : String) (d : Dimension) : ResponsibilityObject → Nat
  | .reservation r => if r.resourcePoolRef = poolId then r.resources.amount d else 0
  | _ => 0

theorem listed_reservations_record {v : ResponsibilityObject} (hfresh : s.journalGet v.id = none) :
    ((s.record v).listed (·.asReservation) "ResourceReservation" none).Perm
      (s.listed (·.asReservation) "ResourceReservation" none ++ v.asReservation.toList) := by
  cases v with
  | reservation r =>
    exact listed_record_perm (v := .reservation r) hfresh rfl (by simp)
  | _ =>
    refine .of_eq ?_
    rw [listed_record_of_ne hfresh (.inl (by simp [ResponsibilityObject.typeName]))]
    exact (List.append_nil _).symm

theorem heldAmount_record_le {v : ResponsibilityObject} (hfresh : s.journalGet v.id = none) :
    (s.record v).heldAmount poolId now d ≤ s.heldAmount poolId now d + taken poolId d v := by
  -- Filtered by the releases of the store before, the new listing has the old reservations and `v`.
  have hheld : (s.record v).heldAmount poolId now d ≤
      ((((s.record v).listed (·.asReservation) "ResourceReservation" none).filter
        (fun r => r.resourcePoolRef = poolId && !s.reservationReleased r now)).map
          (·.resources.amount d)).sum := by
    refine ((List.monotone_filter_right _ fun r hr => ?_).map _).sum_le_sum
      (fun _ _ => Nat.zero_le _)
    rw [Bool.and_eq_true, Bool.not_eq_true'] at hr ⊢
    refine ⟨hr.1, Bool.eq_false_iff.mpr (fun hreleased => ?_)⟩
    exact absurd (reservationReleased_record hfresh hreleased) (Bool.eq_false_iff.mp hr.2)
  rw [(((listed_reservations_record hfresh).filter _).map _).sum_eq, List.filter_append,
    List.map_append, List.sum_append] at hheld
  refine hheld.trans (Nat.add_le_add_left ?_ _)
  cases v with
  | reservation r =>
    simp only [ResponsibilityObject.asReservation, Option.toList_some, taken]
    by_cases hpool : r.resourcePoolRef = poolId
    · cases hreleased : s.reservationReleased r now <;> simp [hpool, hreleased]
    · simp [hpool]
  | _ => exact Nat.le_refl 0

end Held

/-! ## The invariant -/

/-- At a time, what is held on each pool is within its capacity; and each reservation is on a
stored pool. -/
structure WithinCapacity (now : Time) (s : ResponsibilityStore) : Prop where
  held : ∀ pool, s.journalGet pool.id = some (.pool pool) →
    ∀ d, s.heldAmount pool.id now d ≤ pool.capacity.amount d
  stored : ∀ k r, s.journalGet k = some (.reservation r) →
    ∃ pool, s.journalGet r.resourcePoolRef = some (.pool pool)

theorem WithinCapacity.later {now now' : Time} {s : ResponsibilityStore}
    (h : WithinCapacity now s) (hle : now ≤ now') : WithinCapacity now' s where
  held pool hpool d := (heldAmount_antitone hle).trans (h.held pool hpool d)
  stored := h.stored

theorem WithinCapacity.empty (now : Time) : WithinCapacity now empty where
  held pool hpool := absurd hpool (by simp [journalGet, ResponsibilityStore.empty])
  stored k r hr := absurd hr (by simp [journalGet, ResponsibilityStore.empty])

/-- Nothing is held on a pool that is not stored. -/
theorem WithinCapacity.heldAmount_eq_zero {now : Time} {s : ResponsibilityStore} {poolId : String}
    (h : WithinCapacity now s) (hnone : s.journalGet poolId = none) (d : Dimension) :
    s.heldAmount poolId now d = 0 := by
  have hempty : s.heldReservations poolId now = [] := by
    rw [List.eq_nil_iff_forall_not_mem]
    intro r hr
    rw [heldReservations, List.mem_filter, listed, List.mem_filterMap] at hr
    obtain ⟨⟨o, ho, hasR⟩, hkeep⟩ := hr
    obtain rfl := ResponsibilityObject.asReservation_eq_some.mp hasR
    obtain ⟨pool, hpool⟩ := h.stored _ r (mem_list.mp ho).1
    rw [Bool.and_eq_true, decide_eq_true_eq] at hkeep
    rw [hkeep.1, hnone] at hpool
    exact absurd hpool (by simp)
  rw [heldAmount, hempty]
  rfl

/-- A reservation is admitted only into what is left of its pool. -/
theorem taken_le_remaining {now : Time} {call : KernelCall} {s : ResponsibilityStore}
    {v : ResponsibilityObject} {pool : ResourcePool} (hadmits : s.Admits call v)
    (hnow : ∀ n ∈ call.now?, n = now) (hpool : s.journalGet pool.id = some (.pool pool)) (d : Dimension) :
    taken pool.id d v ≤ pool.capacity.amount d - s.heldAmount pool.id now d := by
  cases v with
  | reservation r =>
    obtain ⟨t, proposal, available, rfl, -, -, havailable, hfits⟩ := hadmits
    obtain rfl : t = now := hnow t rfl
    obtain ⟨pool', hpool', hamount⟩ := availableResources_eq_ok havailable
    by_cases href : r.resourcePoolRef = pool.id
    · rw [href, hpool] at hpool'
      obtain rfl : pool = pool' := by simpa using hpool'
      have hle := ResourceVector.fitsWithin_iff.mp hfits d
      rw [hamount, href] at hle
      simpa [taken, href] using hle
    · simp [taken, href]
  | _ => exact Nat.zero_le _

theorem WithinCapacity.record {now : Time} {call : KernelCall} {s : ResponsibilityStore}
    {v : ResponsibilityObject} (h : WithinCapacity now s) (hfresh : s.journalGet v.id = none)
    (hadmits : s.Admits call v) (hnow : ∀ n ∈ call.now?, n = now) : WithinCapacity now (s.record v) where
  held pool hpool d := by
    have hle : (s.record v).heldAmount pool.id now d ≤
        s.heldAmount pool.id now d + taken pool.id d v := heldAmount_record_le hfresh
    rw [journalGet_record] at hpool
    split at hpool
    · next hid =>
      obtain rfl : v = .pool pool := by simpa using hpool
      have hzero : s.heldAmount pool.id now d = 0 := h.heldAmount_eq_zero hfresh d
      rw [hzero] at hle
      exact hle.trans (Nat.zero_le _)
    · have hheld := h.held pool hpool d
      have htaken := taken_le_remaining hadmits hnow hpool d
      omega
  stored k r hr := by
    rw [journalGet_record] at hr
    split at hr
    · obtain rfl : v = .reservation r := by simpa using hr
      obtain ⟨t, proposal, available, -, -, -, havailable, -⟩ := hadmits
      obtain ⟨pool, hpool, -⟩ := availableResources_eq_ok havailable
      exact ⟨pool, journalGet_record_of_some hfresh hpool⟩
    · obtain ⟨pool, hpool⟩ := h.stored k r hr
      exact ⟨pool, journalGet_record_of_some hfresh hpool⟩

theorem WithinCapacity.step {ids : StableId} {now : Time} {s : ResponsibilityStore}
    {call : KernelCall} (h : WithinCapacity now s) (hle : ∀ n ∈ call.now?, now ≤ n) :
    WithinCapacity (call.now?.getD now) (call.step ids s) := by
  refine step_induction ?_ ?_ (h.later ?_)
  · intro s work hs
    exact ⟨hs.held, hs.stored⟩
  · intro s v hs hfresh hadmits
    refine hs.record hfresh hadmits (fun n hn => ?_)
    rw [Option.mem_def.mp hn]
    rfl
  · cases hnow : call.now? with
    | none => exact le_refl now
    | some n => exact hle n hnow

theorem WithinCapacity.run {ids : StableId} {now last : Time} {s : ResponsibilityStore}
    {calls : List KernelCall} (h : WithinCapacity now s)
    (hnows : (now :: (calls.filterMap KernelCall.now? ++ [last])).Pairwise (· ≤ ·)) :
    WithinCapacity last (run (KernelCall.step ids) s calls) := by
  induction calls generalizing s now with
  | nil => exact h.later (List.rel_of_pairwise_cons hnows (by simp))
  | cons call rest ih =>
    have hstep : (∀ n ∈ call.now?, now ≤ n) →
        WithinCapacity (call.now?.getD now) (call.step ids s) := h.step
    cases hnow : call.now? with
    | none =>
      rw [hnow] at hstep
      refine ih (hstep (by simp)) ?_
      simpa [hnow] using hnows
    | some n =>
      rw [hnow] at hstep
      simp only [List.filterMap_cons, hnow, List.cons_append] at hnows
      refine ih (hstep fun n' hn' => ?_) (List.pairwise_cons.mp hnows).2
      obtain rfl := Option.mem_some_iff.mp hn'
      exact List.rel_of_pairwise_cons hnows List.mem_cons_self

/-- After any calls whose times do not decrease, and at any later time, the reservations of a
pool that are neither released nor expired take at most its capacity in every dimension. -/
theorem no_overcommit (ids : StableId) (calls : List KernelCall) (now : Time)
    (hnows : (calls.filterMap KernelCall.now? ++ [now]).Pairwise (· ≤ ·)) (pool : ResourcePool)
    (hpool : (PortableRuntime.run (KernelCall.step ids) empty calls).journalGet pool.id =
      some (.pool pool)) (d : Dimension) :
    (PortableRuntime.run (KernelCall.step ids) empty calls).heldAmount pool.id now d ≤
      pool.capacity.amount d := by
  have hwithin : WithinCapacity now (PortableRuntime.run (KernelCall.step ids) empty calls) := by
    cases hlist : calls.filterMap KernelCall.now? ++ [now] with
    | nil => exact absurd hlist (by simp)
    | cons first rest =>
      refine (WithinCapacity.empty first).run ?_
      rw [hlist] at hnows ⊢
      refine List.pairwise_cons.mpr ⟨fun n hn => ?_, hnows⟩
      rcases List.mem_cons.mp hn with rfl | hrest
      · exact le_refl n
      · exact List.rel_of_pairwise_cons hnows hrest
  exact hwithin.held pool hpool d

/-- The listing chain reserves its whole pool and no more. -/
theorem no_overcommit_listing :
    (Listing.committed.filterMap KernelCall.now? ++ [7]).Pairwise (· ≤ ·) ∧
    (PortableRuntime.run (KernelCall.step Listing.ids) empty Listing.committed).heldAmount
      "pool" 7 .apiCalls = 2 ∧
    (PortableRuntime.run (KernelCall.step Listing.ids) empty Listing.committed).heldAmount
      "pool" 7 .apiCalls ≤ 2 := by
  have hpool : (PortableRuntime.run (KernelCall.step Listing.ids) empty
      Listing.committed).getPool Listing.pool.id = .ok Listing.pool := by
    decide
  refine ⟨by decide, by decide, ?_⟩
  exact no_overcommit Listing.ids Listing.committed 7 (by decide) Listing.pool
    (getPool_eq_ok.mp hpool) .apiCalls

end ResponsibilityStore
end PortableRuntime
