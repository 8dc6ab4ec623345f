import Mathlib.Data.List.Dedup
import PortableRuntime.Responsibility.Models

/-!
# Resource arithmetic

A vector has five fixed dimensions and one for each quota key; a key that is absent counts
as zero.  `amount` reads one dimension, and the operations on vectors are those on their
amounts: `plus` adds, `remaining` subtracts down to zero, `fitsWithin` compares.
-/

namespace PortableRuntime

inductive Dimension where
  | computeUnits | apiCalls | moneyMinor | humanAttentionUnits | concurrencySlots
  | domainQuota (key : String)
deriving Repr, DecidableEq

namespace ResourceVector

/-- `domain_quota.get(key, 0)`. -/
def quota (r : ResourceVector) (key : String) : Nat := (r.domainQuota.get? key).getD 0

def amount (r : ResourceVector) : Dimension → Nat
  | .computeUnits => r.computeUnits
  | .apiCalls => r.apiCalls
  | .moneyMinor => r.moneyMinor
  | .humanAttentionUnits => r.humanAttentionUnits
  | .concurrencySlots => r.concurrencySlots
  | .domainQuota key => r.quota key

def fitsWithin (r other : ResourceVector) : Bool :=
  if r.computeUnits > other.computeUnits || r.apiCalls > other.apiCalls ||
      r.moneyMinor > other.moneyMinor || r.humanAttentionUnits > other.humanAttentionUnits ||
      r.concurrencySlots > other.concurrencySlots then false
  else r.domainQuota.entries.all (fun e => e.2 ≤ other.quota e.1)

def plus (r other : ResourceVector) : ResourceVector :=
  { computeUnits := r.computeUnits + other.computeUnits
    apiCalls := r.apiCalls + other.apiCalls
    moneyMinor := r.moneyMinor + other.moneyMinor
    humanAttentionUnits := r.humanAttentionUnits + other.humanAttentionUnits
    concurrencySlots := r.concurrencySlots + other.concurrencySlots
    domainQuota := Dict.ofPairs ((r.domainQuota.keys ++ other.domainQuota.keys).dedup.map
      (fun key => (key, r.quota key + other.quota key))) }

/-- What `available_resources` answers of a capacity of which some is used: each difference
is cut off at zero, and only the quota keys of the capacity are listed. -/
def remaining (capacity used : ResourceVector) : ResourceVector :=
  { computeUnits := capacity.computeUnits - used.computeUnits
    apiCalls := capacity.apiCalls - used.apiCalls
    moneyMinor := capacity.moneyMinor - used.moneyMinor
    humanAttentionUnits := capacity.humanAttentionUnits - used.humanAttentionUnits
    concurrencySlots := capacity.concurrencySlots - used.concurrencySlots
    domainQuota := Dict.ofPairs (capacity.domainQuota.entries.map
      (fun e => (e.1, e.2 - used.quota e.1))) }

theorem quota_eq_zero {r : ResourceVector} {key : String} (h : key ∉ r.domainQuota.keys) :
    r.quota key = 0 := by
  rw [quota, Dict.get?_eq_none.mpr h]
  rfl

@[simp] theorem amount_empty (d : Dimension) : ({} : ResourceVector).amount d = 0 := by
  cases d <;> rfl

theorem quota_plus (r other : ResourceVector) (key : String) :
    (r.plus other).quota key = r.quota key + other.quota key := by
  have hnodup : ((r.domainQuota.keys ++ other.domainQuota.keys).dedup.map
      (fun key => (key, r.quota key + other.quota key)) |>.map Prod.fst).Nodup := by
    simpa [List.map_map, Function.comp_def] using List.nodup_dedup _
  by_cases hkey : key ∈ r.domainQuota.keys ++ other.domainQuota.keys
  · have hget : (r.plus other).domainQuota.get? key = some (r.quota key + other.quota key) := by
      refine (Dict.get?_ofPairs hnodup).mpr (List.mem_map.mpr ⟨key, ?_, rfl⟩)
      exact List.mem_dedup.mpr hkey
    rw [quota, hget]
    rfl
  · have hget : (r.plus other).domainQuota.get? key = none := by
      rw [Dict.get?_eq_none, Dict.keys, plus, Dict.entries_ofPairs hnodup]
      simpa [List.map_map, Function.comp_def] using hkey
    rw [List.mem_append, not_or] at hkey
    rw [quota, hget, quota_eq_zero hkey.1, quota_eq_zero hkey.2]
    rfl

theorem amount_plus (r other : ResourceVector) (d : Dimension) :
    (r.plus other).amount d = r.amount d + other.amount d := by
  cases d with
  | domainQuota key => exact quota_plus r other key
  | _ => rfl

theorem quota_remaining (capacity used : ResourceVector) (key : String) :
    (capacity.remaining used).quota key = capacity.quota key - used.quota key := by
  have hnodup : (capacity.domainQuota.entries.map (fun e => (e.1, e.2 - used.quota e.1))
      |>.map Prod.fst).Nodup := by
    simpa [List.map_map, Function.comp_def] using capacity.domainQuota.nodup
  cases hcap : capacity.domainQuota.get? key with
  | some n =>
    have hget : (capacity.remaining used).domainQuota.get? key = some (n - used.quota key) := by
      refine (Dict.get?_ofPairs hnodup).mpr (List.mem_map.mpr ⟨(key, n), ?_, rfl⟩)
      exact Dict.get?_eq_some.mp hcap
    simp [quota, hget, hcap]
  | none =>
    have hget : (capacity.remaining used).domainQuota.get? key = none := by
      rw [Dict.get?_eq_none, Dict.keys, remaining, Dict.entries_ofPairs hnodup]
      simpa [List.map_map, Function.comp_def, Dict.keys] using Dict.get?_eq_none.mp hcap
    simp [quota, hget, hcap]

theorem amount_remaining (capacity used : ResourceVector) (d : Dimension) :
    (capacity.remaining used).amount d = capacity.amount d - used.amount d := by
  cases d with
  | domainQuota key => exact quota_remaining capacity used key
  | _ => rfl

theorem fitsWithin_iff {r other : ResourceVector} :
    r.fitsWithin other = true ↔ ∀ d, r.amount d ≤ other.amount d := by
  have hquota : (r.domainQuota.entries.all (fun e => e.2 ≤ other.quota e.1)) = true ↔
      ∀ key, r.quota key ≤ other.quota key := by
    rw [List.all_eq_true]
    constructor
    · intro h key
      cases hget : r.domainQuota.get? key with
      | none => simp [quota, hget]
      | some n =>
        have hle := of_decide_eq_true (h (key, n) (Dict.get?_eq_some.mp hget))
        simpa [quota, hget] using hle
    · rintro h ⟨key, n⟩ he
      have hle := h key
      rw [quota, Dict.get?_eq_some.mpr he] at hle
      simpa using hle
  rw [fitsWithin]
  split
  · next hover =>
    simp only [Bool.or_eq_true, decide_eq_true_eq] at hover
    refine iff_of_false Bool.false_ne_true (fun h => ?_)
    have h1 := h .computeUnits
    have h2 := h .apiCalls
    have h3 := h .moneyMinor
    have h4 := h .humanAttentionUnits
    have h5 := h .concurrencySlots
    simp only [amount] at h1 h2 h3 h4 h5
    omega
  · next hunder =>
    simp only [Bool.or_eq_true, decide_eq_true_eq, not_or, not_lt, gt_iff_lt] at hunder
    rw [hquota]
    constructor
    · intro h d
      cases d with
      | domainQuota key => exact h key
      | computeUnits => exact hunder.1.1.1.1
      | apiCalls => exact hunder.1.1.1.2
      | moneyMinor => exact hunder.1.1.2
      | humanAttentionUnits => exact hunder.1.2
      | concurrencySlots => exact hunder.2
    · exact fun h key => h (.domainQuota key)

theorem amount_eq_of_beq {a b : ResourceVector} (h : (a == b) = true) (d : Dimension) :
    a.amount d = b.amount d := by
  have hfields : (a.computeUnits == b.computeUnits && (a.apiCalls == b.apiCalls &&
      (a.moneyMinor == b.moneyMinor && (a.humanAttentionUnits == b.humanAttentionUnits &&
      (a.concurrencySlots == b.concurrencySlots && a.domainQuota == b.domainQuota))))) = true := h
  simp only [Bool.and_eq_true, beq_iff_eq] at hfields
  obtain ⟨h1, h2, h3, h4, h5, hquota⟩ := hfields
  cases d with
  | computeUnits => exact h1
  | apiCalls => exact h2
  | moneyMinor => exact h3
  | humanAttentionUnits => exact h4
  | concurrencySlots => exact h5
  | domainQuota key =>
    show a.quota key = b.quota key
    rw [quota, quota, Dict.get?_eq_of_beq hquota]

end ResourceVector
end PortableRuntime
