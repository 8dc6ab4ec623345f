import PortableRuntime.Python.Text

/-!
# Frozen sets of strings

The members in ascending order, so that equal sets are equal values and `sorted` is a
projection.
-/

namespace PortableRuntime

structure FrozenSet where
  items : List String
  ascending : items.Pairwise (· < ·) := by decide
deriving DecidableEq

namespace FrozenSet

def empty : FrozenSet where
  items := []

instance : Inhabited FrozenSet := ⟨empty⟩

theorem ext_items {s t : FrozenSet} (h : s.items = t.items) : s = t := by
  cases s
  cases t
  cases h
  rfl

/-- Frozen set of a list. -/
def ofList (values : List String) : FrozenSet where
  items := Text.sortedUnique values
  ascending := by
    have hsorted : (Text.sortedUnique values).Pairwise (· ≤ ·) := List.pairwise_insertionSort _ _
    have hnodup : (Text.sortedUnique values).Nodup :=
      (List.perm_insertionSort _ _).nodup_iff.mpr (List.nodup_dedup values)
    exact (hsorted.and hnodup).imp (fun h => Std.lt_of_le_of_ne h.1 h.2)

def isEmpty (s : FrozenSet) : Bool := s.items.isEmpty

def contains (s : FrozenSet) (item : String) : Bool := s.items.contains item

def isSubset (s t : FrozenSet) : Bool := s.items.all t.contains

end FrozenSet

namespace Text

/-- `repr` of a tuple, from those of its parts. -/
def pyReprTuple : List String → String
  | [part] => "(" ++ part ++ ",)"
  | parts => "(" ++ join ", " parts ++ ")"

end Text
end PortableRuntime
