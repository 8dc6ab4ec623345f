import Mathlib.Data.List.Dedup
import Mathlib.Data.List.DropRight
import Mathlib.Data.List.Sort

/-
The string operations of the language that the runtime's checks use.

Strings are compared and cut as lists of characters, so every definition here
reduces in the kernel.
-/

namespace PortableRuntime
namespace Text

/-- The characters `str.strip` removes and the pattern `\s` matches. -/
def isSpace (c : Char) : Bool :=
  let n := c.toNat
  (9 ≤ n && n ≤ 13) || (28 ≤ n && n ≤ 32) || n == 0x85 || n == 0xa0 || n == 0x1680 ||
    (0x2000 ≤ n && n ≤ 0x200a) || n == 0x2028 || n == 0x2029 || n == 0x202f ||
    n == 0x205f || n == 0x3000

def strip (s : String) : String :=
  String.ofList (((s.toList.dropWhile isSpace).reverse.dropWhile isSpace).reverse)

/-- The truth value of `s.strip()`. -/
def nonBlank (s : String) : Bool := s.toList.any (fun c => !isSpace c)

/-- The lower case of a letter of ASCII, Latin-1, Greek or Cyrillic and of the two letter-like
signs whose lower case is one of these, a final sigma not told apart.  Every other character,
the capitals of the other scripts among them, stands for itself. -/
def lowerChar (c : Char) : Char :=
  let n := c.toNat
  if 65 ≤ n && n ≤ 90 then Char.ofNat (n + 32)
  else if 0xc0 ≤ n && n ≤ 0xde && n != 0xd7 then Char.ofNat (n + 32)
  else if 0x391 ≤ n && n ≤ 0x3a9 && n != 0x3a2 then Char.ofNat (n + 32)
  else if 0x410 ≤ n && n ≤ 0x42f then Char.ofNat (n + 32)
  else if 0x400 ≤ n && n ≤ 0x40f then Char.ofNat (n + 80)
  else if n == 0x212a then 'k'
  else if n == 0x212b then 'å'
  else c

def lower (s : String) : String := String.ofList (s.toList.map lowerChar)

def startsWith (s p : String) : Bool := p.toList.isPrefixOf s.toList

def endsWith (s p : String) : Bool := p.toList.isSuffixOf s.toList

/-- `p in s`. -/
def hasInfix (s p : String) : Bool := s.toList.tails.any (fun t => p.toList.isPrefixOf t)

/-- `s[:-n]`. -/
def dropEnd (s : String) (n : Nat) : String :=
  String.ofList (s.toList.take (s.toList.length - n))

/-- `sep.join(parts)`. -/
def join (sep : String) : List String → String
  | [] => ""
  | [s] => s
  | s :: rest => s ++ sep ++ join sep rest

/-- `sorted(values)`. -/
def sorted (values : List String) : List String := values.insertionSort (· ≤ ·)

/-- `sorted(set(values))`. -/
def sortedUnique (values : List String) : List String := sorted values.dedup

theorem mem_sortedUnique {value : String} {values : List String} :
    value ∈ sortedUnique values ↔ value ∈ values := by
  rw [sortedUnique, sorted, List.mem_insertionSort, List.mem_dedup]

theorem sorted_perm {l l' : List String} (h : l.Perm l') : sorted l = sorted l' := by
  have hperm : (sorted l).Perm (sorted l') :=
    (List.perm_insertionSort _ l).trans (h.trans (List.perm_insertionSort _ l').symm)
  refine List.Perm.eq_of_pairwise (fun a b _ _ hab hba => String.le_antisymm hab hba) ?_ ?_ hperm
  · exact List.pairwise_insertionSort (· ≤ ·) l
  · exact List.pairwise_insertionSort (· ≤ ·) l'

/-- The sorted items of a list depend on which items it has. -/
theorem sortedUnique_of_mem_iff {l l' : List String} (h : ∀ value, value ∈ l ↔ value ∈ l') :
    sortedUnique l = sortedUnique l' := by
  refine sorted_perm ((List.perm_ext_iff_of_nodup (List.nodup_dedup l) (List.nodup_dedup l')).mpr ?_)
  intro value
  rw [List.mem_dedup, List.mem_dedup, h]

theorem any_dropWhile (p : Char → Bool) (l : List Char) :
    (l.dropWhile p).any (fun c => !p c) = l.any (fun c => !p c) := by
  induction l with
  | nil => rfl
  | cons c rest ih =>
    by_cases hc : p c = true
    · simpa [List.dropWhile_cons, hc] using ih
    · simp [hc]

theorem nonBlank_strip (s : String) : nonBlank (strip s) = nonBlank s := by
  rw [nonBlank, strip, String.toList_ofList, List.any_reverse, any_dropWhile, List.any_reverse,
    any_dropWhile]
  rfl

theorem strip_strip (s : String) : strip (strip s) = strip s := by
  have hstrip (s : String) :
      strip s = String.ofList ((s.toList.dropWhile isSpace).rdropWhile isSpace) := rfl
  rw [hstrip (strip s), hstrip s, String.toList_ofList]
  set cut := s.toList.dropWhile isSpace with hcut
  have hhead : (cut.rdropWhile isSpace).dropWhile isSpace = cut.rdropWhile isSpace := by
    rw [List.dropWhile_eq_self_iff]
    intro hlength hspace
    have hinitial := List.rdropWhile_prefix isSpace cut
    have hself : cut.dropWhile isSpace = cut := List.dropWhile_idempotent isSpace s.toList
    have hcutlength : 0 < cut.length := lt_of_lt_of_le hlength hinitial.length_le
    refine (List.dropWhile_eq_self_iff.mp hself) hcutlength ?_
    rw [← hspace]
    congr 1
    exact (hinitial.getElem hlength).symm
  rw [hhead, List.rdropWhile_idempotent]

theorem sortedUnique_idem (values : List String) :
    sortedUnique (sortedUnique values) = sortedUnique values := by
  have hnodup : (sortedUnique values).Nodup :=
    (List.perm_insertionSort _ _).nodup_iff.mpr (List.nodup_dedup values)
  show sorted (sortedUnique values).dedup = _
  rw [hnodup.dedup]
  exact List.Pairwise.insertionSort_eq (List.pairwise_insertionSort _ _)

/-- `sorted({ref.strip() for ref in refs if ref.strip()})`. -/
def normalized (refs : List String) : List String :=
  sortedUnique ((refs.filter nonBlank).map strip)

theorem mem_normalized {ref : String} {refs : List String} :
    ref ∈ normalized refs ↔ ∃ raw ∈ refs, nonBlank raw = true ∧ strip raw = ref := by
  simp only [normalized, mem_sortedUnique, List.mem_map, List.mem_filter, and_assoc]

/-- What is normalised does not depend on order or repetition. -/
theorem normalized_of_mem_iff {l l' : List String} (h : ∀ ref, ref ∈ l ↔ ref ∈ l') :
    normalized l = normalized l' := by
  refine sortedUnique_of_mem_iff (fun ref => ?_)
  simp only [List.mem_map, List.mem_filter, h]

theorem normalized_perm {l l' : List String} (h : l.Perm l') : normalized l = normalized l' :=
  normalized_of_mem_iff (fun _ => h.mem_iff)

theorem normalized_idem (refs : List String) : normalized (normalized refs) = normalized refs := by
  have hmem (ref : String) (h : ref ∈ normalized refs) : nonBlank ref = true ∧ strip ref = ref := by
    obtain ⟨ref', hmem, rfl⟩ := List.mem_map.mp (mem_sortedUnique.mp h)
    exact ⟨(nonBlank_strip ref').trans (List.mem_filter.mp hmem).2, strip_strip ref'⟩
  have hfilter : (normalized refs).filter nonBlank = normalized refs :=
    List.filter_eq_self.mpr (fun ref h => (hmem ref h).1)
  have hmap : (normalized refs).map strip = normalized refs :=
    (List.map_congr_left (fun ref h => (hmem ref h).2)).trans (List.map_id' _)
  show sortedUnique (((normalized refs).filter nonBlank).map strip) = normalized refs
  rw [hfilter, hmap]
  exact sortedUnique_idem _

/-- Whether a letter or digit of the ASCII alphabet. -/
def isAlnum (c : Char) : Bool :=
  let n := c.toNat
  (48 ≤ n && n ≤ 57) || (65 ≤ n && n ≤ 90) || (97 ≤ n && n ≤ 122)

def isAlpha (c : Char) : Bool :=
  let n := c.toNat
  (65 ≤ n && n ≤ 90) || (97 ≤ n && n ≤ 122)

def hexDigit (n : Nat) : Char :=
  if n < 10 then Char.ofNat (48 + n) else Char.ofNat (87 + n)

def singleQuote : Char := Char.ofNat 39

def doubleQuote : Char := Char.ofNat 34

def backslash : Char := Char.ofNat 92

/-- One character inside a string quoted with `q`. -/
def reprChar (q : Char) (c : Char) : List Char :=
  let n := c.toNat
  if c == q || c == backslash then [backslash, c]
  else if n == 10 then [backslash, 'n']
  else if n == 13 then [backslash, 'r']
  else if n == 9 then [backslash, 't']
  else if n < 32 || n == 127 then [backslash, 'x', hexDigit (n / 16), hexDigit (n % 16)]
  else [c]

/-- `repr(s)`: single quotes, unless the string holds a single quote and no double
quote. -/
def pyRepr (s : String) : String :=
  let cs := s.toList
  let q := if cs.any (· == singleQuote) && !cs.any (· == doubleQuote) then doubleQuote
    else singleQuote
  String.ofList (q :: cs.flatMap (reprChar q) ++ [q])

/-- A number in decimal, padded with zeros to `width` digits. -/
def padded (width n : Nat) : String :=
  let digits := (toString n).toList
  String.ofList (List.replicate (width - digits.length) '0' ++ digits)

/-- The date of the `days`-th day after the epoch, as year, month and day. -/
def civilOfDays (days : Int) : Int × Nat × Nat :=
  let z := days + 719468
  let era := z / 146097
  let doe := (z % 146097).toNat
  let yoe := (doe - doe / 1460 + doe / 36524 - doe / 146096) / 365
  let doy := doe - (365 * yoe + yoe / 4 - yoe / 100)
  let mp := (5 * doy + 2) / 153
  let month := if mp < 10 then mp + 3 else mp - 9
  ((yoe : Int) + era * 400 + (if month ≤ 2 then 1 else 0), month, doy - (153 * mp + 2) / 5 + 1)

/-- The date and time of an instant in microseconds, without its zone. -/
def dateTime (t : Int) : String :=
  let (year, month, day) := civilOfDays (t / 86400000000)
  let micros := (t % 86400000000).toNat
  let fraction := if micros % 1000000 = 0 then "" else "." ++ padded 6 (micros % 1000000)
  padded 4 year.toNat ++ "-" ++ padded 2 month ++ "-" ++ padded 2 day ++ "T" ++
    padded 2 (micros / 3600000000) ++ ":" ++ padded 2 (micros / 60000000 % 60) ++ ":" ++
    padded 2 (micros / 1000000 % 60) ++ fraction

/-- `isoformat()` of an instant in UTC. -/
def isoformat (t : Int) : String := dateTime t ++ "+00:00"

end Text
end PortableRuntime
