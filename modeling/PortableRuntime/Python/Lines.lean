import PortableRuntime.Python.Text

/-!
# Lines of a text

`str.splitlines` ends a line at more characters than the line feed: at the other vertical
controls, at the information separators, at U+0085, and at U+2028 and U+2029.
-/

namespace PortableRuntime
namespace Text

def isLineBoundary (c : Char) : Bool :=
  let n := c.toNat
  (10 ≤ n && n ≤ 13) || (28 ≤ n && n ≤ 30) || n == 0x85 || n == 0x2028 || n == 0x2029

def lineFeed : Char := Char.ofNat 10

def carriageReturn : Char := Char.ofNat 13

/-- The lines of the rest of a text, from the characters of the line under way in reverse.
A line feed right after a carriage return ends no second line. -/
def splitLinesFrom : Bool → List Char → List Char → List (List Char)
  | _, current, [] => if current.isEmpty then [] else [current.reverse]
  | afterReturn, current, c :: rest =>
    if afterReturn && c == lineFeed then splitLinesFrom false [] rest
    else if isLineBoundary c then current.reverse :: splitLinesFrom (c == carriageReturn) [] rest
    else splitLinesFrom false (c :: current) rest

/-- `text.splitlines()`. -/
def splitlines (s : String) : List String := (splitLinesFrom false [] s.toList).map String.ofList

/-- The pieces that `line.strip()` leaves something of. -/
def nonBlankLines (s : String) : List String := (splitlines s).filter nonBlank

def nonBlankChars (l : List Char) : Bool := l.any (fun c => !isSpace c)

/-- A piece that is ended stands alone. -/
theorem splitLinesFrom_append (l rest : List Char) (afterReturn : Bool) (current : List Char) :
    splitLinesFrom afterReturn current (l ++ lineFeed :: rest) =
      splitLinesFrom afterReturn current (l ++ [lineFeed]) ++ splitLinesFrom false [] rest := by
  induction l generalizing afterReturn current with
  | nil =>
    cases afterReturn with
    | true => rfl
    | false => rfl
  | cons c l ih =>
    simp only [List.cons_append, splitLinesFrom]
    split_ifs with hskip hboundary
    · exact ih false []
    · rw [ih, List.cons_append]
    · exact ih false (c :: current)

theorem splitLinesFrom_flatMap (lines : List (List Char)) :
    splitLinesFrom false [] (lines.flatMap (· ++ [lineFeed])) =
      lines.flatMap (fun l => splitLinesFrom false [] (l ++ [lineFeed])) := by
  induction lines with
  | nil => rfl
  | cons l rest ih =>
    rw [List.flatMap_cons, List.flatMap_cons, List.append_assoc]
    show splitLinesFrom false [] (l ++ lineFeed :: rest.flatMap (· ++ [lineFeed])) = _
    rw [splitLinesFrom_append, ih]

/-- A line without a boundary is one piece. -/
theorem splitLinesFrom_of_none {l : List Char} (h : ∀ c ∈ l, isLineBoundary c = false)
    (current : List Char) :
    splitLinesFrom false current (l ++ [lineFeed]) = [current.reverse ++ l] := by
  induction l generalizing current with
  | nil => simp [splitLinesFrom, show isLineBoundary lineFeed = true from rfl]
  | cons c rest ih =>
    rw [List.cons_append, splitLinesFrom, Bool.false_and, if_neg (by decide),
      h c List.mem_cons_self, if_neg (by decide),
      ih (fun c' hc' => h c' (List.mem_cons_of_mem _ hc'))]
    simp

/-! ## A line that is cut -/

/-- The number of pieces that are not blank. -/
def pieces (l : List (List Char)) : Nat := (l.filter nonBlankChars).length

theorem pieces_cons (a : List Char) (l : List (List Char)) :
    pieces (a :: l) = (if nonBlankChars a then 1 else 0) + pieces l := by
  rw [pieces, List.filter_cons]
  split
  · rw [List.length_cons, Nat.add_comm]
    rfl
  · rw [Nat.zero_add]
    rfl

section Cut

variable {last : Char} (hlast : isLineBoundary last = false) (hspace : isSpace last = false)
include hlast hspace

/-- A text that ends in a character of no blank has a piece that is not blank. -/
theorem pieces_pos (l : List Char) (afterReturn : Bool) (current : List Char) :
    1 ≤ pieces (splitLinesFrom afterReturn current ((l ++ [last]) ++ [lineFeed])) := by
  induction l generalizing afterReturn current with
  | nil =>
    have hfeed : (last == lineFeed) = false := by
      rw [beq_eq_false_iff_ne]
      rintro rfl
      exact absurd hlast (by decide)
    simp only [List.nil_append, List.cons_append, splitLinesFrom, hfeed, hlast, Bool.and_false,
      Bool.false_eq_true, if_false, Bool.false_and, show isLineBoundary lineFeed = true from rfl,
      if_true, pieces_cons]
    have hmem : nonBlankChars (last :: current).reverse = true := by
      simp [nonBlankChars, hspace]
    rw [hmem, if_pos rfl]
    exact Nat.le_add_right 1 _
  | cons c rest ih =>
    simp only [List.cons_append, splitLinesFrom]
    split_ifs with hskip hboundary
    · exact ih false []
    · rw [pieces_cons]
      exact Nat.le_add_left_of_le (ih _ [])
    · exact ih false (c :: current)

/-- A line with a boundary inside, after something that is not blank, is two pieces or more. -/
theorem two_le_pieces {l : List Char} (hcut : ∃ c ∈ l, isLineBoundary c = true)
    {current : List Char} (hcurrent : nonBlankChars current = true) :
    2 ≤ pieces (splitLinesFrom false current ((l ++ [last]) ++ [lineFeed])) := by
  induction l generalizing current with
  | nil => exact absurd hcut (by simp)
  | cons c rest ih =>
    simp only [List.cons_append, splitLinesFrom, Bool.false_and, Bool.false_eq_true, if_false]
    split_ifs with hboundary
    · have hpiece : nonBlankChars current.reverse = true := by
        rwa [nonBlankChars, List.any_reverse]
      rw [pieces_cons, hpiece, if_pos rfl]
      have := pieces_pos hlast hspace rest (c == carriageReturn) []
      omega
    · have hrest : ∃ c' ∈ rest, isLineBoundary c' = true := by
        obtain ⟨c', hc', hb⟩ := hcut
        rcases List.mem_cons.mp hc' with rfl | hmem
        · exact absurd hb hboundary
        · exact ⟨c', hmem, hb⟩
      refine ih hrest ?_
      rw [nonBlankChars, List.any_cons, Bool.or_eq_true]
      exact .inr hcurrent

end Cut

/-- A text that neither begins nor ends in a blank or in a boundary. -/
def Enclosed (l : List Char) : Prop :=
  ∃ first middle last, l = first :: (middle ++ [last]) ∧
    (isLineBoundary first = false ∧ isSpace first = false) ∧
    isLineBoundary last = false ∧ isSpace last = false

def uncut (l : List Char) : Bool := l.all (fun c => !isLineBoundary c)

theorem uncut_iff {l : List Char} : uncut l = true ↔ ∀ c ∈ l, isLineBoundary c = false := by
  simp [uncut]

/-- The pieces of an enclosed line: one, or two and more when it is cut. -/
theorem Enclosed.pieces {l : List Char} (h : Enclosed l) :
    1 ≤ Text.pieces (splitLinesFrom false [] (l ++ [lineFeed])) ∧
      (Text.pieces (splitLinesFrom false [] (l ++ [lineFeed])) ≤ 1 ↔ uncut l = true) := by
  obtain ⟨first, middle, last, rfl, hfirst, hlast⟩ := h
  have hstep : splitLinesFrom false [] (first :: (middle ++ [last]) ++ [lineFeed]) =
      splitLinesFrom false [first] (middle ++ [last] ++ [lineFeed]) := by
    rw [List.cons_append, splitLinesFrom, Bool.false_and, if_neg (by decide), hfirst.1,
      if_neg (by decide)]
  have hblank : nonBlankChars [first] = true := by simp [nonBlankChars, hfirst.2]
  have hpos := pieces_pos hlast.1 hlast.2 middle false [first]
  rw [hstep]
  refine ⟨hpos, ⟨fun hle => ?_, fun huncut => ?_⟩⟩
  · rw [uncut_iff]
    by_contra hcut
    have hmiddle : ∃ c ∈ middle, isLineBoundary c = true := by
      simp only [not_forall, Bool.not_eq_false] at hcut
      obtain ⟨c, hc, hboundary⟩ := hcut
      rcases List.mem_cons.mp hc with rfl | hc
      · exact absurd hboundary (by simp [hfirst.1])
      · rcases List.mem_append.mp hc with hc | hc
        · exact ⟨c, hc, hboundary⟩
        · rw [List.mem_singleton.mp hc, hlast.1] at hboundary
          exact absurd hboundary (by decide)
    have := two_le_pieces hlast.1 hlast.2 hmiddle hblank
    omega
  · rw [splitLinesFrom_of_none (fun c hc =>
      uncut_iff.mp huncut c (List.mem_cons_of_mem _ hc)), pieces_cons]
    split <;> simp [Text.pieces]

/-- Lines that are joined come apart into as many pieces only when none of them is cut. -/
theorem pieces_flatMap {lines : List (List Char)} (h : ∀ l ∈ lines, Enclosed l) :
    lines.length ≤ pieces (splitLinesFrom false [] (lines.flatMap (· ++ [lineFeed]))) ∧
      (pieces (splitLinesFrom false [] (lines.flatMap (· ++ [lineFeed]))) ≤ lines.length ↔
        ∀ l ∈ lines, uncut l = true) := by
  rw [splitLinesFrom_flatMap]
  induction lines with
  | nil => simp [pieces]
  | cons l rest ih =>
    obtain ⟨hle, hiff⟩ := ih (fun l' hl' => h l' (List.mem_cons_of_mem _ hl'))
    obtain ⟨hone, huncut⟩ := (h l List.mem_cons_self).pieces
    have hsum : pieces ((l :: rest).flatMap (fun l => splitLinesFrom false [] (l ++ [lineFeed]))) =
        pieces (splitLinesFrom false [] (l ++ [lineFeed])) +
          pieces (rest.flatMap (fun l => splitLinesFrom false [] (l ++ [lineFeed]))) := by
      rw [List.flatMap_cons, pieces, List.filter_append, List.length_append]
      rfl
    rw [hsum, List.forall_mem_cons, ← huncut, ← hiff, List.length_cons]
    omega

theorem nonBlank_ofList (l : List Char) : nonBlank (String.ofList l) = nonBlankChars l := by
  rw [nonBlank, nonBlankChars, String.toList_ofList]

theorem length_nonBlankLines (s : String) :
    (nonBlankLines s).length = pieces (splitLinesFrom false [] s.toList) := by
  rw [nonBlankLines, splitlines, List.filter_map, List.length_map, pieces]
  congr 2
  funext l
  exact nonBlank_ofList l

/-- Lines of which none is cut come back as they were. -/
theorem nonBlankLines_of_uncut {lines : List String} (h : ∀ l ∈ lines, uncut l.toList = true)
    (hblank : ∀ l ∈ lines, nonBlank l = true) {s : String}
    (hs : s.toList = (lines.map String.toList).flatMap (· ++ [lineFeed])) :
    nonBlankLines s = lines := by
  have hsplit : splitlines s = lines := by
    rw [splitlines, hs, splitLinesFrom_flatMap, List.flatMap_map, List.map_flatMap]
    refine (List.flatMap_congr (fun l hl => ?_)).trans (List.flatMap_singleton' lines)
    rw [splitLinesFrom_of_none (uncut_iff.mp (h l hl))]
    simp
  rw [nonBlankLines, hsplit, List.filter_eq_self.mpr hblank]

end Text
end PortableRuntime
