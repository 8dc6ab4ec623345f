import PortableRuntime.Python.JsonText
import PortableRuntime.Python.Lines

/-!
# Lines of JSON texts

`json.dumps` escapes the boundaries below the space.  U+0085, U+2028 and U+2029 it leaves
as they are, and they cut the line.
-/

namespace PortableRuntime
namespace Text

/-- The boundaries that a JSON text does not escape. -/
def isUnescapedBoundary (c : Char) : Bool :=
  let n := c.toNat
  n == 0x85 || n == 0x2028 || n == 0x2029

/-- Whether `splitlines` cuts a text. -/
def isCut (s : String) : Bool := s.toList.any isLineBoundary

theorem uncut_eq_not_isCut (s : String) : uncut s.toList = !isCut s := by
  rw [uncut, isCut, List.all_eq_not_any_not]
  simp only [Bool.not_not]

@[simp] theorem isCut_append (a b : String) : isCut (a ++ b) = (isCut a || isCut b) := by
  rw [isCut, String.toList_append, List.any_append]
  rfl

theorem isCut_join {sep : String} (hsep : isCut sep = false) (parts : List String) :
    isCut (join sep parts) = parts.any isCut := by
  induction parts with
  | nil => rfl
  | cons s rest ih =>
    cases rest with
    | nil => simp [join]
    | cons s' rest => simp [join, hsep, ih]

theorem isLineBoundary_of_isDigit {c : Char} (h : c.isDigit = true) :
    isLineBoundary c = false ∧ isUnescapedBoundary c = false := by
  simp only [Char.isDigit, Bool.and_eq_true, decide_eq_true_eq] at h
  have h1 : 48 ≤ c.toNat := h.1
  have h2 : c.toNat ≤ 57 := h.2
  simp only [isLineBoundary, isUnescapedBoundary, Bool.or_eq_false_iff, Bool.and_eq_false_iff,
    decide_eq_false_iff_not, beq_eq_false_iff_ne]
  omega

theorem isDigit_of_mem_toString {n : Nat} {c : Char} (h : c ∈ (toString n).toList) :
    c.isDigit = true := by
  rw [Nat.toString_eq_repr, Nat.toList_repr] at h
  exact Nat.isDigit_of_mem_toDigits (by decide) (by decide) h

theorem isCut_natText (n : Nat) : isCut (toString n) = false := by
  rw [isCut, List.any_eq_false]
  intro c hc
  simpa using (isLineBoundary_of_isDigit (isDigit_of_mem_toString hc)).1

theorem isCut_intText (n : Int) : isCut (toString n) = false := by
  cases n with
  | ofNat n => exact isCut_natText n
  | negSucc n =>
    show isCut ("-" ++ Nat.repr (n + 1)) = false
    rw [isCut_append, ← Nat.toString_eq_repr, isCut_natText]
    rfl

theorem isLineBoundary_hexDigit (n : Nat) : isLineBoundary (hexDigit (n % 16)) = false := by
  have hsmall : ∀ m < 16, isLineBoundary (hexDigit m) = false := by decide
  exact hsmall _ (Nat.mod_lt n (by decide))

/-- Inside a JSON string the boundaries below the space are escaped. -/
theorem any_jsonChar (c : Char) :
    (jsonChar false c).any isLineBoundary = isUnescapedBoundary c := by
  have hslash : isLineBoundary backslash = false := by decide
  have hsmall (h : c.toNat < 32) : isUnescapedBoundary c = false := by
    simp only [isUnescapedBoundary, Bool.or_eq_false_iff, beq_eq_false_iff_ne]
    omega
  by_cases hquote : (c == doubleQuote || c == backslash) = true
  · rw [jsonChar, if_pos hquote]
    rw [Bool.or_eq_true, beq_iff_eq, beq_iff_eq] at hquote
    rcases hquote with rfl | rfl <;> decide
  · rw [jsonChar, if_neg hquote]
    by_cases hcontrol : c.toNat < 32
    · rw [hsmall hcontrol, if_pos hcontrol]
      split_ifs <;> first
        | decide
        | simp only [unicodeEscape, List.any_cons, hslash, isLineBoundary_hexDigit,
            show isLineBoundary 'u' = false by decide, List.any_nil, Bool.or_false]
    · have hplain : isLineBoundary c = isUnescapedBoundary c := by
        simp only [isLineBoundary, isUnescapedBoundary]
        rw [Bool.eq_iff_iff]
        simp only [Bool.or_eq_true, Bool.and_eq_true, decide_eq_true_eq, beq_iff_eq]
        omega
      have hne (n : Nat) (hn : n < 32) : ¬ (c.toNat == n) = true := by
        rw [beq_iff_eq]
        omega
      rw [if_neg (hne 8 (by decide)), if_neg (hne 9 (by decide)), if_neg (hne 10 (by decide)),
        if_neg (hne 12 (by decide)), if_neg (hne 13 (by decide)), if_neg hcontrol,
        if_pos (by simp), List.any_cons, List.any_nil, Bool.or_false, hplain]

theorem isCut_jsonString (s : String) :
    isCut (jsonString false s) = s.toList.any isUnescapedBoundary := by
  have hquote : isLineBoundary doubleQuote = false := by decide
  rw [isCut, jsonString, String.toList_ofList, List.any_append, List.any_cons, List.any_flatMap]
  simp only [any_jsonChar, hquote, List.any_cons, List.any_nil, Bool.or_false, Bool.false_or]

theorem isUnescapedBoundary_dateTime (t : Int) :
    (dateTime t ++ "Z").toList.any isUnescapedBoundary = false := by
  have hpadded (width n : Nat) : (padded width n).toList.any isUnescapedBoundary = false := by
    rw [padded, String.toList_ofList, List.any_append, Bool.or_eq_false_iff, List.any_eq_false,
      List.any_eq_false]
    refine ⟨fun c hc => ?_, fun c hc => ?_⟩
    · rw [List.eq_of_mem_replicate hc]
      decide
    · simpa using (isLineBoundary_of_isDigit (isDigit_of_mem_toString hc)).2
  have happend (a b : String) : (a ++ b).toList.any isUnescapedBoundary =
      (a.toList.any isUnescapedBoundary || b.toList.any isUnescapedBoundary) := by
    rw [String.toList_append, List.any_append]
  have hmarks : ∀ mark ∈ ["-", "T", ":", ".", "", "Z"],
      mark.toList.any isUnescapedBoundary = false := by decide
  simp only [dateTime]
  split_ifs <;> simp only [happend, hpadded, Bool.or_false, hmarks _ (List.mem_cons_self),
    hmarks "T" (by decide), hmarks ":" (by decide), hmarks "." (by decide), hmarks "" (by decide),
    hmarks "Z" (by decide)]

end Text

/-- One line of a member of a bundle. -/
def jsonLine : JsonStyle := { ensureAscii := false }

namespace Json

mutual
/-- Whether a value holds a text with a boundary that its JSON text leaves as it is: U+0085,
U+2028 or U+2029 in a string or in a name. -/
def isCut : Json → Bool
  | .str s => s.toList.any Text.isUnescapedBoundary
  | .float _ text => Text.isCut text
  | .arr items => isCutItems items
  | .obj fields => isCutFields fields
  | _ => false
termination_by structural x => x

def isCutItems : List Json → Bool
  | [] => false
  | j :: rest => isCut j || isCutItems rest
termination_by structural x => x

def isCutFields : List (String × Json) → Bool
  | [] => false
  | f :: rest => isCutField f || isCutFields rest
termination_by structural x => x

def isCutField : String × Json → Bool
  | (name, v) => name.toList.any Text.isUnescapedBoundary || isCut v
termination_by structural x => x
end

/-- A member of the text of an object. -/
def memberText (m : String × String) : String :=
  Text.jsonString jsonLine.ensureAscii m.1 ++ jsonLine.keySeparator ++ m.2

theorem dumps_obj (fields : List (String × Json)) : dumps jsonLine (.obj fields) =
    "\x7b" ++ Text.join ", " ((dumpsFields jsonLine fields).map memberText) ++ "\x7d" := by
  rw [dumps]
  rfl

mutual
theorem isCut_dumps (j : Json) : Text.isCut (j.dumps jsonLine) = j.isCut := by
  cases j with
  | null => decide
  | bool b => cases b <;> decide
  | int n => exact Text.isCut_intText n
  | float q text => rfl
  | str s => exact Text.isCut_jsonString s
  | datetime t =>
    exact (Text.isCut_jsonString _).trans (Text.isUnescapedBoundary_dateTime t)
  | arr items =>
    rw [dumps, Text.isCut_append, Text.isCut_append, Text.isCut_join (by decide),
      isCut_dumpsItems items]
    exact Bool.or_false _
  | obj fields =>
    rw [dumps_obj, Text.isCut_append, Text.isCut_append, Text.isCut_join (by decide),
      List.any_map]
    exact (Bool.or_false _).trans (isCut_dumpsFields fields)
termination_by structural j

theorem isCut_dumpsItems (items : List Json) :
    (dumpsItems jsonLine items).any Text.isCut = isCutItems items := by
  cases items with
  | nil => rfl
  | cons j rest => rw [dumpsItems, List.any_cons, isCut_dumps j, isCut_dumpsItems rest, isCutItems]
termination_by structural items

theorem isCut_dumpsFields (fields : List (String × Json)) :
    (dumpsFields jsonLine fields).any (Text.isCut ∘ memberText) = isCutFields fields := by
  cases fields with
  | nil => rfl
  | cons f rest =>
    rw [dumpsFields, List.any_cons, isCut_dumpsField f, isCut_dumpsFields rest, isCutFields]
termination_by structural fields

theorem isCut_dumpsField (f : String × Json) :
    (Text.isCut ∘ memberText) (dumpsField jsonLine f) = isCutField f := by
  obtain ⟨name, v⟩ := f
  rw [dumpsField, Function.comp_apply, memberText, Text.isCut_append, Text.isCut_append,
    isCut_dumps v, isCutField, ← Text.isCut_jsonString]
  exact congrArg (· || isCut v) (Bool.or_false _)
end

/-- The line of an object, between its braces. -/
theorem enclosed_dumps (fields : List (String × Json)) :
    Text.Enclosed (dumps jsonLine (.obj fields)).toList := by
  refine ⟨Char.ofNat 123, (Text.join ", " ((dumpsFields jsonLine fields).map memberText)).toList,
    Char.ofNat 125, ?_, by decide, by decide⟩
  rw [dumps_obj, String.toList_append, String.toList_append]
  rfl

theorem nonBlank_dumps (fields : List (String × Json)) :
    Text.nonBlank (dumps jsonLine (.obj fields)) = true := by
  rw [dumps_obj, Text.nonBlank, String.toList_append, String.toList_append, List.any_append,
    List.any_append]
  rfl

theorem uncut_dumps (j : Json) : Text.uncut (dumps jsonLine j).toList = !j.isCut := by
  rw [Text.uncut_eq_not_isCut, isCut_dumps]

end Json
end PortableRuntime
