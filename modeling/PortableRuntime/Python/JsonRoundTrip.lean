import Mathlib.Tactic.SplitIfs
import PortableRuntime.Python.Equality
import PortableRuntime.Python.JsonRead

/-!
# Canonical JSON texts

`json.dumps` with sorted keys and no white space, with or without escapes above ASCII, read
back by `json.loads`.  What is read is the value with the keys of its objects in order, so two
values have one text exactly when they agree up to the order of their keys.
-/

namespace PortableRuntime
namespace Text

/-! ## Numbers -/

theorem head_toDigits (n : Nat) (h : n ≠ 0) : (Nat.toDigits 10 n).head? ≠ some '0' := by
  induction n using Nat.strongRecOn with
  | ind n ih =>
    by_cases hn : n < 10
    · have hdigit : ∀ m < 10, m ≠ 0 → Nat.digitChar m ≠ '0' := by decide
      rw [Nat.toDigits_of_lt_base hn, List.head?_cons]
      exact fun heq => hdigit n hn h (Option.some.inj heq)
    · have hfront := ih (n / 10) (by omega) (by omega)
      rw [Nat.toDigits_of_base_le (by decide) (by omega), List.head?_append]
      cases hhead : (Nat.toDigits 10 (n / 10)).head? with
      | none => exact absurd (List.head?_eq_none_iff.mp hhead) Nat.toDigits_ne_nil
      | some c =>
        rw [hhead] at hfront
        exact hfront

theorem isNatToken_toDigits (n : Nat) : isNatToken (Nat.toDigits 10 n) = true := by
  have hdigits : (Nat.toDigits 10 n).all Char.isDigit = true :=
    List.all_eq_true.mpr (fun c hc => Nat.isDigit_of_mem_toDigits (by decide) (by decide) hc)
  have hne : (Nat.toDigits 10 n).isEmpty = false := List.isEmpty_eq_false_iff.mpr Nat.toDigits_ne_nil
  rw [isNatToken, hdigits, hne, Bool.not_false, Bool.true_and, Bool.true_and, Bool.or_eq_true]
  by_cases hn : n = 0
  · left
    rw [hn, Nat.toDigits_zero]
    rfl
  · right
    exact bne_iff_ne.mpr (head_toDigits n hn)

theorem unsigned_toDigits (n : Nat) : unsigned (Nat.toDigits 10 n) = Nat.toDigits 10 n := by
  cases hdigits : Nat.toDigits 10 n with
  | nil => rfl
  | cons c cs =>
    have hc : c.isDigit = true :=
      Nat.isDigit_of_mem_toDigits (by decide) (by decide) (hdigits ▸ List.mem_cons_self)
    have hsign : c ≠ '-' := by
      intro heq
      rw [heq] at hc
      exact absurd hc (by decide)
    unfold unsigned
    split
    · next heq => exact absurd (List.cons.inj heq).1 hsign
    · rfl

theorem head_toDigits_ne_sign (n : Nat) : ((Nat.toDigits 10 n).head? == some '-') = false := by
  rw [beq_eq_false_iff_ne]
  intro heq
  have hc : ('-' : Char).isDigit = true :=
    Nat.isDigit_of_mem_toDigits (by decide) (by decide) (List.mem_of_head? heq)
  exact absurd hc (by decide)

theorem intToken_natText (n : Nat) : intToken? (Nat.toDigits 10 n) = some (n : Int) := by
  rw [intToken?, unsigned_toDigits, isNatToken_toDigits, if_pos rfl, head_toDigits_ne_sign,
    Nat.ofDigitChars_ten_toDigits]
  rfl

theorem toList_natText (n : Nat) : (toString n).toList = Nat.toDigits 10 n := by
  rw [Nat.toString_eq_repr, Nat.toList_repr]

theorem intToken_intText (n : Int) : intToken? (toString n).toList = some n := by
  cases n with
  | ofNat n =>
    show intToken? (toString n).toList = _
    rw [toList_natText]
    exact intToken_natText n
  | negSucc n =>
    have htext : (toString (Int.negSucc n)).toList = '-' :: Nat.toDigits 10 (n + 1) := by
      show ("-" ++ Nat.repr (n + 1)).toList = _
      rw [String.toList_append, Nat.toList_repr]
      rfl
    rw [htext, intToken?]
    show (if isNatToken (Nat.toDigits 10 (n + 1)) = true then _ else _) = _
    rw [isNatToken_toDigits, if_pos rfl, unsigned, Nat.ofDigitChars_ten_toDigits]
    rfl

theorem all_isNumberChar_intText (n : Int) : (toString n).toList.all isNumberChar = true := by
  have hdigits (m : Nat) : (Nat.toDigits 10 m).all isNumberChar = true := by
    refine List.all_eq_true.mpr (fun c hc => ?_)
    have hc : c.isDigit = true := Nat.isDigit_of_mem_toDigits (by decide) (by decide) hc
    simp [isNumberChar, hc]
  cases n with
  | ofNat n =>
    show (toString n).toList.all isNumberChar = true
    rw [toList_natText]
    exact hdigits n
  | negSucc n =>
    show ("-" ++ Nat.repr (n + 1)).toList.all isNumberChar = true
    rw [String.toList_append, Nat.toList_repr, List.all_append, hdigits]
    rfl

/-- A float is written with more than digits. -/
theorem intToken_of_isFloatToken {cs : List Char} (h : isFloatToken cs = true) :
    intToken? cs = none := by
  have hrest : ((unsigned cs).dropWhile Char.isDigit).isEmpty = false := by
    simp only [isFloatToken, Bool.and_eq_true, Bool.not_eq_true'] at h
    exact h.1.2
  have hnat : isNatToken (unsigned cs) = false := by
    by_contra hnat
    simp only [Bool.not_eq_false, isNatToken, Bool.and_eq_true] at hnat
    have hall := List.all_eq_true.mp hnat.1.2
    rw [List.dropWhile_eq_nil_iff.mpr hall] at hrest
    exact Bool.noConfusion hrest
  rw [intToken?, hnat, if_neg Bool.false_ne_true]

/-! ## Strings -/

theorem hexValue_hexDigit {m : Nat} (h : m < 16) : hexValue? (hexDigit m) = some m := by
  have hall : ∀ m < 16, hexValue? (hexDigit m) = some m := by decide
  exact hall m h

theorem escapedUnit_unicodeEscape {n : Nat} (hn : n < 0x10000) (rest : List Char) :
    escapedUnit ((unicodeEscape n).tail ++ rest) = some (n, rest) := by
  have hdigit (m : Nat) : hexValue? (hexDigit (m % 16)) = some (m % 16) :=
    hexValue_hexDigit (Nat.mod_lt m (by decide))
  have hsum : n / 4096 % 16 * 4096 + n / 256 % 16 * 256 + n / 16 % 16 * 16 + n % 16 = n := by omega
  show escapedUnit ('u' :: hexDigit (n / 4096 % 16) :: hexDigit (n / 256 % 16) ::
    hexDigit (n / 16 % 16) :: hexDigit (n % 16) :: rest) = _
  rw [escapedUnit, hdigit, hdigit, hdigit, hdigit]
  exact congrArg some (Prod.ext hsum rfl)

theorem stringUnits_cons {fuel : Nat} {c : Char} {rest : List Char}
    (hquote : c ≠ doubleQuote) (hslash : c ≠ backslash) (hcontrol : ¬ c.toNat < 32) :
    stringUnits (fuel + 1) (c :: rest) =
      (stringUnits fuel rest).map (fun r => (c.toNat :: r.1, r.2)) := by
  rw [stringUnits, if_neg (by simpa using hquote), if_neg (by simpa using hslash), if_neg hcontrol]
  cases stringUnits fuel rest <;> rfl

theorem stringUnits_escaped {fuel n : Nat} {cs rest : List Char}
    (h : escapedUnit cs = some (n, rest)) :
    stringUnits (fuel + 1) (backslash :: cs) =
      (stringUnits fuel rest).map (fun r => (n :: r.1, r.2)) := by
  rw [stringUnits, if_neg (by decide), if_pos (by decide), h]
  show (stringUnits fuel rest).bind _ = _
  cases stringUnits fuel rest <;> rfl

/-- The units that a character of a string is written in. -/
def jsonUnits (ascii : Bool) (c : Char) : List Nat :=
  if ascii && decide (0x10000 ≤ c.toNat) then
    [0xd800 + (c.toNat - 0x10000) / 0x400, 0xdc00 + (c.toNat - 0x10000) % 0x400]
  else [c.toNat]

theorem jsonUnits_of_lt {ascii : Bool} {c : Char} (h : c.toNat < 0x10000) :
    jsonUnits ascii c = [c.toNat] := by
  rw [jsonUnits, if_neg (by simp [h])]

theorem toNat_lt (c : Char) : c.toNat < 0x110000 := by
  have hvalid : c.toNat < 0xd800 ∨ 0xdfff < c.toNat ∧ c.toNat < 0x110000 := c.valid
  omega

/-- A unit of four digits is read back. -/
theorem stringUnits_unicodeEscape {n : Nat} (hn : n < 0x10000) (fuel : Nat) (rest : List Char) :
    stringUnits (fuel + 1) (unicodeEscape n ++ rest) =
      (stringUnits fuel rest).map (fun r => (n :: r.1, r.2)) :=
  stringUnits_escaped (escapedUnit_unicodeEscape hn rest)

/-- One character of a string is read back as its units. -/
theorem stringUnits_jsonChar (ascii : Bool) (fuel : Nat) (c : Char) (rest : List Char) :
    stringUnits (fuel + (jsonUnits ascii c).length) (jsonChar ascii c ++ rest) =
      (stringUnits fuel rest).map (fun r => (jsonUnits ascii c ++ r.1, r.2)) := by
  have hsimple {d : Char} {n : Nat} (hd : d ≠ 'u') (hn : simpleEscape? d = some n) :
      escapedUnit (d :: rest) = some (n, rest) := by
    rw [escapedUnit]
    · rw [hn]
      rfl
    · intro a b c d' rest heq
      exact absurd heq hd
  by_cases hquote : c = doubleQuote
  · subst hquote
    rw [jsonUnits_of_lt (by decide)]
    exact stringUnits_escaped (hsimple (by decide) (by decide))
  by_cases hslash : c = backslash
  · subst hslash
    rw [jsonUnits_of_lt (by decide)]
    exact stringUnits_escaped (hsimple (by decide) (by decide))
  rw [jsonChar, if_neg (by simp [hquote, hslash])]
  by_cases hcontrol : c.toNat < 32
  · rw [jsonUnits_of_lt (by omega)]
    split_ifs with h8 h9 h10 h12 h13
    · rw [beq_iff_eq.mp h8]
      exact stringUnits_escaped (hsimple (by decide) (by decide))
    · rw [beq_iff_eq.mp h9]
      exact stringUnits_escaped (hsimple (by decide) (by decide))
    · rw [beq_iff_eq.mp h10]
      exact stringUnits_escaped (hsimple (by decide) (by decide))
    · rw [beq_iff_eq.mp h12]
      exact stringUnits_escaped (hsimple (by decide) (by decide))
    · rw [beq_iff_eq.mp h13]
      exact stringUnits_escaped (hsimple (by decide) (by decide))
    · exact stringUnits_unicodeEscape (by omega) fuel rest
  · have hne (n : Nat) (hn : n < 32) : ¬ (c.toNat == n) = true := by
      rw [beq_iff_eq]
      omega
    rw [if_neg (hne 8 (by decide)), if_neg (hne 9 (by decide)), if_neg (hne 10 (by decide)),
      if_neg (hne 12 (by decide)), if_neg (hne 13 (by decide)), if_neg hcontrol]
    have hlt : c.toNat < 0x110000 := toNat_lt c
    split_ifs with hplain hplane
    · have hunits : jsonUnits ascii c = [c.toNat] := by
        refine if_neg ?_
        simp only [Bool.or_eq_true, decide_eq_true_eq, Bool.not_eq_true'] at hplain
        intro hwide
        rw [Bool.and_eq_true, decide_eq_true_eq] at hwide
        rcases hplain with hplain | hplain
        · omega
        · rw [hplain] at hwide
          exact Bool.noConfusion hwide.1
      rw [hunits]
      exact stringUnits_cons hquote hslash hcontrol
    · rw [jsonUnits_of_lt hplane]
      exact stringUnits_unicodeEscape hplane fuel rest
    · -- above the first plane a character is a pair of surrogates
      simp only [Bool.or_eq_true, Bool.not_eq_true', not_or, Bool.not_eq_false] at hplain
      rw [jsonUnits, if_pos (by simp [hplain.2, Nat.not_lt.mp hplane]), List.append_assoc]
      show stringUnits (fuel + 1 + 1) _ = _
      rw [stringUnits_unicodeEscape (by omega), stringUnits_unicodeEscape (by omega),
        Option.map_map]
      rfl

theorem length_jsonUnits_le (ascii : Bool) (c : Char) :
    (jsonUnits ascii c).length ≤ (jsonChar ascii c).length := by
  by_cases hwide : (ascii && decide (0x10000 ≤ c.toNat)) = true
  · rw [jsonUnits, if_pos hwide]
    rw [Bool.and_eq_true, decide_eq_true_eq] at hwide
    have hplain : ¬ (decide (c.toNat < 127) || !ascii) = true := by
      rw [hwide.1]
      simpa using by omega
    simp only [jsonChar, if_neg hplain]
    split_ifs <;> simp [unicodeEscape]
  · rw [jsonUnits, if_neg hwide, jsonChar]
    split_ifs <;> simp [unicodeEscape]

theorem stringUnits_jsonString (ascii : Bool) (cs rest : List Char) (fuel : Nat)
    (h : (cs.flatMap (jsonChar ascii)).length < fuel) :
    stringUnits fuel (cs.flatMap (jsonChar ascii) ++ doubleQuote :: rest) =
      some (cs.flatMap (jsonUnits ascii), rest) := by
  induction cs generalizing fuel with
  | nil =>
    cases fuel with
    | zero => exact absurd h (Nat.not_lt_zero _)
    | succ fuel =>
      show stringUnits (fuel + 1) (doubleQuote :: rest) = _
      rw [stringUnits, if_pos (by decide)]
      rfl
  | cons c cs ih =>
    have hunits := length_jsonUnits_le ascii c
    rw [List.flatMap_cons, List.length_append] at h
    obtain ⟨left, rfl⟩ : ∃ left, fuel = left + (jsonUnits ascii c).length :=
      ⟨fuel - (jsonUnits ascii c).length, by omega⟩
    rw [List.flatMap_cons, List.append_assoc, stringUnits_jsonChar, ih left (by omega)]
    rfl

theorem charOfUnit_toNat (c : Char) : charOfUnit c.toNat = c := by
  have hvalid : c.toNat.isValidChar := c.valid
  rw [charOfUnit, if_pos hvalid, Char.ofNat_toNat]

theorem not_isHighSurrogate (c : Char) : isHighSurrogate c.toNat = false := by
  have hvalid : c.toNat < 0xd800 ∨ 0xdfff < c.toNat ∧ c.toNat < 0x110000 := c.valid
  simp only [isHighSurrogate, Bool.and_eq_false_iff, decide_eq_false_iff_not]
  omega

theorem joinUnits_cons {n : Nat} (h : isHighSurrogate n = false) (rest : List Nat) :
    joinUnits (n :: rest) = charOfUnit n :: joinUnits rest := by
  cases rest with
  | nil => rfl
  | cons m rest => rw [joinUnits, h, Bool.false_and, if_neg Bool.false_ne_true]

/-- A character is no surrogate, and a pair that stands for one is joined. -/
theorem joinUnits_jsonUnits (ascii : Bool) (c : Char) (rest : List Nat) :
    joinUnits (jsonUnits ascii c ++ rest) = c :: joinUnits rest := by
  by_cases hwide : (ascii && decide (0x10000 ≤ c.toNat)) = true
  · rw [jsonUnits, if_pos hwide]
    rw [Bool.and_eq_true, decide_eq_true_eq] at hwide
    have hlt := toNat_lt c
    have hhigh : isHighSurrogate (0xd800 + (c.toNat - 0x10000) / 0x400) = true := by
      simp only [isHighSurrogate, Bool.and_eq_true, decide_eq_true_eq]
      omega
    have hlow : isLowSurrogate (0xdc00 + (c.toNat - 0x10000) % 0x400) = true := by
      simp only [isLowSurrogate, Bool.and_eq_true, decide_eq_true_eq]
      omega
    have hjoined : 0x10000 + (0xd800 + (c.toNat - 0x10000) / 0x400 - 0xd800) * 0x400 +
        (0xdc00 + (c.toNat - 0x10000) % 0x400 - 0xdc00) = c.toNat := by omega
    rw [List.cons_append, List.cons_append, List.nil_append, joinUnits, hhigh, hlow, Bool.and_true,
      if_pos rfl, hjoined, charOfUnit_toNat]
  · rw [jsonUnits, if_neg hwide, List.singleton_append, joinUnits_cons (not_isHighSurrogate c),
      charOfUnit_toNat]

theorem joinUnits_flatMap (ascii : Bool) (cs : List Char) :
    joinUnits (cs.flatMap (jsonUnits ascii)) = cs := by
  induction cs with
  | nil => rfl
  | cons c cs ih => rw [List.flatMap_cons, joinUnits_jsonUnits, ih]

theorem readString_jsonString (ascii : Bool) (s : String) (rest : List Char) (fuel : Nat)
    (h : (s.toList.flatMap (jsonChar ascii)).length < fuel) :
    readString fuel (s.toList.flatMap (jsonChar ascii) ++ doubleQuote :: rest) = some (s, rest) := by
  rw [readString, stringUnits_jsonString _ _ _ _ h]
  show some (String.ofList (joinUnits (s.toList.flatMap (jsonUnits ascii))), rest) = _
  rw [joinUnits_flatMap, String.ofList_toList]

theorem skipSpace_cons {c : Char} (h : isJsonSpace c = false) (cs : List Char) :
    skipSpace (c :: cs) = c :: cs := by
  rw [skipSpace, List.dropWhile_cons, if_neg (by simp [h])]

end Text

namespace Json

open Text

/-! ## The parts of an array and of an object -/

theorem dumpsItems_eq_map (style : JsonStyle) (items : List Json) :
    dumpsItems style items = items.map (dumps style) := by
  induction items with
  | nil => rfl
  | cons j rest ih => rw [dumpsItems, ih, List.map_cons]

theorem dumpsFields_eq_map (style : JsonStyle) (fields : Fields) :
    dumpsFields style fields = fields.map (fun f => (f.1, dumps style f.2)) := by
  induction fields with
  | nil => rfl
  | cons f rest ih =>
    obtain ⟨name, v⟩ := f
    rw [dumpsFields, ih, List.map_cons, dumpsField]

theorem canonItems_eq_map (items : List Json) : canonItems items = items.map canon := by
  induction items with
  | nil => rfl
  | cons j rest ih => rw [canonItems, ih, List.map_cons]

theorem canonFields_eq_map (fields : Fields) :
    canonFields fields = fields.map (fun f => (f.1, canon f.2)) := by
  induction fields with
  | nil => rfl
  | cons f rest ih =>
    obtain ⟨name, v⟩ := f
    rw [canonFields, ih, List.map_cons, canonField]

theorem isDocumentItems_iff {items : List Json} :
    isDocumentItems items = true ↔ ∀ j ∈ items, j.isDocument = true := by
  induction items with
  | nil => simp [isDocumentItems]
  | cons j rest ih => rw [isDocumentItems, Bool.and_eq_true, ih, List.forall_mem_cons]

theorem isDocumentFields_iff {fields : Fields} :
    isDocumentFields fields = true ↔ ∀ f ∈ fields, f.2.isDocument = true := by
  induction fields with
  | nil => simp [isDocumentFields]
  | cons f rest ih =>
    obtain ⟨name, v⟩ := f
    rw [isDocumentFields, Bool.and_eq_true, ih, List.forall_mem_cons, isDocumentField]

theorem isDocument_obj {fields : Fields} : (Json.obj fields).isDocument = true ↔
    fields.names.Nodup ∧ ∀ f ∈ fields, f.2.isDocument = true := by
  rw [isDocument, Bool.and_eq_true, decide_eq_true_eq, isDocumentFields_iff]

/-- Sorted keys and no white space. -/
def compactStyle (ascii : Bool) : JsonStyle :=
  { ensureAscii := ascii, itemSeparator := ",", keySeparator := ":", sortKeys := true }

/-- `json.dumps(j, sort_keys=True, separators=(",", ":"), ensure_ascii=ascii)`. -/
def compactText (ascii : Bool) (j : Json) : String := dumps (compactStyle ascii) j

/-- A member of the text of an object. -/
def compactMember (ascii : Bool) (m : String × String) : String :=
  Text.jsonString ascii m.1 ++ ":" ++ m.2

/-- The members of an object in the order of their names. -/
def compactMembers (ascii : Bool) (fields : Fields) : List (String × String) :=
  (fields.map (fun f => (f.1, compactText ascii f.2))).insertionSort (fun f g => f.1 ≤ g.1)

theorem compactText_arr (ascii : Bool) (items : List Json) : compactText ascii (.arr items) =
    "[" ++ Text.join "," (items.map (compactText ascii)) ++ "]" := by
  rw [compactText, dumps, dumpsItems_eq_map]
  rfl

theorem compactText_obj (ascii : Bool) (fields : Fields) : compactText ascii (.obj fields) =
    "\x7b" ++ Text.join "," ((compactMembers ascii fields).map (compactMember ascii)) ++
      "\x7d" := by
  rw [compactText, dumps, dumpsFields_eq_map]
  rfl

/-! ## Reading scalars -/

/-- Whether a number ends where a text begins. -/
def NumberEnds (rest : List Char) : Prop := ∀ c, rest.head? = some c → isNumberChar c = false

theorem numberEnds_cons {c : Char} (h : isNumberChar c = false) (rest : List Char) :
    NumberEnds (c :: rest) := by
  intro d hd
  rw [← Option.some.inj hd]
  exact h

/-- Whether a text begins with neither white space nor a closing bracket. -/
def Begins (text : List Char) : Prop :=
  ∃ c cs, text = c :: cs ∧ isJsonSpace c = false ∧ c ≠ ']' ∧ c ≠ closeBrace

theorem Begins.append {text : List Char} (h : Begins text) (rest : List Char) :
    Begins (text ++ rest) := by
  obtain ⟨c, cs, rfl, hc⟩ := h
  exact ⟨c, cs ++ rest, rfl, hc⟩

theorem Begins.skipSpace {text : List Char} (h : Begins text) : skipSpace text = text := by
  obtain ⟨c, cs, rfl, hspace, -⟩ := h
  exact skipSpace_cons hspace cs

theorem Begins.head_ne {text : List Char} (h : Begins text) :
    (text.head? == some ']') = false ∧ (text.head? == some closeBrace) = false := by
  obtain ⟨c, cs, rfl, -, hbracket, hbrace⟩ := h
  rw [beq_eq_false_iff_ne, beq_eq_false_iff_ne]
  exact ⟨fun heq => hbracket (Option.some.inj heq), fun heq => hbrace (Option.some.inj heq)⟩

/-- A text that is read as a value, whatever follows it. -/
structure Reads (text : List Char) (v : Json) : Prop where
  begins : Begins text
  read : ∀ fuel rest, text.length < fuel → NumberEnds rest →
    readValue fuel (text ++ rest) = some (v, rest)

section
variable {text rest : List Char} {v : Json}

theorem reads_scalar {c : Char} {cs : List Char}
    (hbegins : isJsonSpace c = false ∧ (c ≠ ']' ∧ c ≠ closeBrace) ∧ c ≠ '[' ∧ c ≠ doubleQuote ∧
      c ≠ openBrace)
    (h : ∀ rest, NumberEnds rest → readScalar (c :: cs ++ rest) = some (v, rest)) :
    Reads (c :: cs) v := by
  obtain ⟨hspace, hclose, hopen, hquote, hbrace⟩ := hbegins
  refine ⟨⟨c, cs, rfl, hspace, hclose⟩, fun fuel rest hfuel hends => ?_⟩
  cases fuel with
  | zero => exact absurd hfuel (Nat.not_lt_zero _)
  | succ fuel =>
    show readValue (fuel + 1) (c :: (cs ++ rest)) = _
    rw [readValue, if_neg (by simpa using hquote), if_neg (by simpa using hopen),
      if_neg (by simpa using hbrace)]
    exact h rest hends

theorem reads_null : Reads "null".toList .null := reads_scalar (by decide) (fun _ _ => rfl)

theorem reads_bool (ascii b : Bool) : Reads (compactText ascii (.bool b)).toList (.bool b) := by
  cases b with
  | true =>
    show Reads "true".toList (.bool true)
    exact reads_scalar (by decide) (fun _ _ => rfl)
  | false =>
    show Reads "false".toList (.bool false)
    exact reads_scalar (by decide) (fun _ _ => rfl)

theorem isPrefixOf_cons_of_ne {d c : Char} (h : d ≠ c) (ds cs : List Char) :
    (d :: ds).isPrefixOf (c :: cs) = false := by
  rw [List.isPrefixOf_cons_cons, beq_eq_false_iff_ne.mpr h, Bool.false_and]

/-- No literal begins with characters of a number, but for the sign of `-Infinity`. -/
theorem find?_literals (hall : text.all isNumberChar = true) (hne : text ≠ [])
    (hsign : text ≠ ['-']) :
    literals.find? (fun l => l.1.toList.isPrefixOf (text ++ rest)) = none := by
  have hletters : ∀ l ∈ literals, (∃ d ds, l.1.toList = d :: ds ∧ isNumberChar d = false) ∨
      l.1.toList = '-' :: 'I' :: "nfinity".toList := by
    simp only [literals, List.forall_mem_cons, List.not_mem_nil, false_imp_iff, implies_true,
      and_true]
    exact ⟨.inl ⟨'n', "ull".toList, by decide, by decide⟩,
      .inl ⟨'t', "rue".toList, by decide, by decide⟩,
      .inl ⟨'f', "alse".toList, by decide, by decide⟩,
      .inl ⟨'N', "aN".toList, by decide, by decide⟩,
      .inl ⟨'I', "nfinity".toList, by decide, by decide⟩, .inr (by decide)⟩
  have hother {c d : Char} (hc : isNumberChar c = true) (hd : isNumberChar d = false) : d ≠ c := by
    intro heq
    rw [heq, hc] at hd
    exact Bool.noConfusion hd
  have hapart (l : String × Json) (hl : l ∈ literals) :
      l.1.toList.isPrefixOf (text ++ rest) = false := by
    cases text with
    | nil => exact absurd rfl hne
    | cons c cs =>
      rw [List.all_cons, Bool.and_eq_true] at hall
      cases hletters l hl with
      | inl hfront =>
        obtain ⟨d, ds, hl, hd⟩ := hfront
        rw [hl]
        exact isPrefixOf_cons_of_ne (hother hall.1 hd) ds (cs ++ rest)
      | inr hminus =>
        rw [hminus, List.cons_append, List.isPrefixOf_cons_cons]
        cases cs with
        | nil =>
          have hc : '-' ≠ c := fun heq => hsign (by rw [heq])
          rw [beq_eq_false_iff_ne.mpr hc, Bool.false_and]
        | cons e es =>
          rw [List.all_cons, Bool.and_eq_true] at hall
          rw [List.cons_append, isPrefixOf_cons_of_ne (hother hall.2.1 (by decide)), Bool.and_false]
  exact List.find?_eq_none.mpr (fun l hl => by simp [hapart l hl])

theorem takeWhile_number (hall : text.all isNumberChar = true) (hends : NumberEnds rest) :
    (text ++ rest).takeWhile isNumberChar = text ∧
      (text ++ rest).dropWhile isNumberChar = rest := by
  have hall := List.all_eq_true.mp hall
  rw [List.takeWhile_append_of_pos hall, List.dropWhile_append_of_pos hall]
  cases rest with
  | nil => simp
  | cons c cs =>
    have hc : isNumberChar c = false := hends c rfl
    simp [hc]

theorem not_isJsonSpace {c : Char} (h : isNumberChar c = true) : isJsonSpace c = false := by
  by_contra hspace
  simp only [Bool.not_eq_false, isJsonSpace, Bool.or_eq_true, beq_iff_eq] at hspace
  have hsmall : c.toNat ≤ 32 := by
    rcases hspace with ((rfl | h) | h) | h
    · decide
    · omega
    · omega
    · omega
  simp only [isNumberChar, Char.isDigit, Bool.or_eq_true, Bool.and_eq_true, decide_eq_true_eq,
    beq_iff_eq] at h
  rcases h with ((((h | rfl) | rfl) | rfl) | rfl) | rfl
  · have hlow : 48 ≤ c.toNat := h.1
    omega
  all_goals exact absurd hsmall (by decide)

/-- The text of a number is read as that number. -/
theorem reads_number (hall : text.all isNumberChar = true) (h : numberToken? text = some v) :
    Reads text v := by
  have hnil : numberToken? [] = none := by rfl
  have hminus : numberToken? ['-'] = none := by rfl
  have hsign : text ≠ ['-'] := by
    intro heq
    rw [heq, hminus] at h
    cases h
  cases text with
  | nil =>
    rw [hnil] at h
    cases h
  | cons c cs =>
    have hc : isNumberChar c = true := List.all_eq_true.mp hall c List.mem_cons_self
    have hother (d : Char) (hd : isNumberChar d = false) : c ≠ d := by
      intro heq
      rw [← heq, hc] at hd
      exact Bool.noConfusion hd
    refine reads_scalar ⟨not_isJsonSpace hc, ⟨hother _ (by decide), hother _ (by decide)⟩,
      hother _ (by decide), hother _ (by decide), hother _ (by decide)⟩ (fun rest hends => ?_)
    obtain ⟨htake, hdrop⟩ := takeWhile_number hall hends
    rw [readScalar, find?_literals hall (List.cons_ne_nil c cs) hsign]
    show ((numberToken? _).map _ : Option (Json × List Char)) = _
    rw [htake, hdrop, h]
    rfl

theorem reads_int (ascii : Bool) (n : Int) : Reads (compactText ascii (.int n)).toList (.int n) := by
  refine reads_number (all_isNumberChar_intText n) ?_
  show numberToken? (toString n).toList = _
  rw [numberToken?, intToken_intText]

theorem reads_float (ascii : Bool) (q : Int) {s : String} (h : isFloatText s = true) :
    Reads (compactText ascii (.float q s)).toList (.float 0 s) := by
  show Reads s.toList (.float 0 s)
  rw [isFloatText, Bool.or_eq_true, List.contains_iff_mem, Bool.and_eq_true] at h
  by_cases hname : s ∈ ["NaN", "Infinity", "-Infinity"]
  · simp only [List.mem_cons, List.not_mem_nil, or_false] at hname
    rcases hname with rfl | rfl | rfl
    · exact reads_scalar (by decide) (fun _ _ => rfl)
    · exact reads_scalar (by decide) (fun _ _ => rfl)
    · exact reads_scalar (by decide) (fun _ _ => rfl)
  · obtain ⟨hall, hfloat⟩ := h.resolve_left hname
    refine reads_number hall ?_
    rw [numberToken?, intToken_of_isFloatToken hfloat, if_pos hfloat, String.ofList_toList]

theorem toList_jsonString (ascii : Bool) (s : String) : (Text.jsonString ascii s).toList =
    doubleQuote :: (s.toList.flatMap (jsonChar ascii) ++ [doubleQuote]) := by
  rw [Text.jsonString, String.toList_ofList]
  rfl

theorem reads_str (ascii : Bool) (s : String) : Reads (compactText ascii (.str s)).toList (.str s) := by
  show Reads (Text.jsonString ascii s).toList (.str s)
  rw [toList_jsonString]
  refine ⟨⟨doubleQuote, _, rfl, by decide, by decide, by decide⟩, fun fuel rest hfuel _ => ?_⟩
  rw [List.length_cons, List.length_append] at hfuel
  cases fuel with
  | zero => exact absurd hfuel (Nat.not_lt_zero _)
  | succ fuel =>
    rw [List.cons_append, List.append_assoc, readValue, if_pos (by decide)]
    show (readString fuel (s.toList.flatMap (jsonChar ascii) ++ doubleQuote :: rest)).map _ = _
    rw [readString_jsonString ascii s rest fuel (by omega)]
    rfl

end

/-! ## Reading arrays and objects -/

theorem toList_join_cons (sep s : String) {rest : List String} (h : rest ≠ []) :
    (Text.join sep (s :: rest)).toList = s.toList ++ (sep.toList ++ (Text.join sep rest).toList) := by
  cases rest with
  | nil => exact absurd rfl h
  | cons s' rest =>
    show (s ++ sep ++ Text.join sep (s' :: rest)).toList = _
    rw [String.toList_append, String.toList_append, List.append_assoc]

theorem begins_join {texts : List String} (h : ∀ text ∈ texts, Begins text.toList)
    (hne : texts ≠ []) : Begins (Text.join "," texts).toList := by
  cases texts with
  | nil => exact absurd rfl hne
  | cons text rest =>
    have htext := h text List.mem_cons_self
    by_cases hlast : rest = []
    · rw [hlast]
      exact htext
    · rw [toList_join_cons _ _ hlast]
      exact htext.append _

theorem begins_of_reads {texts : List String} {vs : List Json}
    (h : List.Forall₂ (fun text v => Reads text.toList v) texts vs) :
    ∀ text ∈ texts, Begins text.toList := by
  induction h with
  | nil => exact fun text htext => absurd htext List.not_mem_nil
  | cons hread _ ih => exact List.forall_mem_cons.mpr ⟨hread.begins, ih⟩

theorem readItems_join {texts : List String} {vs : List Json}
    (h : List.Forall₂ (fun text v => Reads text.toList v) texts vs) (hne : texts ≠ [])
    (fuel : Nat) (rest : List Char) (hfuel : (Text.join "," texts).toList.length + 1 < fuel) :
    readItems fuel ((Text.join "," texts).toList ++ ']' :: rest) = some (vs, rest) := by
  have hcomma : ",".toList = [','] := by decide
  induction h generalizing fuel with
  | nil => exact absurd rfl hne
  | @cons text v texts vs hread hrest ih =>
    cases fuel with
    | zero => exact absurd hfuel (Nat.not_lt_zero _)
    | succ fuel =>
      by_cases hlast : texts = []
      · subst hlast
        cases hrest
        have hjoin : Text.join "," [text] = text := rfl
        rw [hjoin] at hfuel ⊢
        rw [readItems, hread.read fuel (']' :: rest) (by omega) (numberEnds_cons (by decide) rest)]
        rfl
      · rw [toList_join_cons _ _ hlast, hcomma, List.length_append, List.length_append,
          List.length_singleton] at hfuel
        rw [toList_join_cons _ _ hlast, hcomma, List.append_assoc, List.append_assoc,
          List.singleton_append]
        have hbegins : Begins (Text.join "," texts).toList :=
          begins_join (begins_of_reads hrest) hlast
        rw [readItems, hread.read fuel _ (by omega) (numberEnds_cons (by decide) _)]
        show (readItems fuel (skipSpace _)).bind _ = _
        rw [(hbegins.append _).skipSpace, ih hlast fuel (by omega)]
        rfl

/-- The text of a member, after its opening quote. -/
theorem toList_compactMember (ascii : Bool) (m : String × String) :
    (compactMember ascii m).toList =
      doubleQuote :: (m.1.toList.flatMap (jsonChar ascii) ++ doubleQuote :: ':' :: m.2.toList) := by
  rw [compactMember, String.toList_append, String.toList_append, toList_jsonString]
  simp only [List.cons_append, List.append_assoc]
  rfl

theorem begins_compactMember (ascii : Bool) (m : String × String) :
    Begins (compactMember ascii m).toList :=
  ⟨doubleQuote, _, toList_compactMember ascii m, by decide, by decide, by decide⟩

theorem readMembers_join (ascii : Bool) {members : List (String × String)} {fields : Fields}
    (h : List.Forall₂ (fun m f => m.1 = f.1 ∧ Reads m.2.toList f.2) members fields)
    (hne : members ≠ []) (fuel : Nat) (rest : List Char)
    (hfuel : (Text.join "," (members.map (compactMember ascii))).toList.length + 1 < fuel) :
    readMembers fuel ((Text.join "," (members.map (compactMember ascii))).toList ++ closeBrace :: rest) =
      some (fields, rest) := by
  have hcomma : ",".toList = [','] := by decide
  induction h generalizing fuel with
  | nil => exact absurd rfl hne
  | @cons m f members fields hread hrest ih =>
    obtain ⟨name, v⟩ := f
    obtain ⟨hname, hread⟩ := hread
    rw [List.map_cons] at hfuel ⊢
    cases fuel with
    | zero => exact absurd hfuel (Nat.not_lt_zero _)
    | succ fuel =>
      have hmember (tail : List Char) (hlength : (compactMember ascii m).toList.length < fuel + 1)
          (hends : NumberEnds tail) :
          readString fuel ((compactMember ascii m).toList.tail ++ tail) =
              some (name, ':' :: (m.2.toList ++ tail)) ∧
            readValue fuel (m.2.toList ++ tail) = some (v, tail) := by
        rw [toList_compactMember] at hlength ⊢
        simp only [List.length_cons, List.length_append] at hlength
        rw [List.tail_cons, List.append_assoc, List.cons_append, List.cons_append,
          readString_jsonString ascii m.1 _ fuel (by omega), hname]
        exact ⟨rfl, hread.read fuel tail (by omega) hends⟩
      have hquote : (compactMember ascii m).toList = doubleQuote :: (compactMember ascii m).toList.tail := by
        rw [toList_compactMember, List.tail_cons]
      by_cases hlast : members = []
      · subst hlast
        cases hrest
        have hjoin : Text.join "," [compactMember ascii m] = compactMember ascii m := rfl
        rw [List.map_nil, hjoin] at hfuel ⊢
        obtain ⟨hstring, hvalue⟩ := hmember (closeBrace :: rest) (by omega)
          (numberEnds_cons (by decide) rest)
        rw [hquote, List.cons_append, readMembers, if_pos (by decide), hstring]
        show (readValue fuel (skipSpace _)).bind _ = _
        rw [(hread.begins.append _).skipSpace, hvalue]
        rfl
      · have hlast : members.map (compactMember ascii) ≠ [] := by simpa using hlast
        rw [toList_join_cons _ _ hlast, hcomma, List.length_append, List.length_append,
          List.length_singleton] at hfuel
        rw [toList_join_cons _ _ hlast, hcomma, List.append_assoc, List.append_assoc,
          List.singleton_append]
        have hbegins : Begins (Text.join "," (members.map (compactMember ascii))).toList :=
          begins_join (fun text htext => by
            obtain ⟨m, -, rfl⟩ := List.mem_map.mp htext
            exact begins_compactMember ascii m) hlast
        obtain ⟨hstring, hvalue⟩ := hmember
          (',' :: ((Text.join "," (members.map (compactMember ascii))).toList ++ closeBrace :: rest))
          (by omega) (numberEnds_cons (by decide) _)
        rw [hquote, List.cons_append, readMembers, if_pos (by decide), hstring]
        show (readValue fuel (skipSpace _)).bind _ = _
        rw [(hread.begins.append _).skipSpace, hvalue]
        show (readMembers fuel (skipSpace _)).bind _ = _
        rw [(hbegins.append _).skipSpace, ih (by simpa using hlast) fuel (by omega)]
        rfl

end Json

namespace Fields

/-! ## Dictionaries of distinct names -/

theorem put_of_not_mem {name : String} {v : Json} {fields : Fields} (h : name ∉ fields.names) :
    fields.put name v = fields ++ [(name, v)] := by
  induction fields with
  | nil => rfl
  | cons f rest ih =>
    obtain ⟨name', v'⟩ := f
    have hne : name' ≠ name := fun heq => h (heq ▸ List.mem_cons_self)
    rw [put, if_neg hne, ih (fun hmem => h (List.mem_cons_of_mem _ hmem)), List.cons_append]

theorem get?_eq_some_iff {name : String} {v : Json} {fields : Fields} (h : fields.names.Nodup) :
    get? name fields = some v ↔ (name, v) ∈ fields := by
  constructor
  · exact get?_eq_some_mem
  · intro hmem
    induction fields with
    | nil => cases hmem
    | cons f rest ih =>
      obtain ⟨name', v'⟩ := f
      obtain ⟨hnew, hrest⟩ := List.nodup_cons.mp h
      by_cases hname : name' = name
      · have hfirst : (name, v) = (name', v') := by
          refine (List.mem_cons.mp hmem).resolve_right (fun hlater => hnew ?_)
          rw [hname]
          exact List.mem_map.mpr ⟨_, hlater, rfl⟩
        rw [get?, if_pos hname, (Prod.mk.inj hfirst).2]
      · have hlater : (name, v) ∈ rest :=
          (List.mem_cons.mp hmem).resolve_left (fun heq => hname (Prod.mk.inj heq).1.symm)
        rw [get?, if_neg hname]
        exact ih hrest hlater

/-- Two dictionaries with the same values under every name have the same entries. -/
theorem perm_iff_get? {a b : Fields} (ha : a.names.Nodup) (hb : b.names.Nodup) :
    a.Perm b ↔ ∀ name, get? name a = get? name b := by
  constructor
  · intro hperm name
    apply Option.ext
    intro v
    rw [get?_eq_some_iff ha, get?_eq_some_iff hb]
    exact hperm.mem_iff
  · intro h
    refine (List.perm_ext_iff_of_nodup ha.of_map hb.of_map).mpr (fun f => ?_)
    obtain ⟨name, v⟩ := f
    rw [← get?_eq_some_iff ha, ← get?_eq_some_iff hb, h]

theorem get?_map (f : Json → Json) (name : String) (fields : Fields) :
    get? name (fields.map (fun m => (m.1, f m.2))) = (get? name fields).map f := by
  induction fields with
  | nil => rfl
  | cons m rest ih =>
    obtain ⟨name', v⟩ := m
    by_cases hname : name' = name
    · rw [List.map_cons, get?, get?, if_pos hname, if_pos hname]
      rfl
    · rw [List.map_cons, get?, get?, if_neg hname, if_neg hname]
      exact ih

theorem names_map (f : Json → Json) (fields : Fields) :
    names (fields.map (fun m => (m.1, f m.2))) = fields.names := by
  rw [names, List.map_map]
  rfl

/-- A dictionary with the keys in order holds what it held. -/
theorem get?_insertionSort {fields : Fields} (h : fields.names.Nodup) (name : String) :
    get? name (fields.insertionSort (fun f g => f.1 ≤ g.1)) = get? name fields := by
  have hperm : (fields.insertionSort (fun f g => f.1 ≤ g.1)).Perm fields :=
    List.perm_insertionSort _ _
  exact (perm_iff_get? ((hperm.map Prod.fst).nodup_iff.mpr h) h).mp hperm name

/-- Sorting by the keys forgets the order and nothing else. -/
theorem insertionSort_eq_iff {a b : Fields} (ha : a.names.Nodup) (hb : b.names.Nodup) :
    a.insertionSort (fun f g => f.1 ≤ g.1) = b.insertionSort (fun f g => f.1 ≤ g.1) ↔
      ∀ name, get? name a = get? name b := by
  constructor
  · intro h name
    rw [← get?_insertionSort ha, h, get?_insertionSort hb]
  · intro h
    refine @insertionSort_of_perm _ _ (· ≤ ·) _ _ _ Prod.fst _ _ ((perm_iff_get? ha hb).mpr h) ?_
    intro f hf g hg hfg hgf
    obtain ⟨name, v⟩ := f
    obtain ⟨name', w⟩ := g
    have hname : name = name' := String.le_antisymm hfg hgf
    subst hname
    have hv := (get?_eq_some_iff ha).mpr hf
    rw [(get?_eq_some_iff ha).mpr hg] at hv
    rw [Option.some.inj hv]

theorem foldl_put_of_nodup {front fields : Fields} (h : (front ++ fields).names.Nodup) :
    fields.foldl (fun d m => d.put m.1 m.2) front = front ++ fields := by
  induction fields generalizing front with
  | nil => exact (List.append_nil front).symm
  | cons f rest ih =>
    have hnew : f.1 ∉ front.names := by
      intro hmem
      rw [names, List.map_append] at h
      exact List.disjoint_of_nodup_append h hmem List.mem_cons_self
    have hsplit : front ++ f :: rest = front ++ [f] ++ rest := by simp
    rw [List.foldl_cons, put_of_not_mem hnew, ih (hsplit ▸ h), ← hsplit]

end Fields

namespace Json

/-! ## The round trip -/

theorem toList_array (middle : String) : ("[" ++ middle ++ "]").toList =
    '[' :: (middle.toList ++ [']']) := by
  rw [String.toList_append, String.toList_append]
  rfl

theorem toList_object (middle : String) : ("\x7b" ++ middle ++ "\x7d").toList =
    openBrace :: (middle.toList ++ [closeBrace]) := by
  rw [String.toList_append, String.toList_append]
  rfl

theorem reads_arr (ascii : Bool) {items : List Json}
    (h : ∀ j ∈ items, Reads (compactText ascii j).toList j.canon) :
    Reads (compactText ascii (.arr items)).toList (.arr (items.map canon)) := by
  rw [compactText_arr, toList_array]
  refine ⟨⟨'[', _, rfl, by decide, by decide, by decide⟩, fun fuel rest hfuel _ => ?_⟩
  rw [List.length_cons, List.length_append, List.length_singleton] at hfuel
  cases fuel with
  | zero => exact absurd hfuel (Nat.not_lt_zero _)
  | succ fuel =>
    rw [List.cons_append, List.append_assoc, readValue, if_neg (by decide), if_pos (by decide),
      List.singleton_append]
    by_cases hempty : items = []
    · subst hempty
      rfl
    · have hitems : List.Forall₂ (fun text v => Reads text.toList v) (items.map (compactText ascii))
          (items.map canon) := by
        rw [List.forall₂_map_left_iff, List.forall₂_map_right_iff]
        exact List.forall₂_same.mpr h
      have hne : items.map (compactText ascii) ≠ [] := by simpa using hempty
      have hbegins := (begins_join (begins_of_reads hitems) hne).append (']' :: rest)
      rw [hbegins.skipSpace, hbegins.head_ne.1, if_neg Bool.false_ne_true,
        readItems_join hitems hne fuel rest (by omega)]
      rfl

theorem canon_obj (fields : Fields) : canon (.obj fields) =
    .obj ((fields.map (fun f => (f.1, canon f.2))).insertionSort (fun f g => f.1 ≤ g.1)) := by
  rw [canon, canonFields_eq_map]

theorem reads_obj (ascii : Bool) {fields : Fields} (hnodup : fields.names.Nodup)
    (h : ∀ f ∈ fields, Reads (compactText ascii f.2).toList f.2.canon) :
    Reads (compactText ascii (.obj fields)).toList (canon (.obj fields)) := by
  rw [compactText_obj, toList_object, canon_obj]
  set sorted := (fields.map (fun f => (f.1, canon f.2))).insertionSort (fun f g => f.1 ≤ g.1)
    with hsorted
  have hperm : sorted.Perm (fields.map (fun f => (f.1, canon f.2))) :=
    List.perm_insertionSort _ _
  have hnames : Fields.names sorted |>.Nodup := by
    refine ((hperm.map Prod.fst).nodup_iff).mpr ?_
    rw [List.map_map]
    exact hnodup
  have hmembers : List.Forall₂ (fun m f => m.1 = f.1 ∧ Reads m.2.toList f.2)
      (compactMembers ascii fields) sorted := by
    refine forall₂_insertionSort (fun m f m' f' hmf hmf' => by rw [hmf.1, hmf'.1]) ?_
    rw [List.forall₂_map_left_iff, List.forall₂_map_right_iff]
    exact List.forall₂_same.mpr (fun f hf => ⟨rfl, h f hf⟩)
  refine ⟨⟨openBrace, _, rfl, by decide, by decide, by decide⟩, fun fuel rest hfuel _ => ?_⟩
  rw [List.length_cons, List.length_append, List.length_singleton] at hfuel
  cases fuel with
  | zero => exact absurd hfuel (Nat.not_lt_zero _)
  | succ fuel =>
    rw [List.cons_append, List.append_assoc, readValue, if_neg (by decide), if_neg (by decide),
      if_pos (by decide), List.singleton_append]
    by_cases hempty : compactMembers ascii fields = []
    · have hnil : sorted = [] := by
        rw [hempty] at hmembers
        exact List.forall₂_nil_left_iff.mp hmembers
      rw [hempty, hnil]
      rfl
    · have hne : (compactMembers ascii fields).map (compactMember ascii) ≠ [] := by simpa using hempty
      have hbegins : Begins (Text.join "," ((compactMembers ascii fields).map (compactMember ascii))).toList :=
        begins_join (fun text htext => by
          obtain ⟨m, -, rfl⟩ := List.mem_map.mp htext
          exact begins_compactMember ascii m) hne
      have hbegins := hbegins.append (closeBrace :: rest)
      rw [hbegins.skipSpace, hbegins.head_ne.2, if_neg Bool.false_ne_true,
        readMembers_join ascii hmembers hempty fuel rest (by omega)]
      show some (Json.obj (sorted.foldl _ []), rest) = _
      rw [Fields.foldl_put_of_nodup (show ([] ++ sorted : Fields).names.Nodup from hnames)]
      rfl

/-- A canonical text is read as the value it was written for, with its keys in order. -/
theorem reads_compactText (ascii : Bool) (j : Json) (h : j.isDocument = true) :
    Reads (compactText ascii j).toList j.canon := by
  induction j using Json.induct with
  | null => exact reads_null
  | bool b => exact reads_bool ascii b
  | int n => exact reads_int ascii n
  | float q text => exact reads_float ascii q h
  | str s => exact reads_str ascii s
  | datetime t => cases h
  | arr items ih =>
    rw [canon, canonItems_eq_map]
    exact reads_arr ascii (fun j hj => ih j hj (isDocumentItems_iff.mp h j hj))
  | obj fields ih =>
    obtain ⟨hnodup, hfields⟩ := isDocument_obj.mp h
    exact reads_obj ascii hnodup (fun f hf => ih f hf (hfields f hf))

theorem loads_compactText (ascii : Bool) {j : Json} (h : j.isDocument = true) :
    loads (compactText ascii j) = .ok j.canon := by
  have hread := reads_compactText ascii j h
  have hvalue := hread.read ((compactText ascii j).toList.length + 1) [] (Nat.lt_succ_self _)
    (fun c hc => by cases hc)
  rw [List.append_nil] at hvalue
  rw [loads, hread.begins.skipSpace, hvalue]
  rfl

theorem loads_canonicalJson {j : Json} (h : j.isDocument = true) :
    loads (canonicalJson j) = .ok j.canon := loads_compactText false h

/-! ## When two values have one text -/

theorem compactText_canon (ascii : Bool) (j : Json) :
    compactText ascii j.canon = compactText ascii j := by
  induction j using Json.induct with
  | arr items ih =>
    rw [canon, canonItems_eq_map, compactText_arr, compactText_arr, List.map_map]
    congr 3
    exact List.map_congr_left ih
  | obj fields ih =>
    have hfields : ((fields.map (fun f => (f.1, canon f.2))).map
        (fun f => (f.1, compactText ascii f.2))) = fields.map (fun f => (f.1, compactText ascii f.2)) := by
      rw [List.map_map]
      exact List.map_congr_left (fun f hf => Prod.ext rfl (ih f hf))
    have hmembers : compactMembers ascii ((fields.map (fun f => (f.1, canon f.2))).insertionSort
        (fun f g => f.1 ≤ g.1)) = compactMembers ascii fields := by
      have hsort := List.map_insertionSort (fun f g : String × Json => f.1 ≤ g.1)
        (fun f g : String × String => f.1 ≤ g.1) (fun f => (f.1, compactText ascii f.2))
        (fields.map (fun f => (f.1, canon f.2))) (fun _ _ _ _ => Iff.rfl)
      rw [compactMembers, hsort, hfields, compactMembers]
      exact (List.pairwise_insertionSort _ _).insertionSort_eq
    rw [canon_obj, compactText_obj, compactText_obj, hmembers]
  | _ => rfl

theorem canonicalJson_canon (j : Json) : canonicalJson j.canon = canonicalJson j :=
  compactText_canon false j

/-- Two dictionaries agree when they hold agreeing values under the same names. -/
theorem canon_obj_eq_iff {a b : Fields} (ha : a.names.Nodup) (hb : b.names.Nodup) :
    canon (.obj a) = canon (.obj b) ↔
      ∀ name, (Fields.get? name a).map canon = (Fields.get? name b).map canon := by
  rw [canon_obj, canon_obj, Json.obj.injEq, Fields.insertionSort_eq_iff]
  · simp only [Fields.get?_map]
  · rw [Fields.names_map]
    exact ha
  · rw [Fields.names_map]
    exact hb

theorem canonicalJson_inj {a b : Json} (ha : a.isDocument = true) (hb : b.isDocument = true) :
    canonicalJson a = canonicalJson b ↔ a.canon = b.canon := by
  constructor
  · intro h
    have hloads := loads_canonicalJson ha
    rw [h, loads_canonicalJson hb] at hloads
    exact (Except.ok.inj hloads).symm
  · intro h
    rw [← canonicalJson_canon a, h, canonicalJson_canon]

/-! ## Instants -/

mutual
/-- A value with its instants as the texts they are written as. -/
def textual : Json → Json
  | .datetime t => .str (Text.dateTime t ++ "Z")
  | .arr items => .arr (textualItems items)
  | .obj fields => .obj (textualFields fields)
  | j => j
termination_by structural x => x

def textualItems : List Json → List Json
  | [] => []
  | j :: rest => textual j :: textualItems rest
termination_by structural x => x

def textualFields : List (String × Json) → List (String × Json)
  | [] => []
  | f :: rest => textualField f :: textualFields rest
termination_by structural x => x

def textualField : String × Json → String × Json
  | (name, v) => (name, textual v)
termination_by structural x => x
end

theorem textualItems_eq_map (items : List Json) : textualItems items = items.map textual := by
  induction items with
  | nil => rfl
  | cons j rest ih => rw [textualItems, ih, List.map_cons]

theorem textualFields_eq_map (fields : Fields) :
    textualFields fields = fields.map (fun f => (f.1, textual f.2)) := by
  induction fields with
  | nil => rfl
  | cons f rest ih =>
    obtain ⟨name, v⟩ := f
    rw [textualFields, ih, List.map_cons, textualField]

/-- A value and its texts are written alike. -/
theorem dumps_textual (style : JsonStyle) (j : Json) : j.textual.dumps style = j.dumps style := by
  induction j using Json.induct with
  | arr items ih =>
    rw [textual, textualItems_eq_map, dumps, dumps, dumpsItems_eq_map, dumpsItems_eq_map,
      List.map_map]
    congr 3
    exact List.map_congr_left ih
  | obj fields ih =>
    have hfields : (fields.map (fun f => (f.1, textual f.2))).map
        (fun f => (f.1, dumps style f.2)) = fields.map (fun f => (f.1, dumps style f.2)) := by
      rw [List.map_map]
      exact List.map_congr_left (fun f hf => Prod.ext rfl (ih f hf))
    rw [textual, textualFields_eq_map, dumps, dumps, dumpsFields_eq_map, dumpsFields_eq_map,
      hfields]
  | _ => rfl

/-- Whether a value is one of JSON once its instants are texts. -/
def Documented (j : Json) : Prop := j.textual.isDocument = true

end Json
end PortableRuntime
