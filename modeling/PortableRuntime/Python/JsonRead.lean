import PortableRuntime.Library.Sorting
import PortableRuntime.Python.JsonText

/-
Reading JSON texts.

`json.loads` on the characters of a text.  A number is the longest run of characters
that numbers are written with; where such a run is no number, what follows its beginning
could not continue the text either.  A float is kept by its text.
-/

namespace PortableRuntime
namespace Text

/-! ## Numbers -/

/-- The characters a JSON number is written with. -/
def isNumberChar (c : Char) : Bool :=
  c.isDigit || c == '-' || c == '+' || c == '.' || c == 'e' || c == 'E'

/-- A decimal number without needless zeros in front. -/
def isNatToken (cs : List Char) : Bool :=
  !cs.isEmpty && cs.all Char.isDigit && (cs.length == 1 || cs.head? != some '0')

/-- The digits after a sign. -/
def unsigned : List Char → List Char
  | '-' :: cs => cs
  | cs => cs

def intToken? (cs : List Char) : Option Int :=
  if isNatToken (unsigned cs) then
    let n := Nat.ofDigitChars 10 (unsigned cs) 0
    some (if cs.head? == some '-' then -(n : Int) else n)
  else none

def isDigits (cs : List Char) : Bool := !cs.isEmpty && cs.all Char.isDigit

/-- Nothing, or an exponent. -/
def isExponent : List Char → Bool
  | [] => true
  | c :: '-' :: cs => (c == 'e' || c == 'E') && isDigits cs
  | c :: '+' :: cs => (c == 'e' || c == 'E') && isDigits cs
  | c :: cs => (c == 'e' || c == 'E') && isDigits cs

def isFloatToken (cs : List Char) : Bool :=
  let whole := (unsigned cs).takeWhile Char.isDigit
  let rest := (unsigned cs).dropWhile Char.isDigit
  isNatToken whole && !rest.isEmpty && match rest with
    | '.' :: cs => isDigits (cs.takeWhile Char.isDigit) && isExponent (cs.dropWhile Char.isDigit)
    | cs => isExponent cs

/-- Whether a text is one of a float. -/
def isFloatText (text : String) : Bool :=
  ["NaN", "Infinity", "-Infinity"].contains text ||
    (text.toList.all isNumberChar && isFloatToken text.toList)

/-! ## Strings -/

def hexValue? (c : Char) : Option Nat :=
  let n := c.toNat
  if 48 ≤ n && n ≤ 57 then some (n - 48)
  else if 97 ≤ n && n ≤ 102 then some (n - 87)
  else if 65 ≤ n && n ≤ 70 then some (n - 55)
  else none

/-- What a backslash and one character stand for. -/
def simpleEscape? (c : Char) : Option Nat :=
  if c == doubleQuote || c == backslash || c == '/' then some c.toNat
  else if c == 'b' then some 8
  else if c == 'f' then some 12
  else if c == 'n' then some 10
  else if c == 'r' then some 13
  else if c == 't' then some 9
  else none

/-- The unit after a backslash, and what follows it. -/
def escapedUnit : List Char → Option (Nat × List Char)
  | 'u' :: a :: b :: c :: d :: rest => do
    let a ← hexValue? a
    let b ← hexValue? b
    let c ← hexValue? c
    let d ← hexValue? d
    some (a * 4096 + b * 256 + c * 16 + d, rest)
  | c :: rest => (simpleEscape? c).map (fun n => (n, rest))
  | [] => none

/-- The units of a string up to its closing quote, and what follows it. -/
def stringUnits : Nat → List Char → Option (List Nat × List Char)
  | 0, _ => none
  | _, [] => none
  | fuel + 1, c :: rest =>
    if c == doubleQuote then some ([], rest)
    else if c == backslash then do
      let (n, rest) ← escapedUnit rest
      let (ns, rest) ← stringUnits fuel rest
      some (n :: ns, rest)
    else if c.toNat < 32 then none
    else do
      let (ns, rest) ← stringUnits fuel rest
      some (c.toNat :: ns, rest)

/-- A surrogate that stands alone is no character here; it is read as U+FFFD. -/
def charOfUnit (n : Nat) : Char := if n.isValidChar then Char.ofNat n else Char.ofNat 0xfffd

def isHighSurrogate (n : Nat) : Bool := 0xd800 ≤ n && n ≤ 0xdbff

def isLowSurrogate (n : Nat) : Bool := 0xdc00 ≤ n && n ≤ 0xdfff

/-- Two surrogates in a row are one character. -/
def joinUnits : List Nat → List Char
  | [] => []
  | [n] => [charOfUnit n]
  | n :: m :: rest =>
    if isHighSurrogate n && isLowSurrogate m then
      charOfUnit (0x10000 + (n - 0xd800) * 0x400 + (m - 0xdc00)) :: joinUnits rest
    else charOfUnit n :: joinUnits (m :: rest)

def readString (fuel : Nat) (cs : List Char) : Option (String × List Char) :=
  (stringUnits fuel cs).map (fun r => (String.ofList (joinUnits r.1), r.2))

/-- The white space of JSON. -/
def isJsonSpace (c : Char) : Bool := c == ' ' || c.toNat == 9 || c.toNat == 10 || c.toNat == 13

def skipSpace (cs : List Char) : List Char := cs.dropWhile isJsonSpace

end Text

namespace Json

open Text

/-! ## Values -/

def literals : List (String × Json) :=
  [("null", .null), ("true", .bool true), ("false", .bool false), ("NaN", .float 0 "NaN"),
    ("Infinity", .float 0 "Infinity"), ("-Infinity", .float 0 "-Infinity")]

def numberToken? (cs : List Char) : Option Json :=
  match intToken? cs with
  | some n => some (.int n)
  | none => if isFloatToken cs then some (.float 0 (String.ofList cs)) else none

def readScalar (cs : List Char) : Option (Json × List Char) :=
  match literals.find? (fun l => l.1.toList.isPrefixOf cs) with
  | some (text, v) => some (v, cs.drop text.toList.length)
  | none => (numberToken? (cs.takeWhile isNumberChar)).map
      (fun v => (v, cs.dropWhile isNumberChar))

def openBrace : Char := Char.ofNat 123

def closeBrace : Char := Char.ofNat 125

mutual
/-- The value at the beginning of a text, and what follows it. -/
def readValue : Nat → List Char → Option (Json × List Char)
  | 0, _ => none
  | _, [] => none
  | fuel + 1, c :: cs =>
    if c == doubleQuote then (readString fuel cs).map (fun r => (.str r.1, r.2))
    else if c == '[' then
      if (skipSpace cs).head? == some ']' then some (.arr [], (skipSpace cs).tail)
      else (readItems fuel (skipSpace cs)).map (fun r => (.arr r.1, r.2))
    else if c == openBrace then
      if (skipSpace cs).head? == some closeBrace then some (.obj [], (skipSpace cs).tail)
      else (readMembers fuel (skipSpace cs)).map (fun r =>
        (.obj (r.1.foldl (fun fields m => Fields.put m.1 m.2 fields) []), r.2))
    else readScalar (c :: cs)
termination_by structural fuel => fuel

def readItems : Nat → List Char → Option (List Json × List Char)
  | 0, _ => none
  | fuel + 1, cs => do
    let (v, cs) ← readValue fuel cs
    match skipSpace cs with
    | ',' :: rest => do
      let (vs, rest) ← readItems fuel (skipSpace rest)
      some (v :: vs, rest)
    | ']' :: rest => some ([v], rest)
    | _ => none
termination_by structural fuel => fuel

def readMembers : Nat → List Char → Option (Fields × List Char)
  | 0, _ => none
  | _, [] => none
  | fuel + 1, c :: cs =>
    if c == doubleQuote then do
      let (name, cs) ← readString fuel cs
      match skipSpace cs with
      | ':' :: cs => do
        let (v, cs) ← readValue fuel (skipSpace cs)
        match skipSpace cs with
        | c :: rest =>
          if c == ',' then do
            let (ms, rest) ← readMembers fuel (skipSpace rest)
            some ((name, v) :: ms, rest)
          else if c == closeBrace then some ([(name, v)], rest)
          else none
        | [] => none
      | _ => none
    else none
termination_by structural fuel => fuel
end

/-! ## Canonical texts -/

/-- Sorted keys, no white space, and escapes only where they must be. -/
def canonicalStyle : JsonStyle :=
  { ensureAscii := false, itemSeparator := ",", keySeparator := ":", sortKeys := true }

/-- `_canonical_json(value)`. -/
def canonicalJson (j : Json) : String := dumps canonicalStyle j

mutual
/-- A value with the keys of its objects in order, and its floats by their texts. -/
def canon : Json → Json
  | .float _ text => .float 0 text
  | .arr items => .arr (canonItems items)
  | .obj fields => .obj ((canonFields fields).insertionSort (fun f g => f.1 ≤ g.1))
  | j => j
termination_by structural x => x

def canonItems : List Json → List Json
  | [] => []
  | j :: rest => canon j :: canonItems rest
termination_by structural x => x

def canonFields : List (String × Json) → List (String × Json)
  | [] => []
  | f :: rest => canonField f :: canonFields rest
termination_by structural x => x

def canonField : String × Json → String × Json
  | (name, v) => (name, canon v)
termination_by structural x => x
end

mutual
/-- Whether a value is one of JSON: the names of an object are distinct, as those of a
dictionary are, and a float has the text of one. -/
def isDocument : Json → Bool
  | .float _ text => isFloatText text
  | .datetime _ => false
  | .arr items => isDocumentItems items
  | .obj fields => decide (Fields.names fields).Nodup && isDocumentFields fields
  | _ => true
termination_by structural x => x

def isDocumentItems : List Json → Bool
  | [] => true
  | j :: rest => isDocument j && isDocumentItems rest
termination_by structural x => x

def isDocumentFields : List (String × Json) → Bool
  | [] => true
  | f :: rest => isDocumentField f && isDocumentFields rest
termination_by structural x => x

def isDocumentField : String × Json → Bool
  | (_, v) => isDocument v
termination_by structural x => x
end

/-- `json.loads(text)`. -/
def loads (text : String) : Result Json :=
  match readValue (text.toList.length + 1) (skipSpace text.toList) with
  | some (v, rest) => if (skipSpace rest).isEmpty then .ok v else raiseValue "Extra data"
  | none => raiseValue "Expecting value"

end Json
end PortableRuntime
