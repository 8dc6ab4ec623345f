import PortableRuntime.Python.Json

/-!
# JSON texts

`json.dumps` of a value, with its separators, its order of keys and its escapes.
-/

namespace PortableRuntime

structure JsonStyle where
  ensureAscii : Bool := true
  itemSeparator : String := ", "
  keySeparator : String := ": "
  sortKeys : Bool := false

namespace Text

/-- `\u` and four digits. -/
def unicodeEscape (n : Nat) : List Char :=
  [backslash, 'u', hexDigit (n / 4096 % 16), hexDigit (n / 256 % 16), hexDigit (n / 16 % 16),
    hexDigit (n % 16)]

/-- One character inside a JSON string; above the first plane it is two escapes. -/
def jsonChar (ensureAscii : Bool) (c : Char) : List Char :=
  let n := c.toNat
  if c == doubleQuote || c == backslash then [backslash, c]
  else if n == 8 then [backslash, 'b']
  else if n == 9 then [backslash, 't']
  else if n == 10 then [backslash, 'n']
  else if n == 12 then [backslash, 'f']
  else if n == 13 then [backslash, 'r']
  else if n < 32 then unicodeEscape n
  else if n < 127 || !ensureAscii then [c]
  else if n < 0x10000 then unicodeEscape n
  else unicodeEscape (0xd800 + (n - 0x10000) / 0x400) ++
    unicodeEscape (0xdc00 + (n - 0x10000) % 0x400)

def jsonString (ensureAscii : Bool) (s : String) : String :=
  String.ofList (doubleQuote :: s.toList.flatMap (jsonChar ensureAscii) ++ [doubleQuote])

end Text

namespace Json

mutual
/-- `json.dumps(j)`. -/
def dumps (style : JsonStyle) : Json → String
  | .null => "null"
  | .bool true => "true"
  | .bool false => "false"
  | .int n => toString n
  | .float _ text => text
  | .str s => Text.jsonString style.ensureAscii s
  | .datetime t => Text.jsonString style.ensureAscii (Text.dateTime t ++ "Z")
  | .arr items => "[" ++ Text.join style.itemSeparator (dumpsItems style items) ++ "]"
  | .obj fields =>
    let members := dumpsFields style fields
    let members := if style.sortKeys then members.insertionSort (·.1 ≤ ·.1) else members
    "\x7b" ++ Text.join style.itemSeparator (members.map (fun m =>
      Text.jsonString style.ensureAscii m.1 ++ style.keySeparator ++ m.2)) ++ "\x7d"
termination_by structural x => x

def dumpsItems (style : JsonStyle) : List Json → List String
  | [] => []
  | j :: rest => dumps style j :: dumpsItems style rest
termination_by structural x => x

def dumpsFields (style : JsonStyle) : List (String × Json) → List (String × String)
  | [] => []
  | f :: rest => dumpsField style f :: dumpsFields style rest
termination_by structural x => x

def dumpsField (style : JsonStyle) : String × Json → String × String
  | (name, v) => (name, dumps style v)
termination_by structural x => x
end

/-- A line feed and the indentation of a level. -/
def newLine (indent level : Nat) : String :=
  String.ofList (Char.ofNat 10 :: List.replicate (indent * level) ' ')

/-- The parts of an array or an object between their brackets, one a line. -/
def bracketed (indent level : Nat) (opening closing : String) (parts : List String) : String :=
  if parts.isEmpty then opening ++ closing
  else opening ++ newLine indent (level + 1) ++
    Text.join ("," ++ newLine indent (level + 1)) parts ++ newLine indent level ++ closing

mutual
/-- `json.dumps(j, indent=indent)` of a value that stands at a level. -/
def dumpsIndented (style : JsonStyle) (indent level : Nat) : Json → String
  | .arr items =>
    bracketed indent level "[" "]" (dumpsIndentedItems style indent (level + 1) items)
  | .obj fields =>
    bracketed indent level "\x7b" "\x7d" (dumpsIndentedFields style indent (level + 1) fields)
  | j => dumps style j
termination_by structural x => x

def dumpsIndentedItems (style : JsonStyle) (indent level : Nat) : List Json → List String
  | [] => []
  | j :: rest => dumpsIndented style indent level j :: dumpsIndentedItems style indent level rest
termination_by structural x => x

def dumpsIndentedFields (style : JsonStyle) (indent level : Nat) :
    List (String × Json) → List String
  | [] => []
  | f :: rest =>
    dumpsIndentedField style indent level f :: dumpsIndentedFields style indent level rest
termination_by structural x => x

def dumpsIndentedField (style : JsonStyle) (indent level : Nat) : String × Json → String
  | (name, v) => Text.jsonString style.ensureAscii name ++ style.keySeparator ++
      dumpsIndented style indent level v
termination_by structural x => x
end

end Json
end PortableRuntime
