import DocSchema.Json.Basic
import DocSchema.Text.Hex

/-!
JSON text of a value.

A `TextStyle` fixes the separators and whether characters outside printable ASCII are escaped.
Characters beyond the basic plane are escaped as a surrogate pair. NaN and the infinities, which
JSON proper lacks, are written by name.
-/

namespace DocSchema.Json

/-- The choices a JSON text leaves open. -/
structure TextStyle where
  itemSeparator : List Char
  keySeparator : List Char
  asciiOnly : Bool

/-- Separators with a space, everything but printable ASCII escaped. -/
def spaced : TextStyle := ⟨[',', ' '], [':', ' '], true⟩

/-- Separators with a space, characters as they are. -/
def spacedUnicode : TextStyle := ⟨[',', ' '], [':', ' '], false⟩

/-- No spaces, characters as they are. -/
def compact : TextStyle := ⟨[','], [':'], false⟩

/-- An escape by one UTF-16 unit. -/
def unitEscape (n : Nat) : List Char := '\\' :: 'u' :: hexText 4 n

/-- An escape by code point, in two units beyond the basic plane. -/
def codeEscape (n : Nat) : List Char :=
  if n < 0x10000 then unitEscape n
  else unitEscape (0xD800 + (n - 0x10000) / 0x400) ++ unitEscape (0xDC00 + (n - 0x10000) % 0x400)

/-- A character leaves printable ASCII. -/
def leavesAscii (c : Char) : Bool := c < ' ' || '~' < c

/-- One character inside a JSON string. -/
def escapeChar (asciiOnly : Bool) : Char → List Char
  | '"' => ['\\', '"']
  | '\\' => ['\\', '\\']
  | '\n' => ['\\', 'n']
  | '\r' => ['\\', 'r']
  | '\t' => ['\\', 't']
  | '\x0c' => ['\\', 'f']
  | '\x08' => ['\\', 'b']
  | c => if c < ' ' || asciiOnly && leavesAscii c then codeEscape c.toNat else [c]

/-- A JSON string. -/
def stringText (asciiOnly : Bool) (s : String) : List Char :=
  '"' :: s.toList.flatMap (escapeChar asciiOnly) ++ ['"']

/-- The names of numbers that have no JSON text. -/
def numberNames : Double.SpecialNames := ⟨"NaN", "Infinity"⟩

def numberText : Number → List Char
  | .int n => (toString n).toList
  | .double x => (x.text numberNames).toList

mutual

/-- The JSON text of a value. -/
def write (style : TextStyle) : Json → List Char
  | .null => ['n', 'u', 'l', 'l']
  | .bool true => ['t', 'r', 'u', 'e']
  | .bool false => ['f', 'a', 'l', 's', 'e']
  | .number n => numberText n
  | .string s => stringText style.asciiOnly s
  | .array items => '[' :: writeItems style true items ++ [']']
  | .object fields => '\x7b' :: writeFields style true fields ++ ['\x7d']

/-- The items, each but the first behind a separator. -/
def writeItems (style : TextStyle) (first : Bool) : List Json → List Char
  | [] => []
  | v :: rest =>
    (if first then [] else style.itemSeparator) ++ write style v ++ writeItems style false rest

def writeFields (style : TextStyle) (first : Bool) : List (String × Json) → List Char
  | [] => []
  | (k, v) :: rest =>
    (if first then [] else style.itemSeparator) ++ stringText style.asciiOnly k ++
      style.keySeparator ++ write style v ++ writeFields style false rest

end

/-- The JSON text as a string. -/
def toText (style : TextStyle) (v : Json) : String := String.ofList (v.write style)

end DocSchema.Json
