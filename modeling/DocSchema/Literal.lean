import DocSchema.Json.Basic
import DocSchema.Fault
import DocSchema.Character.Blank
import DocSchema.Character.Digit

/-!
Literals: the typed values that operand texts stand for.

Arguments, parameter defaults and the right-hand sides of expressions are raw text. Trimmed, such a
text is a keyword, a number, a quoted string, or itself. Digits of every script count.
-/

namespace DocSchema.Literal

/-! ### Quoted strings -/

/-- What a character means behind a backslash: line feed, return and tab by letter, itself else. -/
def unescape : Char → Char
  | 'n' => '\n'
  | 'r' => '\r'
  | 't' => '\t'
  | c => c

/-- Decodes backslash escapes; a backslash at the very end is dropped. -/
def decodeEscapes : List Char → List Char
  | [] => []
  | ['\\'] => []
  | '\\' :: c :: rest => unescape c :: decodeEscapes rest
  | c :: rest => c :: decodeEscapes rest

/-- The text between the first and the last character, decoded. -/
def decodeQuoted (cs : List Char) : List Char := decodeEscapes (cs.drop 1).dropLast

/-- The text starts and ends with the same quote. -/
def isQuoted : List Char → Bool
  | '"' :: rest => rest.getLast? = some '"'
  | '\'' :: rest => rest.getLast? = some '\''
  | _ => false

/-! ### Numbers -/

/-- The number that digits of any script stand for. -/
def digitsValue (ds : List Char) : Nat := ds.foldl (fun n d => n * 10 + (digit? d).getD 0) 0

/-- A number literal: an optional minus, whole digits, and the digits behind a point, if any. -/
structure NumberText where
  negative : Bool
  whole : List Char
  fraction : List Char

/-- Digits, or digits, a point and digits. -/
def unsigned? (cs : List Char) : Option (List Char × List Char) :=
  let whole := cs.takeWhile isDigit
  if whole.isEmpty then none
  else match cs.dropWhile isDigit with
    | [] => some (whole, [])
    | '.' :: fraction =>
      if !fraction.isEmpty && fraction.all isDigit then some (whole, fraction) else none
    | _ => none

def numberText? : List Char → Option NumberText
  | '-' :: rest => (unsigned? rest).map fun (w, f) => ⟨true, w, f⟩
  | cs => (unsigned? cs).map fun (w, f) => ⟨false, w, f⟩

/-- An integer, or a double if there is a fraction. -/
def NumberText.value (t : NumberText) : Except Fault Number :=
  if t.fraction.isEmpty then
    if digitLimit < t.whole.length then .error (.tooManyDigits t.whole.length)
    else
      let n : Int := digitsValue t.whole
      .ok (.int (if t.negative then -n else n))
  else
    .ok (.double (.ofDecimal t.negative (digitsValue (t.whole ++ t.fraction))
      (-(t.fraction.length : Int))))

/-! ### Coercion -/

/-- The typed value of a trimmed text. -/
def ofTrimmed (cs : List Char) : Except Fault Json :=
  if cs = ['t', 'r', 'u', 'e'] then .ok (.bool true)
  else if cs = ['f', 'a', 'l', 's', 'e'] then .ok (.bool false)
  else if cs = ['n', 'u', 'l', 'l'] then .ok .null
  else match numberText? cs with
    | some t => t.value.map .number
    | none =>
      if isQuoted cs then .ok (.string (String.ofList (decodeQuoted cs)))
      else .ok (.string (String.ofList cs))

/-- The typed value of an operand text. -/
def ofText (cs : List Char) : Except Fault Json := ofTrimmed (trim cs)

/-- The typed value of an operand: text is read as a literal, anything else is a value already. -/
def coerce : Json → Except Fault Json
  | .string s => ofText s.toList
  | v => .ok v

end DocSchema.Literal
