import DocSchema.Json.Basic
import DocSchema.Fault
import DocSchema.Text.Hex

/-!
Reading JSON text.

A read either yields a value or stops at the first thing that cannot be read; the characters that
were left there give the line, column and offset of the message. Numbers without fraction and
exponent are unbounded integers, limited only in the count of their digits; all others are doubles.
The names `NaN`, `Infinity` and `-Infinity` are numbers to a lenient reader and refused by a strict
one. A repeated key keeps its first place and takes its last value.

Texts are sequences of Unicode scalar values. The escape of a lone surrogate, which is none, is read
as U+FFFD, so that two documents which differ only in lone surrogates are read alike: documents with
lone surrogates are outside the model.
-/

namespace DocSchema

/-- What was wrong with a JSON text. -/
inductive ReadProblem where
  | value
  | extra
  | propertyName
  | colon
  | comma
  | unterminated
  | control
  | escape
  | unicodeEscape
  | byteOrderMark
  deriving DecidableEq

/-- Why a text was not read. -/
inductive ReadError where
  | malformed (problem : ReadProblem) (line column offset : Nat)
  | constant (name : String)
  | tooManyDigits (count : Nat)
  deriving DecidableEq

def ReadProblem.text : ReadProblem → String
  | .value => "Expecting value"
  | .extra => "Extra data"
  | .propertyName => "Expecting property name enclosed in double quotes"
  | .colon => "Expecting ':' delimiter"
  | .comma => "Expecting ',' delimiter"
  | .unterminated => "Unterminated string starting at"
  | .control => "Invalid control character at"
  | .escape => "Invalid \\escape"
  | .unicodeEscape => "Invalid \\uXXXX escape"
  | .byteOrderMark => "Unexpected UTF-8 BOM (decode using utf-8-sig)"

namespace ReadError

def message : ReadError → String
  | .malformed problem line column offset =>
    s!"{problem.text}: line {line} column {column} (char {offset})"
  | .constant name => s!"{name} is not valid JSON"
  | .tooManyDigits count => ((Fault.tooManyDigits count).message?).getD ""

/-- The error for a problem found where `rest` was left of `text`. -/
def locate (text rest : List Char) (problem : ReadProblem) : ReadError :=
  let offset := text.length - rest.length
  let before := text.take offset
  let column := (before.reverse.takeWhile (· ≠ '\n')).length + 1
  .malformed problem (before.count '\n' + 1) column offset

end ReadError

namespace Reader

/-- Where and why reading stopped; a problem comes with what was left of the text. -/
inductive Halt where
  | problem (p : ReadProblem) (rest : List Char)
  | constant (name : String)
  | tooManyDigits (count : Nat)

def isSpace (c : Char) : Bool := c = ' ' || c = '\t' || c = '\n' || c = '\r'

def skipSpace : List Char → List Char
  | [] => []
  | c :: cs => if isSpace c then skipSpace cs else c :: cs

def isDecimal (c : Char) : Bool := '0' ≤ c && c ≤ '9'

/-- The number that decimal digits stand for. -/
def natOf (ds : List Char) : Nat := ds.foldl (fun n d => n * 10 + (d.toNat - '0'.toNat)) 0

/-! ### Strings -/

/-- The code of four hexadecimal digits that do not end the text. -/
def unit? : List Char → Option (Nat × List Char)
  | a :: b :: c :: d :: e :: rest => (hexValue? [a, b, c, d]).map (·, e :: rest)
  | _ => none

def isHighSurrogate (n : Nat) : Bool := 0xD800 ≤ n && n < 0xDC00

def isLowSurrogate (n : Nat) : Bool := 0xDC00 ≤ n && n < 0xE000

/-- A scalar value as a character; a lone surrogate becomes the replacement character. -/
def charOf (n : Nat) : Char :=
  if 0xD800 ≤ n ∧ n < 0xE000 then '\uFFFD' else Char.ofNat n

/-- The character of a `\u` escape, given what follows the `u`; two escapes that form a surrogate
pair are one character. -/
def unicodeEscape (rest : List Char) : Except Halt (Char × List Char) :=
  match unit? rest with
  | none => .error (.problem .unicodeEscape ('u' :: rest))
  | some (high, after) =>
    match after with
    | '\\' :: 'u' :: more =>
      if isHighSurrogate high ∧ 5 ≤ more.length then
        match unit? more with
        | none => .error (.problem .unicodeEscape ('u' :: more))
        | some (low, beyond) =>
          if isLowSurrogate low then
            .ok (Char.ofNat (0x10000 + (high - 0xD800) * 0x400 + (low - 0xDC00)), beyond)
          else .ok (charOf high, after)
      else .ok (charOf high, after)
    | _ => .ok (charOf high, after)

def simpleEscape? : Char → Option Char
  | '"' => some '"'
  | '\\' => some '\\'
  | '/' => some '/'
  | 'b' => some '\x08'
  | 'f' => some '\x0c'
  | 'n' => some '\n'
  | 'r' => some '\r'
  | 't' => some '\t'
  | _ => none

/-- The rest of a string whose opening quote starts `opening`; `done` is reversed. The fuel bounds
the number of characters. -/
def stringBody (opening : List Char) : Nat → List Char → List Char →
    Except Halt (String × List Char)
  | 0, _, _ => .error (.problem .unterminated opening)
  | _ + 1, _, [] => .error (.problem .unterminated opening)
  | _ + 1, done, '"' :: rest => .ok (String.ofList done.reverse, rest)
  | _ + 1, _, ['\\'] => .error (.problem .unterminated opening)
  | fuel + 1, done, '\\' :: 'u' :: rest =>
    match unicodeEscape rest with
    | .ok (c, rest) => stringBody opening fuel (c :: done) rest
    | .error h => .error h
  | fuel + 1, done, '\\' :: e :: rest =>
    match simpleEscape? e with
    | some c => stringBody opening fuel (c :: done) rest
    | none => .error (.problem .escape ('\\' :: e :: rest))
  | fuel + 1, done, c :: rest =>
    if c < ' ' then .error (.problem .control (c :: rest))
    else stringBody opening fuel (c :: done) rest

/-- A string, from its opening quote on. -/
def readString (opening rest : List Char) : Except Halt (String × List Char) :=
  stringBody opening (rest.length + 1) [] rest

/-! ### Numbers -/

/-- The parts of a number literal: sign, whole digits, fraction digits, exponent. -/
structure NumberParts where
  negative : Bool
  whole : List Char
  fraction : List Char
  exponent : Int
  isInt : Bool

/-- The fraction behind the whole part: a point and at least one digit. -/
def fractionPart (cs : List Char) : List Char × List Char :=
  match cs with
  | '.' :: rest =>
    let ds := rest.takeWhile isDecimal
    if ds.isEmpty then ([], cs) else (ds, rest.dropWhile isDecimal)
  | _ => ([], cs)

/-- The exponent behind the other parts: its mark, an optional sign and at least one digit. -/
def exponentPart (cs : List Char) : Option (Int × List Char) :=
  match cs with
  | c :: rest =>
    if c = 'e' ∨ c = 'E' then
      let (sign, digits) : Int × List Char := match rest with
        | '+' :: ds => (1, ds)
        | '-' :: ds => (-1, ds)
        | ds => (1, ds)
      let ds := digits.takeWhile isDecimal
      if ds.isEmpty then none else some (sign * natOf ds, digits.dropWhile isDecimal)
    else none
  | [] => none

/-- The digits before the point: a single zero, or digits that start with another. -/
def wholePart : List Char → Option (List Char × List Char)
  | '0' :: rest => some (['0'], rest)
  | c :: rest =>
    if isDecimal c then some (c :: rest.takeWhile isDecimal, rest.dropWhile isDecimal) else none
  | [] => none

/-- The parts of the number that the text starts with. -/
def numberParts (cs : List Char) : Option (NumberParts × List Char) :=
  let (negative, body) := match cs with
    | '-' :: rest => (true, rest)
    | _ => (false, cs)
  match wholePart body with
  | none => none
  | some (whole, rest) =>
    let (fraction, rest) := fractionPart rest
    match exponentPart rest with
    | some (e, rest) => some (⟨negative, whole, fraction, e, false⟩, rest)
    | none => some (⟨negative, whole, fraction, 0, fraction.isEmpty⟩, rest)

/-- The value of a number literal. -/
def NumberParts.value (p : NumberParts) : Except Halt Number :=
  if p.isInt then
    if digitLimit < p.whole.length then .error (.tooManyDigits p.whole.length)
    else
      let n : Int := natOf p.whole
      .ok (.int (if p.negative then -n else n))
  else
    .ok (.double (.ofDecimal p.negative (natOf (p.whole ++ p.fraction))
      (p.exponent - p.fraction.length)))

/-! ### Values -/

/-- A number by name: refused by a strict reader. -/
def constant (strict : Bool) (name : String) (x : Double) (rest : List Char) :
    Except Halt (Json × List Char) :=
  if strict then .error (.constant name) else .ok (.number (.double x), rest)

/-- A literal that is neither text nor a container. -/
def readScalar (strict : Bool) (cs : List Char) : Except Halt (Json × List Char) :=
  match cs with
  | 'n' :: 'u' :: 'l' :: 'l' :: rest => .ok (.null, rest)
  | 't' :: 'r' :: 'u' :: 'e' :: rest => .ok (.bool true, rest)
  | 'f' :: 'a' :: 'l' :: 's' :: 'e' :: rest => .ok (.bool false, rest)
  | 'N' :: 'a' :: 'N' :: rest => constant strict "NaN" .nan rest
  | 'I' :: 'n' :: 'f' :: 'i' :: 'n' :: 'i' :: 't' :: 'y' :: rest =>
    constant strict "Infinity" (.infinite false) rest
  | '-' :: 'I' :: 'n' :: 'f' :: 'i' :: 'n' :: 'i' :: 't' :: 'y' :: rest =>
    constant strict "-Infinity" (.infinite true) rest
  | _ =>
    match numberParts cs with
    | none => .error (.problem .value cs)
    | some (parts, rest) => parts.value.map (.number ·, rest)

mutual

/-- A value from the front of the text. -/
def readValue (strict : Bool) : Nat → List Char → Except Halt (Json × List Char)
  | 0, cs => .error (.problem .value cs)
  | fuel + 1, cs =>
    match cs with
    | '"' :: rest => (readString cs rest).map fun (s, rest) => (.string s, rest)
    | '[' :: rest =>
      match skipSpace rest with
      | ']' :: rest => .ok (.array [], rest)
      | rest => readItems strict fuel [] rest
    | '\x7b' :: rest =>
      match skipSpace rest with
      | '\x7d' :: rest => .ok (.object [], rest)
      | rest => readFields strict fuel [] rest
    | _ => readScalar strict cs

/-- The items of an array up to its end; `done` is reversed. -/
def readItems (strict : Bool) : Nat → List Json → List Char → Except Halt (Json × List Char)
  | 0, _, cs => .error (.problem .value cs)
  | fuel + 1, done, cs =>
    match readValue strict fuel cs with
    | .error h => .error h
    | .ok (v, rest) =>
      match skipSpace rest with
      | ']' :: rest => .ok (.array (v :: done).reverse, rest)
      | ',' :: rest => readItems strict fuel (v :: done) (skipSpace rest)
      | rest => .error (.problem .comma rest)

/-- The fields of an object up to its end. -/
def readFields (strict : Bool) : Nat → List (String × Json) → List Char →
    Except Halt (Json × List Char)
  | 0, _, cs => .error (.problem .value cs)
  | fuel + 1, done, cs =>
    match cs with
    | '"' :: rest =>
      match readString cs rest with
      | .error h => .error h
      | .ok (key, rest) =>
        match skipSpace rest with
        | ':' :: rest =>
          match readValue strict fuel (skipSpace rest) with
          | .error h => .error h
          | .ok (v, rest) =>
            match skipSpace rest with
            | '\x7d' :: rest => .ok (.object (put key v done), rest)
            | ',' :: rest => readFields strict fuel (put key v done) (skipSpace rest)
            | rest => .error (.problem .comma rest)
        | rest => .error (.problem .colon rest)
    | _ => .error (.problem .propertyName cs)

end

/-- A whole text: one value between white space. -/
def readAll (strict : Bool) (text : List Char) : Except Halt Json :=
  match text with
  | '\uFEFF' :: _ => .error (.problem .byteOrderMark text)
  | _ =>
    match readValue strict (2 * text.length + 2) (skipSpace text) with
    | .error h => .error h
    | .ok (v, rest) =>
      match skipSpace rest with
      | [] => .ok v
      | rest => .error (.problem .extra rest)

def Halt.toError (text : List Char) : Halt → ReadError
  | .problem p rest => .locate text rest p
  | .constant name => .constant name
  | .tooManyDigits count => .tooManyDigits count

end Reader

namespace Json

/-- Reads a JSON text; `strict` refuses numbers by name. -/
def read (strict : Bool) (text : String) : Except ReadError Json :=
  (Reader.readAll strict text.toList).mapError (Reader.Halt.toError text.toList)

end Json

end DocSchema
