import DocSchema.Character.Printable
import DocSchema.Text.Hex

/-!
Quoted text for messages.

A text is quoted with apostrophes, or with double quotes if it holds an apostrophe and no double
quote. Backslashes and the chosen quote are escaped, tab, line feed and carriage return have short
escapes, and every other character that is not printable is written by its code point with two,
four or eight hexadecimal digits.
-/

namespace DocSchema

namespace Quoted

/-- An escape by code point, as narrow as the code point allows. -/
def codeEscape (n : Nat) : List Char :=
  if n < 0x100 then '\\' :: 'x' :: hexText 2 n
  else if n < 0x10000 then '\\' :: 'u' :: hexText 4 n
  else '\\' :: 'U' :: hexText 8 n

/-- One character between the given quotes. -/
def escape (quote c : Char) : List Char :=
  if c = quote ∨ c = '\\' then ['\\', c]
  else match c with
    | '\t' => ['\\', 't']
    | '\n' => ['\\', 'n']
    | '\r' => ['\\', 'r']
    | c => if isPrintable c then [c] else codeEscape c.toNat

/-- The quote that needs the fewest escapes, an apostrophe if both do. -/
def quoteFor (cs : List Char) : Char :=
  if cs.contains '\'' && !cs.contains '"' then '"' else '\''

/-- The quoted form of a text. -/
def text (cs : List Char) : List Char :=
  let q := quoteFor cs
  q :: cs.flatMap (escape q) ++ [q]

end Quoted

/-- The quoted form of a string. -/
def quoted (s : String) : String := String.ofList (Quoted.text s.toList)

end DocSchema
