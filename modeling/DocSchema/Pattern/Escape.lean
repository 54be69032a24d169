import DocSchema.Pattern.Basic
import DocSchema.Pattern.Token
import DocSchema.Text.Hex
import DocSchema.Fault

/-!
Escapes and character classes of pattern sources.
-/

namespace DocSchema.Pattern

/-- Why a source is no pattern: it is malformed, or its reading broke off. -/
inductive SourceError where
  | malformed
  | repeatTooLarge
  | tooManyDigits (count : Nat)
  | conflictingModes
  deriving DecidableEq

/-- A reader of a token sequence: its result and what is left. -/
abbrev Read (α : Type) := Except SourceError (α × List Token)

def isOctal (c : Char) : Bool := '0' ≤ c && c ≤ '7'

def isDecimalDigit (c : Char) : Bool := '0' ≤ c && c ≤ '9'

def isAsciiLetter (c : Char) : Bool := 'a' ≤ c && c ≤ 'z' || 'A' ≤ c && c ≤ 'Z'

/-- Up to `n` plain characters that satisfy `p`, and the rest. -/
def takeChars (p : Char → Bool) : Nat → List Token → List Char × List Token
  | n + 1, .char c :: rest =>
    if p c then
      let (cs, rest) := takeChars p n rest
      (c :: cs, rest)
    else ([], .char c :: rest)
  | _, ts => ([], ts)

/-- The number that digits of a base stand for. -/
def valueIn (base : Nat) (ds : List Char) : Nat :=
  ds.foldl (fun n d => n * base + (hexDigit? d).getD 0) 0

/-- A code point of exactly `width` hexadecimal digits. -/
def hexCode (width : Nat) (ts : List Token) : Read Nat :=
  let (ds, rest) := takeChars (fun c => (hexDigit? c).isSome) width ts
  if ds.length = width ∧ valueIn 16 ds < 0x110000 then .ok (valueIn 16 ds, rest)
  else .error .malformed

/-- Escapes for a single control character, or for the backslash. -/
def controlCode? : Char → Option Nat
  | 'a' => some 7
  | 'b' => some 8
  | 'f' => some 12
  | 'n' => some 10
  | 'r' => some 13
  | 't' => some 9
  | 'v' => some 11
  | '\\' => some 92
  | _ => none

/-- Escapes for a category, capital when negated. -/
def category? : Char → Option (Bool × Category)
  | 'd' => some (false, .digit)
  | 'D' => some (true, .digit)
  | 's' => some (false, .space)
  | 'S' => some (true, .space)
  | 'w' => some (false, .word)
  | 'W' => some (true, .word)
  | _ => none

/-- Escapes that name a code point by hexadecimal digits, or stand for a character that is no
ASCII letter or digit. -/
def codeEscape (c : Char) (rest : List Token) : Read Nat :=
  if c = 'x' then hexCode 2 rest
  else if c = 'u' then hexCode 4 rest
  else if c = 'U' then hexCode 8 rest
  else if isAsciiLetter c || isDecimalDigit c then .error .malformed
  else .ok (c.toNat, rest)

/-! ### Classes -/

/-- An escape inside a class: up to three octal digits make a code point there. -/
def classEscape (c : Char) (rest : List Token) : Read ClassItem :=
  match controlCode? c, category? c with
  | some n, _ => .ok (.code n, rest)
  | none, some (negated, k) => .ok (.category negated k, rest)
  | none, none =>
    if isOctal c then
      let (ds, rest) := takeChars isOctal 2 rest
      let n := valueIn 8 (c :: ds)
      if n ≤ 0o377 then .ok (.code n, rest) else .error .malformed
    else (codeEscape c rest).map fun (n, rest) => (.code n, rest)

/-- One member of a class, before a possible range. -/
def classMember : List Token → Read ClassItem
  | .char c :: rest => .ok (.code c.toNat, rest)
  | .escape c :: rest => classEscape c rest
  | _ => .error .malformed

/-- The members of a class up to its end, in reverse order; a `]` in the first place is a member.
The fuel bounds the number of members. -/
def classItems : Nat → List ClassItem → List Token → Read (List ClassItem)
  | 0, _, _ => .error .malformed
  | fuel + 1, done, ts =>
    match ts, done with
    | .char ']' :: rest, _ :: _ => .ok (done, rest)
    | _, _ =>
      match classMember ts with
      | .error e => .error e
      | .ok (first, rest) =>
        match rest with
        | .char '-' :: .char ']' :: rest => .ok (.code 45 :: first :: done, rest)
        | .char '-' :: rest =>
          match classMember rest with
          | .error e => .error e
          | .ok (last, rest) =>
            match first, last with
            | .code a, .code b =>
              if b < a then .error .malformed else classItems fuel (.range a b :: done) rest
            | _, _ => .error .malformed
        | rest => classItems fuel (first :: done) rest

/-- A class, from behind its opening bracket on. -/
def charClass (ts : List Token) : Read Single :=
  let (negated, ts) := match ts with
    | .char '^' :: rest => (true, rest)
    | _ => (false, ts)
  match classItems (ts.length + 1) [] ts with
  | .error e => .error e
  | .ok (items, rest) =>
    match items.reverse.eraseDups with
    | [.code n] => .ok (.literal negated n, rest)
    | items => .ok (.oneOf negated items, rest)

end DocSchema.Pattern
