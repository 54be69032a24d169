import DocSchema.Text.Hex

/-!
Strict reading of UTF-8, with the place and reason of the first fault.

The first octet of a character fixes how many octets are owed and the range of the second one;
that range excludes overlong forms, surrogates and code points past U+10FFFF. A fault covers the
octets that were acceptable so far.
-/

namespace DocSchema

/-- Why octets are no character. -/
inductive Utf8Problem where
  | invalidStart
  | invalidContinuation
  | unexpectedEnd
  deriving DecidableEq

/-- The first fault in a sequence of octets: its place, its first octet and its length. -/
structure Utf8Error where
  problem : Utf8Problem
  start : Nat
  octet : UInt8
  length : Nat
  deriving DecidableEq

namespace Utf8Problem

def text : Utf8Problem → String
  | .invalidStart => "invalid start byte"
  | .invalidContinuation => "invalid continuation byte"
  | .unexpectedEnd => "unexpected end of data"

end Utf8Problem

namespace Utf8Error

def message (e : Utf8Error) : String :=
  let extent := if e.length = 1 then
      s!"byte 0x{String.ofList (hexText 2 e.octet.toNat)} in position {e.start}"
    else s!"bytes in position {e.start}-{e.start + e.length - 1}"
  s!"'utf-8' codec can't decode {extent}: {e.problem.text}"

end Utf8Error

namespace Utf8

/-- What follows the first octet of a longer character: how many octets, the range of the first
of them, and the bits that the first octet contributes. -/
structure Lead where
  owed : Nat
  low : Nat
  high : Nat
  bits : Nat

def lead? (b : Nat) : Option Lead :=
  if b < 0xC2 then none
  else if b < 0xE0 then some ⟨1, 0x80, 0xBF, b - 0xC0⟩
  else if b = 0xE0 then some ⟨2, 0xA0, 0xBF, 0⟩
  else if b = 0xED then some ⟨2, 0x80, 0x9F, 0xD⟩
  else if b < 0xF0 then some ⟨2, 0x80, 0xBF, b - 0xE0⟩
  else if b = 0xF0 then some ⟨3, 0x90, 0xBF, 0⟩
  else if b < 0xF4 then some ⟨3, 0x80, 0xBF, b - 0xF0⟩
  else if b = 0xF4 then some ⟨3, 0x80, 0x8F, 4⟩
  else none

/-- Reads the owed octets; on a fault, says what it is and how many octets were acceptable. -/
def tail : Nat → Nat → Nat → Nat → Nat → List UInt8 →
    Except (Utf8Problem × Nat) (Nat × List UInt8)
  | 0, _, _, code, _, rest => .ok (code, rest)
  | _ + 1, _, _, _, seen, [] => .error (.unexpectedEnd, seen)
  | owed + 1, low, high, code, seen, b :: rest =>
    if low ≤ b.toNat ∧ b.toNat ≤ high then
      tail owed 0x80 0xBF (code * 64 + (b.toNat - 0x80)) (seen + 1) rest
    else .error (.invalidContinuation, seen)

/-- One character from the front of the octets that start at `place`, and where it ends. -/
def next (place : Nat) (b : UInt8) (rest : List UInt8) :
    Except Utf8Error (Char × Nat × List UInt8) :=
  if b.toNat < 0x80 then .ok (Char.ofNat b.toNat, place + 1, rest)
  else match lead? b.toNat with
    | none => .error ⟨.invalidStart, place, b, 1⟩
    | some lead =>
      match tail lead.owed lead.low lead.high lead.bits 1 rest with
      | .ok (code, rest) => .ok (Char.ofNat code, place + 1 + lead.owed, rest)
      | .error (problem, length) => .error ⟨problem, place, b, length⟩

/-- The characters of the octets from `place` on, in reverse order in front of `done`; the fuel
bounds their number. -/
def run : Nat → Nat → List UInt8 → List Char → Except Utf8Error (List Char)
  | _, _, [], done => .ok done.reverse
  | 0, _, _ :: _, done => .ok done.reverse
  | fuel + 1, place, b :: rest, done =>
    match next place b rest with
    | .ok (c, place, rest) => run fuel place rest (c :: done)
    | .error e => .error e

/-- The text that the octets encode. -/
def decode (octets : List UInt8) : Except Utf8Error String :=
  (run octets.length 0 octets []).map String.ofList

end Utf8

end DocSchema
