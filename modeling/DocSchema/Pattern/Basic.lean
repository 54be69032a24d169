import DocSchema.Character.Blank
import DocSchema.Character.Digit
import DocSchema.Character.Word
import DocSchema.Character.Case

/-!
Patterns: what a regular expression means, free of its notation.

Flags are settled while a pattern is read, so every leaf carries the `Mode` in which it matches.
Characters in a pattern are code points, since a pattern may name one that is no character.
-/

namespace DocSchema

namespace Pattern

/-- How a leaf matches: whether case is ignored, whether the character classes are those of ASCII,
whether the dot matches a line feed, and whether `^` and `$` match at every line. -/
structure Mode where
  ignoreCase : Bool
  ascii : Bool
  dotAll : Bool
  multiline : Bool
  deriving DecidableEq

/-- The character categories with an escape of their own. -/
inductive Category where
  | digit
  | space
  | word
  deriving DecidableEq

/-- A member of a character class. -/
inductive ClassItem where
  | code (n : Nat)
  | range (first last : Nat)
  | category (negated : Bool) (c : Category)
  deriving DecidableEq

/-- What matches exactly one character. -/
inductive Single where
  | any
  | literal (negated : Bool) (n : Nat)
  | category (negated : Bool) (c : Category)
  | oneOf (negated : Bool) (items : List ClassItem)
  deriving DecidableEq

/-- What matches between two characters. -/
inductive Anchor where
  | lineStart
  | lineEnd
  | textStart
  | textEnd
  | boundary
  | noBoundary
  deriving DecidableEq

/-- In which order a repetition tries its counts, and whether it reconsiders. -/
inductive Greed where
  | greedy
  | lazy
  | possessive
  deriving DecidableEq

end Pattern

/-- A pattern. -/
inductive Pattern where
  | empty
  | one (mode : Pattern.Mode) (what : Pattern.Single)
  | anchor (mode : Pattern.Mode) (a : Pattern.Anchor)
  | seq (p q : Pattern)
  | alt (p q : Pattern)
  | group (n : Nat) (p : Pattern)
  | times (greed : Pattern.Greed) (min : Nat) (max : Option Nat) (p : Pattern)
  | atomic (p : Pattern)
  | ahead (negative : Bool) (p : Pattern)
  | behind (negative : Bool) (width : Nat) (p : Pattern)
  | backref (mode : Pattern.Mode) (n : Nat)
  | ifGroup (n : Nat) (yes no : Pattern)

namespace Pattern

/-! ### Single characters -/

def Category.holds (ascii : Bool) : Category → Char → Bool
  | .digit, c => if ascii then '0' ≤ c && c ≤ '9' else isDigit c
  | .space, c =>
    if ascii then c = ' ' || '\t' ≤ c && c ≤ '\r' else isBlank c
  | .word, c =>
    if ascii then c.isAlphanum || c = '_' else isWord c

/-- The lower case of a character, in the mode's character set. -/
def Mode.lower (mode : Mode) (c : Char) : Nat :=
  if mode.ascii then lowerAscii c.toNat else lowerCode c.toNat

/-- The code points that stand for a character in the mode. -/
def Mode.variants (mode : Mode) (c : Char) : List Nat :=
  if !mode.ignoreCase then [c.toNat]
  else if mode.ascii then caseVariantsAscii (mode.lower c)
  else caseVariants (mode.lower c)

/-- A class compares code points beyond the basic plane with the lower case alone. -/
def ClassItem.holds (mode : Mode) (c : Char) : ClassItem → Bool
  | .code n =>
    if mode.ignoreCase && 0x10000 ≤ n then mode.lower c = n else (mode.variants c).contains n
  | .range first last => (mode.variants c).any fun n => first ≤ n && n ≤ last
  | .category negated k => k.holds mode.ascii c != negated

def Single.holds (mode : Mode) (c : Char) : Single → Bool
  | .any => mode.dotAll || c != '\n'
  | .literal negated n => (mode.variants c).contains n != negated
  | .category negated k => k.holds mode.ascii c != negated
  | .oneOf negated items => items.any (·.holds mode c) != negated

/-! ### Widths -/

/-- Widths are counted up to this bound, which stands for every larger one. -/
def maxWidth : Nat := Nat.pow 2 64

/-- The least and the greatest number of characters that a pattern consumes, given the widths of
the groups it refers back to. -/
def widths (group : Nat → Nat × Nat) : Pattern → Nat × Nat
  | .empty | .anchor .. | .ahead .. | .behind .. => (0, 0)
  | .one .. => (1, 1)
  | .seq p q =>
    let (a, b) := p.widths group
    let (c, d) := q.widths group
    (min (a + c) maxWidth, min (b + d) maxWidth)
  | .alt p q | .ifGroup _ p q =>
    let (a, b) := p.widths group
    let (c, d) := q.widths group
    (min a c, max b d)
  | .group _ p | .atomic p => p.widths group
  | .times _ least most p =>
    let (a, b) := p.widths group
    (min (a * least) maxWidth,
      match most with
      | some n => min (b * n) maxWidth
      | none => if b = 0 then 0 else maxWidth)
  | .backref _ n => group n

end Pattern

end DocSchema
