import DocSchema.Expression.Comparison
import DocSchema.Json.Canonical
import DocSchema.Literal
import DocSchema.Number.Quotient
import DocSchema.Pattern.Literal

/-!
The builtin constraints: named tests of a value against an argument.

A constraint is indeterminate where the value or the argument is of a kind it does not apply to.
Arguments are operands: text is read as a literal, once more after the schema did.
-/

namespace DocSchema

/-- What a bound is compared with: the length of a text, a number, or the length of an array. -/
inductive Measure where
  | text
  | number
  | items
  deriving DecidableEq

/-- The builtin constraints. -/
inductive BuiltinConstraint where
  | atLeast (m : Measure)
  | atMost (m : Measure)
  | exactly (m : Measure)
  | pattern
  | startsWith
  | endsWith
  | between
  | multipleOf
  | unique
  deriving DecidableEq

/-- The measure of what is in a slot, if it has one. -/
def Measure.of : Measure → Slot → Option Number
  | .text, some (.string s) => some (.int s.length)
  | .number, some (.number n) => some n
  | .items, some (.array vs) => some (.int vs.length)
  | _, _ => none

namespace BuiltinConstraint

/-- An argument as a number, if it is one. -/
def numberOf (argument : Json) : Except Fault (Option Number) :=
  (Literal.coerce argument).map Json.number?

/-- An argument as a text, if it is one. -/
def textOf (argument : Json) : Except Fault (Option String) :=
  (Literal.coerce argument).map Json.string?

/-- Compares a measure with a numeric argument. -/
def bounded (m : Measure) (test : Number → Number → Bool) (s : Slot) (argument : Json) :
    Except Fault Verdict :=
  (numberOf argument).map fun bound =>
    match m.of s, bound with
    | some size, some bound => some (test size bound)
    | _, _ => none

/-- A number lies within two bounds, both included. -/
def enclosed (s : Slot) (argument : Json) : Except Fault Verdict :=
  match s, argument with
  | some (.number n), .array [low, high] => do
    match ← numberOf low, ← numberOf high with
    | some low, some high => .ok (some (low.le n && n.le high))
    | _, _ => .ok none
  | _, _ => .ok none

/-- A number is a multiple of a step that is not zero. -/
def divisible (s : Slot) (argument : Json) : Except Fault Verdict := do
  match ← numberOf argument, s with
  | some step, some (.number n) =>
    if step.isZero then .ok none else (n.multipleOf step).map some
  | _, _ => .ok none

/-- An argument that starts with a slash and has another one is a pattern literal; any other text
is a source. -/
def patternOf (text : List Char) : Except Fault (Option Pattern) :=
  match text with
  | '/' :: rest => if rest.contains '/' then Pattern.compileLiteral text else Pattern.compile text []
  | _ => Pattern.compile text []

/-- A pattern is found in a text. -/
def matched (s : Slot) (argument : Json) : Except Fault Verdict := do
  match ← textOf argument, s with
  | some source, some (.string text) =>
    (patternOf source.toList).map fun p => p.map (·.found text)
  | _, _ => .ok none

/-- Compares a text with a textual argument. -/
def affixed (test : List Char → List Char → Bool) (s : Slot) (argument : Json) :
    Except Fault Verdict :=
  (textOf argument).map fun affix =>
    match s, affix with
    | some (.string text), some affix => some (test affix.toList text.toList)
    | _, _ => none

/-- No text occurs twice. -/
def allDifferent : List String → Bool
  | [] => true
  | t :: rest => !rest.contains t && allDifferent rest

/-- No two items have the same canonical text, unless the argument turns the test off. -/
def distinct (s : Slot) (argument : Json) : Except Fault Verdict :=
  match s with
  | some (.array items) =>
    (Literal.coerce argument).map fun
      | .bool false => some true
      | _ => some (allDifferent (items.map Json.canonicalText))
  | _ => .ok none

/-- The verdict of a constraint on what is in a slot. -/
def evaluate : BuiltinConstraint → Slot → Json → Except Fault Verdict
  | .atLeast m, s, a => bounded m (fun size bound => bound.le size) s a
  | .atMost m, s, a => bounded m (fun size bound => size.le bound) s a
  | .exactly m, s, a => bounded m (fun size bound => size.eq bound) s a
  | .pattern, s, a => matched s a
  | .startsWith, s, a => affixed (fun affix text => affix.isPrefixOf text) s a
  | .endsWith, s, a => affixed (fun affix text => affix.isSuffixOf text) s a
  | .between, s, a => enclosed s a
  | .multipleOf, s, a => divisible s a
  | .unique, s, a => distinct s a

/-! ### The catalog -/

/-- The constraints of textual types. -/
def onText : List (String × BuiltinConstraint) :=
  [("min", .atLeast .text), ("max", .atMost .text), ("length", .exactly .text),
    ("pattern", .pattern), ("startsWith", .startsWith), ("endsWith", .endsWith)]

/-- The constraints of numeric types. -/
def onNumbers : List (String × BuiltinConstraint) :=
  [("min", .atLeast .number), ("max", .atMost .number), ("between", .between),
    ("multipleOf", .multipleOf)]

/-- The constraints of arrays. -/
def onArrays : List (String × BuiltinConstraint) :=
  [("min", .atLeast .items), ("max", .atMost .items), ("length", .exactly .items),
    ("unique", .unique)]

/-- The constraints by target type. -/
def catalog : List (String × List (String × BuiltinConstraint)) :=
  [("String", onText), ("DateTime", onText), ("Date", onText), ("Int", onNumbers),
    ("Float", onNumbers), ("Number", onNumbers), ("Array", onArrays)]

/-- The builtin constraint of a target type and a name. -/
def find? (target name : String) : Option BuiltinConstraint :=
  (lookup target catalog).bind (lookup name)

end BuiltinConstraint

end DocSchema
