import DocSchema.Expression.Comparison
import DocSchema.Expression.Scan
import DocSchema.Pattern.Literal
import DocSchema.Literal

/-!
Rules: the bodies of custom validators.

A body has one of four shapes: `this matches /…/flags`, the same inside `not (…)`,
`this op $p and this op $q` with orders, and `this op operand`. Any other text is unrecognized and
decides nothing. A rule is read once and evaluated against the value under `this` and the bound
parameters.
-/

namespace DocSchema

/-- The right-hand side of a comparison: a value, or a parameter by name. -/
inductive Operand where
  | value (v : Json)
  | parameter (name : String)

/-- `this op operand`. -/
structure Comparison where
  relation : Relation
  operand : Operand

/-- The meaning of a validator body. -/
inductive Rule where
  | unrecognized (text : String)
  | matching (source : String) (pattern : Option Pattern) (negated : Bool)
  | comparison (c : Comparison)
  | allOf (parts : List Comparison)

/-- Parameters bound to values; a name may be any value that can be a key. -/
abbrev Bindings := List (Json × Json)

namespace Bindings

/-- The value bound to a name, null if there is none. -/
def valueOf (b : Bindings) (name : String) : Json :=
  match b with
  | [] => .null
  | (.string k, v) :: rest => if k = name then v else valueOf rest name
  | _ :: rest => valueOf rest name

end Bindings

/-! ### Evaluation -/

def Operand.resolve (b : Bindings) : Operand → Json
  | .value v => v
  | .parameter name => b.valueOf name

def Comparison.holds (c : Comparison) (subject : Slot) (b : Bindings) : Bool :=
  c.relation.holds subject (c.operand.resolve b)

/-- The verdict of a rule on what stands under `this`. -/
def Rule.evaluate (r : Rule) (subject : Slot) (b : Bindings) : Verdict :=
  match r with
  | .unrecognized _ => none
  | .matching _ none _ => none
  | .matching _ (some p) negated => some (p.found subject.patternText != negated)
  | .comparison c => some (c.holds subject b)
  | .allOf parts => some (parts.all (·.holds subject b))

/-! ### Reading -/

namespace Rule

open Expression

/-- `this`, white space, `matches`, white space, and what follows. -/
def afterMatches? (cs : List Char) : Option (List Char) := do
  let cs ← after? "this".toList cs
  let cs ← afterBlanks? cs
  let cs ← after? "matches".toList cs
  afterBlanks? cs

/-- The pattern literal of `this matches /…/flags`. -/
def matching? (cs : List Char) : Option (List Char) := do
  let source ← afterMatches? cs
  if (Pattern.splitLiteral source).isSome then some source else none

/-- The pattern literal of `not (this matches /…/flags)`. -/
def negated? (cs : List Char) : Option (List Char) := do
  let cs ← after? "not".toList cs
  let cs ← after? ['('] (trimStart cs)
  let cs ← afterMatches? (trimStart cs)
  if cs.getLast? = some ')' then
    let source := trimEnd cs.dropLast
    if (Pattern.splitLiteral source).isSome then some source else none
  else none

/-- An order operator at the front. -/
def order? : List Char → Option (Relation × List Char)
  | '<' :: '=' :: cs => some (.atMost, cs)
  | '>' :: '=' :: cs => some (.atLeast, cs)
  | '<' :: cs => some (.less, cs)
  | '>' :: cs => some (.greater, cs)
  | _ => none

/-- `this op $name` with an order. -/
def bound? (cs : List Char) : Option (Comparison × List Char) := do
  let cs ← after? "this".toList cs
  let (relation, cs) ← order? (trimStart cs)
  let cs ← after? ['$'] (trimStart cs)
  let (name, cs) ← identifier? cs
  some (⟨relation, .parameter (String.ofList name)⟩, cs)

/-- Two bounds joined by `and`. -/
def range? (cs : List Char) : Option (List Comparison) := do
  let (first, cs) ← bound? cs
  let cs ← afterBlanks? cs
  let cs ← after? "and".toList cs
  let cs ← afterBlanks? cs
  let (second, cs) ← bound? cs
  if cs.isEmpty then some [first, second] else none

/-- An operator and its operand text. The longest operator that leaves an operand is taken. -/
def operator? : List Char → Option (Relation × List Char)
  | '<' :: '=' :: c :: cs => some (.atMost, c :: cs)
  | '>' :: '=' :: c :: cs => some (.atLeast, c :: cs)
  | '<' :: c :: cs => some (.less, c :: cs)
  | '>' :: c :: cs => some (.greater, c :: cs)
  | '=' :: c :: cs => some (.equal, c :: cs)
  | '!' :: '=' :: c :: cs => some (.unequal, c :: cs)
  | _ => none

/-- A `$` and what follows it name a parameter; any other text is a literal. -/
def operand (cs : List Char) : Except Fault Operand :=
  match trim cs with
  | '$' :: name => .ok (.parameter (String.ofList name))
  | cs => (Literal.ofText cs).map .value

/-- The operator and operand text of `this op operand`. -/
def compared? (cs : List Char) : Option (Relation × List Char) := do
  let cs ← after? "this".toList cs
  operator? (trimStart cs)

/-- A pattern test. -/
def ofSource (source : List Char) (negated : Bool) : Except Fault Rule :=
  (Pattern.compileLiteral source).map fun p => .matching (String.ofList source) p negated

/-- The rule of a trimmed body. -/
def ofTrimmed (cs : List Char) : Except Fault Rule :=
  match negated? cs, matching? cs, range? cs, compared? cs with
  | some source, _, _, _ => ofSource source true
  | none, some source, _, _ => ofSource source false
  | none, none, some parts, _ => .ok (.allOf parts)
  | none, none, none, some (relation, text) =>
    (operand text).map fun o => .comparison ⟨relation, o⟩
  | none, none, none, none => .ok (.unrecognized (String.ofList cs))

/-- The rule of a body. -/
def ofText (body : String) : Except Fault Rule := ofTrimmed (trim body.toList)

/-- The rule of a body that may be any value; only text can be recognized. -/
def ofJson : Json → Except Fault Rule
  | .string body => ofText body
  | v => .ok (.unrecognized v.display)

end Rule

end DocSchema
