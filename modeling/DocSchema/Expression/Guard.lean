import DocSchema.Expression.Comparison
import DocSchema.Expression.Scan
import DocSchema.Literal

/-!
Guards: the conditions of conditional types.

A guard `a.b.c = literal` or `a.b.c != literal` follows a path through nested objects. It is
indeterminate where the scope is no object, and false where the path leads nowhere.
-/

namespace DocSchema

/-- The meaning of a condition. -/
inductive Guard where
  | unrecognized (text : String)
  | path (segments : List String) (relation : Relation) (expected : Json)

/-- The value at the end of a path of keys. -/
def Json.follow : List String → Json → Option Json
  | [], v => some v
  | key :: rest, v => (v.get? key).bind (follow rest)

/-- The verdict of a guard on a scope. -/
def Guard.evaluate (g : Guard) (scope : Slot) : Verdict :=
  match g, scope with
  | .path segments relation expected, some (.object fields) =>
    match (Json.object fields).follow segments with
    | some v => some (relation.holds (some v) expected)
    | none => some false
  | _, _ => none

namespace Guard

open Expression

/-- Identifiers joined by points; the fuel bounds their number. -/
def segments? : Nat → List Char → Option (List (List Char) × List Char)
  | 0, _ => none
  | fuel + 1, cs =>
    match identifier? cs with
    | none => none
    | some (name, '.' :: rest) =>
      match segments? fuel rest with
      | some (names, rest) => some (name :: names, rest)
      | none => some ([name], '.' :: rest)
    | some (name, rest) => some ([name], rest)

/-- An equality operator and its operand text, which is not empty. -/
def operator? : List Char → Option (Relation × List Char)
  | '=' :: c :: cs => some (.equal, c :: cs)
  | '!' :: '=' :: c :: cs => some (.unequal, c :: cs)
  | _ => none

/-- The parts of a trimmed condition: path, operator, operand text. -/
def parts? (cs : List Char) : Option (List String × Relation × List Char) := do
  let (names, cs) ← segments? (cs.length + 1) cs
  let (relation, cs) ← operator? (trimStart cs)
  some (names.map String.ofList, relation, cs)

/-- The guard of a trimmed condition. -/
def ofTrimmed (cs : List Char) : Except Fault Guard :=
  match parts? cs with
  | some (names, relation, text) => (Literal.ofText text).map fun v => .path names relation v
  | none => .ok (.unrecognized (String.ofList cs))

def ofText (condition : String) : Except Fault Guard := ofTrimmed (trim condition.toList)

/-- The guard of a condition that may be any value; only text can be recognized. -/
def ofJson : Json → Except Fault Guard
  | .string condition => ofText condition
  | v => .ok (.unrecognized v.display)

end Guard

end DocSchema
