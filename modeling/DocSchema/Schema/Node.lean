import DocSchema.Expression.Guard

/-!
Type nodes: the expressions that a compiled schema is made of.

Names are JSON values, because a schema may put any value where a name belongs; only text ever names
anything. References are by name and are followed at each visit, which allows recursive types.
-/

namespace DocSchema

/-- The use of a constraint: its name, its call arguments, and a single argument besides, null if
there is none. -/
structure Usage where
  name : Json
  args : List Json
  argument : Json

/-- A condition with the guard it was read as. -/
structure Condition where
  text : Json
  guard : Guard
  isRead : Guard.ofJson text = .ok guard

/-- What a record says of a field besides its type; a default of null is none. -/
structure FieldHead where
  name : Json
  optional : Bool
  default : Json

/-- A type expression. -/
inductive Node where
  | named (name : Json) (constraints : List Usage)
  | nullableNamed (name : Json)
  | nullable (inner : Node)
  | arrayOf (item : Node) (constraints : List Usage)
  | record (fields : List (FieldHead × Node))
  | dict (key value : Node)
  | union (members : List Node)
  | intersection (members : List Node)
  | conditional (condition : Condition) (yes no : Node)
  | literal (value : Json)
  | absent

namespace Node

def isAbsent : Node → Bool
  | .absent => true
  | _ => false

/-- The name that a plain reference refers to. -/
def alias? : Node → Option Json
  | .named name _ => some name
  | .nullableNamed name => some name
  | _ => none

/-! ### Depth -/

mutual

/-- Nodes nested inside one another, a leaf counting as one. -/
def depth : Node → Nat
  | .nullable inner => 1 + inner.depth
  | .arrayOf item _ => 1 + item.depth
  | .record fields => 1 + depthFields fields
  | .dict key value => 1 + max key.depth value.depth
  | .union members => 1 + depthAll members
  | .intersection members => 1 + depthAll members
  | .conditional _ yes no => 1 + max yes.depth no.depth
  | .named .. | .nullableNamed _ | .literal _ | .absent => 1

def depthAll : List Node → Nat
  | [] => 0
  | n :: rest => max n.depth (depthAll rest)

def depthFields : List (FieldHead × Node) → Nat
  | [] => 0
  | (_, n) :: rest => max n.depth (depthFields rest)

end

end Node

end DocSchema
