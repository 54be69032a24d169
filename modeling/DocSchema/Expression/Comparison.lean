import DocSchema.Json.Slot
import DocSchema.Fault

/-!
Comparisons between values.

Equality is `Json.same`. The four orders hold only between two numbers, by exact value, or between
two texts, by code points; across kinds and on all other values they are false.
-/

namespace DocSchema

/-- True, false, or indeterminate. -/
abbrev Verdict := Option Bool

/-- The comparison operators. -/
inductive Relation where
  | equal
  | unequal
  | less
  | greater
  | atMost
  | atLeast
  deriving DecidableEq

namespace Relation

def text : Relation → String
  | .equal => "="
  | .unequal => "!="
  | .less => "<"
  | .greater => ">"
  | .atMost => "<="
  | .atLeast => ">="

def all : List Relation := [.equal, .unequal, .less, .greater, .atMost, .atLeast]

def ofText? (s : String) : Option Relation := all.find? (·.text = s)

/-- An order between numbers. -/
def ordersNumbers : Relation → Number → Number → Bool
  | .less, a, b => a.lt b
  | .greater, a, b => b.lt a
  | .atMost, a, b => a.le b
  | .atLeast, a, b => b.le a
  | _, _, _ => false

/-- An order between texts. -/
def ordersTexts : Relation → String → String → Bool
  | .less, a, b => a < b
  | .greater, a, b => b < a
  | .atMost, a, b => a < b || a == b
  | .atLeast, a, b => b < a || a == b
  | _, _, _ => false

/-- The relation holds between what is in a slot and a value. -/
def holds (r : Relation) (left : Slot) (right : Json) : Bool :=
  match r with
  | .equal => left.holds right
  | .unequal => !left.holds right
  | r =>
    match left, right with
    | some (.number a), .number b => r.ordersNumbers a b
    | some (.string a), .string b => r.ordersTexts a b
    | _, _ => false

end Relation

/-- Compares by the text of an operator; an unknown operator holds nowhere. -/
def compareBy (op : String) (left right : Json) : Bool :=
  match Relation.ofText? op with
  | some r => r.holds (some left) right
  | none => false

end DocSchema
