import DocSchema.Builtin.Calendar
import DocSchema.Json.Slot
import DocSchema.Fault

/-!
The builtin types: names with a predicate on what stands in a slot.

A number is of a numeric type if it is finite. Whether an integer is finite is asked of the nearest
double, so an integer beyond every double has no answer.
-/

namespace DocSchema

/-- The builtin types, in the order of the catalog. -/
inductive BuiltinType where
  | any
  | null
  | bool
  | int
  | float
  | number
  | string
  | object
  | dateTime
  | date
  deriving DecidableEq

namespace BuiltinType

def all : List BuiltinType :=
  [.any, .null, .bool, .int, .float, .number, .string, .object, .dateTime, .date]

def name : BuiltinType → String
  | .any => "Any"
  | .null => "Null"
  | .bool => "Bool"
  | .int => "Int"
  | .float => "Float"
  | .number => "Number"
  | .string => "String"
  | .object => "Object"
  | .dateTime => "DateTime"
  | .date => "Date"

/-- The builtin type of a name. -/
def ofName? (n : String) : Option BuiltinType := all.find? (·.name = n)

/-- A number has a finite double; an integer beyond every double has no answer. -/
def isFinite (n : Number) : Except Fault Bool :=
  if n.overflows then .error .tooLarge
  else match n with
    | .int _ => .ok true
    | .double x => .ok x.isFinite

/-- What is in the slot is a finite number. -/
def acceptsNumber : Slot → Except Fault Bool
  | some (.number n) => isFinite n
  | _ => .ok false

/-- What is in the slot is a finite number that equals an integer. -/
def acceptsInt : Slot → Except Fault Bool
  | some (.number n) => (isFinite n).map (· && n.toInt?.isSome)
  | _ => .ok false

def acceptsText (p : String → Bool) : Slot → Bool
  | some (.string s) => p s
  | _ => false

/-- The type accepts what is in the slot. -/
def accepts : BuiltinType → Slot → Except Fault Bool
  | .any, _ => .ok true
  | .null, s => .ok (match s with | some .null => true | _ => false)
  | .bool, s => .ok (match s with | some (.bool _) => true | _ => false)
  | .int, s => acceptsInt s
  | .float, s => acceptsNumber s
  | .number, s => acceptsNumber s
  | .string, s => .ok (acceptsText (fun _ => true) s)
  | .object, s => .ok (match s with | some (.object _) => true | _ => false)
  | .dateTime, s => .ok (acceptsText Calendar.isDateTime s)
  | .date, s => .ok (acceptsText Calendar.isDate s)

end BuiltinType

end DocSchema
