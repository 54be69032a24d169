import DocSchema.Number.Basic

/-!
JSON values.

An object is a list of keys and values in the order in which the keys first appeared. The reader
never yields a key twice (`Json.put`); `Json.Distinct` says so for a whole value.
-/

namespace DocSchema

/-- A decoded JSON value. -/
inductive Json where
  | null
  | bool (b : Bool)
  | number (n : Number)
  | string (s : String)
  | array (items : List Json)
  | object (fields : List (String × Json))

/-- The value under a key, by its first occurrence. -/
def lookup {α : Type} (key : String) : List (String × α) → Option α
  | [] => none
  | (k, v) :: rest => if k = key then some v else lookup key rest

/-- Puts a value under a key: in place if the key is there, at the end if not. -/
def put {α : Type} (key : String) (value : α) : List (String × α) → List (String × α)
  | [] => [(key, value)]
  | (k, v) :: rest => if k = key then (key, value) :: rest else (k, v) :: put key value rest

namespace Json

def int (n : Int) : Json := .number (.int n)

/-- The value under a key of an object. -/
def get? (key : String) : Json → Option Json
  | .object fields => lookup key fields
  | _ => none

/-- The value under a key of an object, null if there is none. -/
def getD (key : String) (v : Json) : Json := (v.get? key).getD .null

def isNull : Json → Bool
  | .null => true
  | _ => false

def isObject : Json → Bool
  | .object _ => true
  | _ => false

def number? : Json → Option Number
  | .number n => some n
  | _ => none

def string? : Json → Option String
  | .string s => some s
  | _ => none

/-- False for null, false, zero, and empty text, arrays and objects; true for the rest. -/
def truthy : Json → Bool
  | .null => false
  | .bool b => b
  | .number n => !n.isZero
  | .string s => !s.isEmpty
  | .array items => !items.isEmpty
  | .object fields => !fields.isEmpty

/-! ### Kinds -/

/-- The six kinds of JSON value. -/
inductive Kind where
  | null
  | boolean
  | number
  | string
  | array
  | object
  deriving DecidableEq

def kind : Json → Kind
  | .null => .null
  | .bool _ => .boolean
  | .number _ => .number
  | .string _ => .string
  | .array _ => .array
  | .object _ => .object

def Kind.name : Kind → String
  | .null => "null"
  | .boolean => "boolean"
  | .number => "number"
  | .string => "string"
  | .array => "array"
  | .object => "object"

/-- The word used for a value of the wrong kind in messages about schemas. -/
def storageName : Json → String
  | .null => "NoneType"
  | .bool _ => "bool"
  | .number (.int _) => "int"
  | .number (.double _) => "float"
  | .string _ => "str"
  | .array _ => "list"
  | .object _ => "dict"

/-! ### Well-formed values -/

mutual

/-- No object in the value has a key twice. -/
def Distinct : Json → Prop
  | .array items => DistinctAll items
  | .object fields => (fields.map Prod.fst).Nodup ∧ DistinctFields fields
  | _ => True

def DistinctAll : List Json → Prop
  | [] => True
  | v :: rest => v.Distinct ∧ DistinctAll rest

def DistinctFields : List (String × Json) → Prop
  | [] => True
  | (_, v) :: rest => v.Distinct ∧ DistinctFields rest

end

/-! ### Depth -/

mutual

/-- Containers nested inside one another, a scalar counting as one. -/
def depth : Json → Nat
  | .array items => 1 + depthAll items
  | .object fields => 1 + depthFields fields
  | _ => 1

def depthAll : List Json → Nat
  | [] => 0
  | v :: rest => max v.depth (depthAll rest)

def depthFields : List (String × Json) → Nat
  | [] => 0
  | (_, v) :: rest => max (max 1 v.depth) (depthFields rest)

end

end Json

end DocSchema
