import DocSchema.Json.Writer

/-!
The canonical text of a value: one text for all ways to write equal values.

Doubles that equal an integer become that integer, and the keys of every object are sorted by code
points.
-/

namespace DocSchema.Json

mutual

/-- Whole doubles become integers, at every depth. -/
def foldWhole : Json → Json
  | .number n => match n.toInt? with
    | some k => .number (.int k)
    | none => .number n
  | .array items => .array (foldWholeItems items)
  | .object fields => .object (foldWholeFields fields)
  | v => v

def foldWholeItems : List Json → List Json
  | [] => []
  | v :: rest => foldWhole v :: foldWholeItems rest

def foldWholeFields : List (String × Json) → List (String × Json)
  | [] => []
  | (k, v) :: rest => (k, foldWhole v) :: foldWholeFields rest

end

/-- Puts a field in front of the first one whose key does not come before its own. -/
def insertField (f : String × Json) : List (String × Json) → List (String × Json)
  | [] => [f]
  | g :: rest => if g.1 < f.1 then g :: insertField f rest else f :: g :: rest

mutual

/-- The fields of every object in the order of their keys. -/
def sortKeys : Json → Json
  | .array items => .array (sortKeysItems items)
  | .object fields => .object (sortKeysFields fields)
  | v => v

def sortKeysItems : List Json → List Json
  | [] => []
  | v :: rest => sortKeys v :: sortKeysItems rest

def sortKeysFields : List (String × Json) → List (String × Json)
  | [] => []
  | (k, v) :: rest => insertField (k, sortKeys v) (sortKeysFields rest)

end

/-- The canonical text of a value. -/
def canonicalText (v : Json) : String := (sortKeys (foldWhole v)).toText spaced

end DocSchema.Json
