import DocSchema.Json.Equality
import DocSchema.Json.Writer
import DocSchema.Json.Display

/-!
Slots: what stands at a place in a document, a value or nothing.
-/

namespace DocSchema

/-- A value, or nothing at all. -/
abbrev Slot := Option Json

namespace Slot

/-- The slot holds a value equal to the given one. -/
def holds (s : Slot) (v : Json) : Bool :=
  match s with
  | some w => w.same v
  | none => false

/-- The text of a number for patterns: whole doubles are written as integers. -/
def numberText (n : Number) : String :=
  match n.toInt? with
  | some k => toString k
  | none => n.plain

/-- The text that a pattern is matched against: null is empty, text is itself, containers are
compact JSON. -/
def patternText : Slot → String
  | none => "MISSING"
  | some .null => ""
  | some (.bool b) => if b then "true" else "false"
  | some (.number n) => numberText n
  | some (.string s) => s
  | some v => v.toText Json.compact

end Slot

end DocSchema
