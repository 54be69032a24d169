import DocSchema.Number.Shortest

/-!
JSON numbers: unbounded integers and doubles on one line.

Each number that is not NaN has a `Place`: a whole number of units, or one of the two ends.
Comparison compares places, so integers and doubles compare by exact mathematical value, without
rounding, and NaN is related to nothing.
-/

namespace DocSchema

/-- A JSON number, as it was written: without a fraction and exponent, or with one. -/
inductive Number where
  | int (n : Int)
  | double (x : Double)
  deriving DecidableEq

/-- A point of the number line in units, or one of its two ends. -/
inductive Place where
  | bottom
  | units (k : Int)
  | top
  deriving DecidableEq

namespace Place

/-- Strictly further down the line. -/
def lt : Place → Place → Bool
  | .bottom, .bottom => false
  | .bottom, _ => true
  | .units j, .units k => j < k
  | .units _, .top => true
  | _, _ => false

end Place

/-- Where a double stands; NaN stands nowhere. -/
def Double.place : Double → Option Place
  | .nan => none
  | .infinite negative => some (if negative then .bottom else .top)
  | .finite negative units _ => some (.units (Double.signedUnits negative units))

namespace Number

/-- Where a number stands; NaN stands nowhere. -/
def place : Number → Option Place
  | .int n => some (.units (n * unitsInOne))
  | .double x => x.place

/-- Both stand at the same place. -/
def eq (a b : Number) : Bool :=
  match a.place, b.place with
  | some p, some q => p = q
  | _, _ => false

def lt (a b : Number) : Bool :=
  match a.place, b.place with
  | some p, some q => p.lt q
  | _, _ => false

def le (a b : Number) : Bool :=
  match a.place, b.place with
  | some p, some q => p.lt q || p = q
  | _, _ => false

/-- Zero of either kind and sign. -/
def isZero (a : Number) : Bool := a.place = some (.units 0)

/-- An integer, or a double that equals one. -/
def toInt? : Number → Option Int
  | .int n => some n
  | .double x => x.toInt?

/-- The integer is past the reach of doubles. -/
def overflows : Number → Bool
  | .int n => !(Double.ofInt n).isFinite
  | .double _ => false

/-- The nearest double. -/
def toDouble : Number → Double
  | .int n => .ofInt n
  | .double x => x

end Number

end DocSchema
