import DocSchema.Number.Basic
import DocSchema.Fault

/-!
Divisibility of one number by another, judged through a double quotient.

The quotient of two integers is the double nearest to their exact ratio; as soon as a double is
involved, both sides are doubles first. A value is taken as a multiple of a step when the quotient
lies within `1e-9` of a whole number. Quotients beyond every double have no answer.
-/

namespace DocSchema

namespace Double

/-- The whole number nearest to a finite magnitude, a half going to the even one. -/
def nearestWhole (units : Nat) : Nat := roundHalfEven units unitsInOne

/-- How far from a whole number a quotient may lie. -/
def wholeTolerance : Nat := unitsOfDecimal 1 (-9)

/-- Distance of two magnitudes. -/
def gap (a b : Nat) : Nat := (a - b) + (b - a)

/-- A quotient lies within the tolerance of a whole number. -/
def nearlyWhole : Double → Except Fault Bool
  | .nan => .error .notANumber
  | .infinite _ => .error .tooLarge
  | .finite _ units _ => .ok (gap units (nearestWhole units * unitsInOne) ≤ wholeTolerance)

/-- A double itself, unless it is infinite. -/
def bounded : Double → Except Fault Double
  | .infinite _ => .error .tooLarge
  | q => .ok q

end Double

namespace Number

/-- The nearest double, where there is a finite one. -/
def toDouble? (a : Number) : Except Fault Double :=
  if a.overflows then .error .tooLarge else .ok a.toDouble

/-- The quotient of two integers, rounded once. -/
def divInt (a b : Int) : Except Fault Double :=
  (Double.ofRatio (decide (a < 0) != decide (b < 0)) a.natAbs b.natAbs).bounded

/-- The quotient of two doubles, or of a double and an integer that has one. -/
def divDouble (a b : Number) : Except Fault Double := do
  let x ← a.toDouble?
  let y ← b.toDouble?
  .ok (x.div y)

/-- The double quotient by a step that is not zero. -/
def quotient : Number → Number → Except Fault Double
  | .int a, .int b => divInt a b
  | a, b => divDouble a b

/-- The value is a multiple of the step, which is not zero. -/
def multipleOf (value step : Number) : Except Fault Bool :=
  value.quotient step >>= Double.nearlyWhole

end Number

end DocSchema
