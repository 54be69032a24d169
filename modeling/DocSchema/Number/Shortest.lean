import DocSchema.Number.Double

/-!
The shortest decimal text of a double.

A double is written with the fewest significant digits that read back as the same double; of two
candidates of that length the nearer one is taken, and of two equally near the even one. At each
length only the two neighbours of the exact value on the decimal grid can qualify, so the search
tries these two for 1, 2, … 17 digits. Reading back is `Double.unitsOfDecimal`, so the result reads
back by construction.

The text is positional for decimal points from 4 zeros after the point up to 16 digits before it,
always with a fraction, and otherwise in exponent form with at least two exponent digits.
-/

namespace DocSchema

/-- A positive decimal `digits * 10 ^ exponent`. -/
structure Decimal where
  digits : Nat
  exponent : Int
  deriving DecidableEq

namespace Decimal

/-- Moves trailing zeros of the digits into the exponent, at most `fuel` of them. -/
def strip : Nat → Decimal → Decimal
  | 0, d => d
  | fuel + 1, d =>
    if d.digits % 10 = 0 then strip fuel ⟨d.digits / 10, d.exponent + 1⟩ else d

/-- The least shift `j ≥ start` with `10 ^ j` times the magnitude reaching one. -/
def leadingShift (units : Nat) : Nat → Nat → Nat
  | 0, j => j
  | fuel + 1, j => if unitsInOne ≤ units * Nat.pow 10 j then j else leadingShift units fuel (j + 1)

/-- The exponent `k` with `10 ^ k ≤ magnitude < 10 ^ (k + 1)`. -/
def magnitude (units : Nat) : Int :=
  if unitsInOne ≤ units then (Nat.toDigits 10 (units / unitsInOne)).length - 1
  else -(leadingShift units 400 1 : Nat)

/-- The magnitude in grid steps of `10 ^ step`, as a quotient of natural numbers. -/
def onGrid (units : Nat) : Int → Nat × Nat
  | .ofNat k => (units, unitsInOne * Nat.pow 10 k)
  | .negSucc k => (units * Nat.pow 10 (k + 1), unitsInOne)

/-- A candidate reads back as the magnitude. -/
def readsBack (units : Nat) (d : Decimal) : Bool :=
  Double.unitsOfDecimal d.digits d.exponent = units

/-- The nearer of the two grid neighbours that reads back, if one does; of two equally near ones
the even one. -/
def nearest? (units : Nat) (step : Int) : Option Decimal :=
  let (num, den) := onGrid units step
  let low : Decimal := ⟨num / den, step⟩
  let high : Decimal := ⟨num / den + 1, step⟩
  match readsBack units low, readsBack units high with
  | true, true => some ⟨roundHalfEven num den, step⟩
  | true, false => some low
  | false, true => some high
  | false, false => none

/-- The exact value, which has a finite decimal expansion. -/
def exact (units : Nat) : Decimal := ⟨units * Nat.pow 5 1074, -1074⟩

/-- The first grid with a candidate, from `length` digits on. -/
def search (units : Nat) (top : Int) : Nat → Nat → Decimal
  | 0, _ => exact units
  | fuel + 1, length => (nearest? units (top - length)).getD (search units top fuel (length + 1))

/-- The shortest decimal that reads back as a positive magnitude. -/
def shortest (units : Nat) : Decimal :=
  strip 2000 (search units (magnitude units) 17 0)

/-! ### Layout -/

/-- At least two digits, with a sign. -/
def exponentText (e : Int) : List Char :=
  let ds := Nat.toDigits 10 e.natAbs
  (if e < 0 then '-' else '+') :: (if ds.length < 2 then '0' :: ds else ds)

/-- Where the point stands decides the layout: positional within the window, else exponent form. -/
def text (d : Decimal) : List Char :=
  let ds := Nat.toDigits 10 d.digits
  let point : Int := ds.length + d.exponent
  if -4 < point ∧ point ≤ 16 then
    match point with
    | .negSucc k => '0' :: '.' :: List.replicate (k + 1) '0' ++ ds
    | .ofNat 0 => '0' :: '.' :: ds
    | .ofNat k =>
      if ds.length ≤ k then ds ++ List.replicate (k - ds.length) '0' ++ ['.', '0']
      else ds.take k ++ '.' :: ds.drop k
  else
    ds.take 1 ++ (if ds.length = 1 then [] else '.' :: ds.drop 1) ++ 'e' :: exponentText (point - 1)

end Decimal

namespace Double

/-- Spellings of the values that have no digits. -/
structure SpecialNames where
  nan : String
  infinity : String

/-- The text of a double; the names for NaN and infinity are the caller's. -/
def text (names : SpecialNames) : Double → String
  | .nan => names.nan
  | .infinite negative => if negative then "-" ++ names.infinity else names.infinity
  | .finite negative units _ =>
    let body := if units = 0 then "0.0" else String.ofList (Decimal.shortest units).text
    if negative then "-" ++ body else body

end Double

end DocSchema
