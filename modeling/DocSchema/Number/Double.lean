/-!
Double precision numbers as exact integers.

Every finite double is a whole number of *units* of `2 ^ -1074`, the least positive double, so a
finite double is stored as its sign and that whole number. What makes a magnitude storable is said
by `Representable`: at most 53 significant bits, below `2 ^ 1024`. All arithmetic here is exact
arithmetic on natural numbers followed by one rounding, `roundUnits`, to the nearest representable
magnitude with ties to even.
-/

namespace DocSchema

/-- How many units make one. -/
def unitsInOne : Nat := Nat.pow 2 1074

/-- The first magnitude, in units, that is too large for a finite double. -/
def unitsLimit : Nat := Nat.pow 2 2098

/-- A magnitude in units has at most 53 significant bits and lies below the limit. -/
def Representable (units : Nat) : Prop :=
  units < unitsLimit ∧ Nat.pow 2 (units.log2 - 52) ∣ units

/-- A double: not a number, an infinity, or a signed magnitude in units. Zero has both signs. -/
inductive Double where
  | nan
  | infinite (negative : Bool)
  | finite (negative : Bool) (units : Nat) (exact : Representable units)
  deriving DecidableEq

/-! ### Rounding -/

/-- The whole number nearest to `num / den`; a tie goes to the even one. -/
def roundHalfEven (num den : Nat) : Nat :=
  let q := num / den
  let r := num % den
  if 2 * r < den then q
  else if den < 2 * r then q + 1
  else q + q % 2

theorem roundHalfEven_le (num den : Nat) : roundHalfEven num den ≤ num / den + 1 := by
  simp only [roundHalfEven]
  split
  · omega
  · split <;> omega

/-- How many low bits a magnitude `num / den` has to lose to keep 53 of them. -/
def excessBits (num den : Nat) : Nat := (num / den).log2 - 52

/-- The magnitude with at most 53 significant bits that is nearest to `num / den` units. -/
def roundUnits (num den : Nat) : Nat :=
  let scale := Nat.pow 2 (excessBits num den)
  roundHalfEven num (den * scale) * scale

theorem roundHalfEven_excess_le (num den : Nat) :
    roundHalfEven num (den * Nat.pow 2 (excessBits num den)) ≤ Nat.pow 2 53 := by
  refine Nat.le_trans (roundHalfEven_le _ _) ?_
  simp only [Nat.pow_eq]
  rw [← Nat.div_div_eq_div_mul]
  have h : num / den < 2 ^ ((num / den).log2 + 1) := Nat.lt_log2_self
  have hle : 2 ^ ((num / den).log2 + 1) ≤ 2 ^ (53 + excessBits num den) :=
    Nat.pow_le_pow_right (by decide) (by simp only [excessBits]; omega)
  have : num / den / 2 ^ excessBits num den < 2 ^ 53 := by
    rw [Nat.div_lt_iff_lt_mul (Nat.two_pow_pos _), ← Nat.pow_add]
    exact Nat.lt_of_lt_of_le h hle
  omega

theorem two_pow_log2_dvd_of_le {m : Nat} (e : Nat) (h : m ≤ Nat.pow 2 53) :
    Nat.pow 2 ((m * Nat.pow 2 e).log2 - 52) ∣ m * Nat.pow 2 e := by
  simp only [Nat.pow_eq] at h ⊢
  by_cases h0 : m = 0
  · simp [h0]
  rcases Nat.lt_or_eq_of_le h with hlt | rfl
  · have hpos : m * 2 ^ e ≠ 0 := Nat.mul_ne_zero h0 (Nat.ne_of_gt (Nat.two_pow_pos e))
    have : (m * 2 ^ e).log2 < 53 + e := by
      rw [Nat.log2_lt hpos, Nat.pow_add]
      exact Nat.mul_lt_mul_of_pos_right hlt (Nat.two_pow_pos e)
    exact Nat.dvd_trans (Nat.pow_dvd_pow 2 (by omega)) (Nat.dvd_mul_left _ _)
  · rw [← Nat.pow_add, Nat.log2_two_pow]
    exact Nat.pow_dvd_pow 2 (by omega)

theorem roundUnits_dvd (num den : Nat) :
    Nat.pow 2 ((roundUnits num den).log2 - 52) ∣ roundUnits num den :=
  two_pow_log2_dvd_of_le _ (roundHalfEven_excess_le num den)

namespace Double

/-- The double nearest to `num / den` units; a magnitude that rounds past the limit is infinite. -/
def ofUnits (negative : Bool) (num den : Nat) : Double :=
  if h : roundUnits num den < unitsLimit then
    .finite negative (roundUnits num den) ⟨h, roundUnits_dvd num den⟩
  else .infinite negative

/-- The double nearest to `num / den`. -/
def ofRatio (negative : Bool) (num den : Nat) : Double :=
  ofUnits negative (num * unitsInOne) den

theorem unitsLimit_pos : 0 < unitsLimit := by
  unfold unitsLimit
  generalize 2098 = n
  exact Nat.two_pow_pos n

theorem representable_zero : Representable 0 := ⟨unitsLimit_pos, Nat.dvd_zero _⟩

/-- The two zeros. -/
def zero (negative : Bool) : Double := .finite negative 0 representable_zero

/-! ### Reading -/

/-- The magnitude in units nearest to `digits * 10 ^ exponent`. -/
def unitsOfDecimal (digits : Nat) : Int → Nat
  | .ofNat k => roundUnits (digits * Nat.pow 10 k * unitsInOne) 1
  | .negSucc k => roundUnits (digits * unitsInOne) (Nat.pow 10 (k + 1))

/-- The double nearest to `digits * 10 ^ exponent`. Exponents beyond every double are settled
first, so that no huge power is built. -/
def ofDecimal (negative : Bool) (digits : Nat) (exponent : Int) : Double :=
  let magnitude := exponent + (Nat.toDigits 10 digits).length
  if digits = 0 ∨ magnitude < -400 then zero negative
  else if 400 < magnitude then .infinite negative
  else match exponent with
    | .ofNat k => ofRatio negative (digits * Nat.pow 10 k) 1
    | .negSucc k => ofRatio negative digits (Nat.pow 10 (k + 1))

/-- The double nearest to an integer. -/
def ofInt (n : Int) : Double := ofRatio (n < 0) n.natAbs 1

/-! ### Questions -/

def isNaN : Double → Bool
  | .nan => true
  | _ => false

def isFinite : Double → Bool
  | .finite .. => true
  | _ => false

/-- Signed number of units of a finite double. -/
def signedUnits (negative : Bool) (units : Nat) : Int :=
  if negative then -(units : Int) else units

/-- The integer that a double equals, if it equals one. -/
def toInt? : Double → Option Int
  | .finite negative units _ =>
    if units % unitsInOne = 0 then some (signedUnits negative (units / unitsInOne)) else none
  | _ => none

/-! ### Division -/

/-- The double nearest to the quotient; infinities and NaN follow the usual arithmetic of limits,
and a finite number over zero is an infinity. -/
def div : Double → Double → Double
  | .nan, _ | _, .nan => .nan
  | .infinite _, .infinite _ => .nan
  | .infinite s, .finite t .. => .infinite (s != t)
  | .finite s .., .infinite t => zero (s != t)
  | .finite s u _, .finite t v _ =>
    if v = 0 then if u = 0 then .nan else .infinite (s != t)
    else ofRatio (s != t) u v

end Double

end DocSchema
