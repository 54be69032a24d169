import DocSchema.Number.Quotient
import Mathlib.Tactic.Ring

/-!
Where doubles end.

Rounding to 53 significant bits reaches `2 ^ 1024` from the middle between the greatest double and
`2 ^ 1024` on, since the tie goes up. So a ratio has a finite double exactly if it stays below
`doubleLimit` (`isFinite_ofRatio`). An integer from there on overflows, and a quotient of two
integers has no double if it gets there; quotients of doubles can also be without an answer because
of an infinity or NaN (`multipleOf_eq_ok`).
-/

namespace DocSchema

/-- The middle between the greatest double and `2 ^ 1024`. -/
def doubleLimit : Nat := (2 ^ 54 - 1) * 2 ^ 970

/-! ### Rounding up to a power of two -/

theorem le_roundHalfEven (num den : Nat) : num / den ≤ roundHalfEven num den := by
  simp only [roundHalfEven]
  split
  · exact Nat.le_refl _
  · split <;> omega

/-- An odd number is not exceeded by rounding exactly if the next half is not reached. -/
theorem roundHalfEven_le_iff {num den m : Nat} (hden : 0 < den) (hm : m % 2 = 1) :
    roundHalfEven num den ≤ m ↔ 2 * num < (2 * m + 1) * den := by
  have hnum := Nat.div_add_mod num den
  have hr := Nat.mod_lt num hden
  rw [Nat.add_mul, Nat.mul_assoc, Nat.mul_comm m, Nat.one_mul]
  rcases Nat.lt_trichotomy (num / den) m with hq | hq | hq
  · have := roundHalfEven_le num den
    have := Nat.mul_le_mul_left den (show num / den + 1 ≤ m by omega)
    rw [Nat.mul_add, Nat.mul_one] at this
    constructor <;> intro <;> omega
  · simp only [roundHalfEven]
    rw [hq] at hnum ⊢
    split
    · constructor <;> intro <;> omega
    · split <;> constructor <;> intro <;> omega
  · have := le_roundHalfEven num den
    have := Nat.mul_le_mul_left den (show m + 1 ≤ num / den by omega)
    rw [Nat.mul_add, Nat.mul_one] at this
    constructor <;> intro <;> omega

/-- Rounding to 53 bits stays below a power of two exactly below the middle between that power and
the greatest number with 53 bits under it. -/
theorem roundUnits_lt_iff {num den k : Nat} (hden : 0 < den) (hk : 0 < k) :
    roundUnits num den < 2 ^ (53 + k) ↔ 2 * num < (2 ^ 54 - 1) * 2 ^ k * den := by
  have hmiddle : 2 ^ 53 * (2 ^ k * den) ≤ (2 ^ 54 - 1) * (2 ^ k * den) :=
    Nat.mul_le_mul_right _ (by decide)
  rw [Nat.mul_assoc]
  rcases Nat.lt_trichotomy (num / den).log2 (52 + k) with hlog | hlog | hlog
  · -- fewer bits: neither side is near the power
    have hround : roundUnits num den < 2 ^ (53 + k) := by
      have hexcess := roundHalfEven_excess_le num den
      have hscale : 2 ^ excessBits num den < 2 ^ k :=
        Nat.pow_lt_pow_right (by decide) (by simp only [excessBits]; omega)
      calc roundUnits num den ≤ 2 ^ 53 * 2 ^ excessBits num den := Nat.mul_le_mul_right _ hexcess
        _ < 2 ^ 53 * 2 ^ k := Nat.mul_lt_mul_of_pos_left hscale (by decide)
        _ = 2 ^ (53 + k) := (Nat.pow_add 2 53 k).symm
    have hnum : num < 2 ^ 52 * 2 ^ k * den := by
      rw [← Nat.div_lt_iff_lt_mul hden, ← Nat.pow_add]
      exact Nat.lt_of_lt_of_le Nat.lt_log2_self (Nat.pow_le_pow_right (by decide) hlog)
    rw [Nat.mul_assoc] at hnum
    exact iff_of_true hround (by omega)
  · -- as many bits as the power has below it: the tie decides
    have hexcess : excessBits num den = k := by simp only [excessBits]; omega
    have hpos : 0 < den * 2 ^ k := Nat.mul_pos hden (Nat.two_pow_pos k)
    rw [roundUnits, hexcess, Nat.pow_add, Nat.pow_eq, Nat.mul_lt_mul_right (Nat.two_pow_pos k),
      show (2 : Nat) ^ 53 = 2 ^ 53 - 1 + 1 by decide, Nat.lt_succ_iff,
      roundHalfEven_le_iff hpos (by decide), Nat.mul_comm den]
    exact Iff.rfl
  · -- more bits: both sides are past the power
    have hlarge : 2 ^ (num / den).log2 ≤ num / den :=
      Nat.log2_self_le fun h => by simp [h] at hlog
    have hpower : 2 ^ (53 + k) ≤ 2 ^ (num / den).log2 :=
      Nat.pow_le_pow_right (by decide) (by omega)
    have hround : 2 ^ (53 + k) ≤ roundUnits num den := by
      have hsplit : 2 ^ (num / den).log2 = 2 ^ 52 * 2 ^ excessBits num den := by
        rw [← Nat.pow_add]
        exact congrArg _ (by simp only [excessBits]; omega)
      refine Nat.le_trans hpower (hsplit ▸ Nat.mul_le_mul_right _ ?_)
      refine Nat.le_trans ?_ (le_roundHalfEven _ _)
      rw [Nat.pow_eq, ← Nat.div_div_eq_div_mul, Nat.le_div_iff_mul_le (Nat.two_pow_pos _), ← hsplit]
      exact hlarge
    have hnum : 2 ^ 53 * 2 ^ k * den ≤ num := by
      rw [← Nat.pow_add, ← Nat.le_div_iff_mul_le hden]
      exact Nat.le_trans hpower hlarge
    rw [Nat.mul_assoc] at hnum
    exact iff_of_false (by omega) (by omega)

/-! ### Doubles and integers -/

theorem unitsInOne_pos : 0 < unitsInOne := by
  unfold unitsInOne
  generalize 1074 = n
  exact Nat.two_pow_pos n

theorem two_pow_units (j : Nat) : 2 ^ (j + 1 + 1074) = 2 ^ j * (2 * unitsInOne) := by
  unfold unitsInOne
  generalize 1074 = n
  rw [Nat.pow_eq, pow_add, pow_succ]
  ring

theorem unitsLimit_eq : unitsLimit = 2 ^ (53 + (970 + 1 + 1074)) := by
  have h : 2098 = 53 + (970 + 1 + 1074) := by decide
  unfold unitsLimit
  rw [h]
  generalize 53 + (970 + 1 + 1074) = k
  exact Nat.pow_eq

namespace Double

/-- A ratio has a finite double exactly below the limit. -/
theorem isFinite_ofRatio {negative : Bool} {num den : Nat} (hden : 0 < den) :
    (ofRatio negative num den).isFinite = true ↔ num < doubleLimit * den := by
  have hlimit : roundUnits (num * unitsInOne) den < unitsLimit ↔ num < doubleLimit * den := by
    have hround : roundUnits (num * unitsInOne) den < unitsLimit ↔
        2 * (num * unitsInOne) < (2 ^ 54 - 1) * 2 ^ (970 + 1 + 1074) * den := by
      rw [unitsLimit_eq]
      exact roundUnits_lt_iff hden (by decide)
    have hright : (2 ^ 54 - 1) * (2 ^ 970 * (2 * unitsInOne)) * den =
        doubleLimit * den * (2 * unitsInOne) := by
      unfold doubleLimit
      generalize 2 ^ 970 = power
      ring
    rw [hround, two_pow_units, hright, Nat.mul_left_comm,
      Nat.mul_lt_mul_right (Nat.mul_pos (by decide) unitsInOne_pos)]
  rw [ofRatio, ofUnits, ← hlimit]
  split
  · next h => exact iff_of_true rfl h
  · next h => exact iff_of_false (by simp [isFinite]) h

/-- The quotient of two doubles is a finite double. -/
def HasQuotient : Double → Double → Prop
  | .finite .., .infinite _ => True
  | .finite _ u _, .finite _ v _ => u < doubleLimit * v
  | _, _ => False

theorem isFinite_div (x y : Double) : (x.div y).isFinite = true ↔ x.HasQuotient y := by
  rcases x with _ | s | ⟨s, u, hu⟩ <;> rcases y with _ | t | ⟨t, v, hv⟩
  case finite.finite =>
    simp only [div, HasQuotient]
    split
    · next hv => subst hv; split <;> simp [isFinite]
    · next hv => exact isFinite_ofRatio (Nat.pos_of_ne_zero hv)
  all_goals simp [div, HasQuotient, isFinite, zero]

theorem nearlyWhole_eq_ok (x : Double) : (∃ b, x.nearlyWhole = .ok b) ↔ x.isFinite = true := by
  cases x <;> simp [nearlyWhole, isFinite]

theorem bounded_eq_ok (q : Double) :
    (∃ r, q.bounded = .ok r ∧ r.isFinite = true) ↔ q.isFinite = true := by
  cases q <;> simp [bounded, isFinite]

end Double

namespace Number

theorem overflows_int (k : Int) : (int k).overflows = true ↔ doubleLimit ≤ k.natAbs := by
  have hfinite : (Double.ofInt k).isFinite = true ↔ k.natAbs < doubleLimit * 1 :=
    Double.isFinite_ofRatio Nat.one_pos
  rw [overflows, Bool.not_eq_true', ← Bool.not_eq_true, hfinite, Nat.mul_one, Nat.not_lt]

/-- The quotient of two numbers is a finite double. -/
def HasQuotient : Number → Number → Prop
  | .int a, .int b => a.natAbs < doubleLimit * b.natAbs
  | a, b => a.overflows = false ∧ b.overflows = false ∧ a.toDouble.HasQuotient b.toDouble

theorem divInt_eq_ok {a b : Int} (hb : b ≠ 0) :
    (∃ q, divInt a b = .ok q ∧ q.isFinite = true) ↔ a.natAbs < doubleLimit * b.natAbs := by
  rw [divInt, Double.bounded_eq_ok]
  exact Double.isFinite_ofRatio (Int.natAbs_pos.mpr hb)

theorem divDouble_eq_ok (a b : Number) :
    (∃ q, divDouble a b = .ok q ∧ q.isFinite = true) ↔
      a.overflows = false ∧ b.overflows = false ∧ a.toDouble.HasQuotient b.toDouble := by
  unfold divDouble toDouble?
  cases a.overflows <;> cases b.overflows <;> simp [bind, Except.bind, Double.isFinite_div]

theorem isZero_int_zero : (int 0).isZero = true := by
  rw [isZero, place, Int.zero_mul]
  exact decide_eq_true rfl

theorem quotient_eq_ok {value step : Number} (hstep : step.isZero = false) :
    (∃ q, value.quotient step = .ok q ∧ q.isFinite = true) ↔ value.HasQuotient step := by
  rcases value with a | x <;> rcases step with b | y
  case int.int =>
    refine divInt_eq_ok fun hb => ?_
    rw [hb, isZero_int_zero] at hstep
    cases hstep
  all_goals exact divDouble_eq_ok _ _

/-- Divisibility has an answer exactly if there is a finite quotient. -/
theorem multipleOf_eq_ok {value step : Number} (hstep : step.isZero = false) :
    (∃ b, value.multipleOf step = .ok b) ↔ value.HasQuotient step := by
  rw [← quotient_eq_ok hstep, multipleOf]
  cases value.quotient step with
  | error f => simp [bind, Except.bind]
  | ok q =>
    simp only [Except.ok.injEq, exists_eq_left']
    exact q.nearlyWhole_eq_ok

end Number

end DocSchema
