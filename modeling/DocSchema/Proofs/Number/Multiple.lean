import DocSchema.Builtin.Constraint
import DocSchema.Proofs.Number.Place
import DocSchema.Proofs.Number.Shortest

/-!
Divisibility of integers, as a double quotient sees it.

Whether a quotient is whole is asked of the nearest double, and with a tolerance. Rounding is off by
at most half a unit in the last place (`two_mul_gap_roundUnits_le`), so the quotient of a multiple is
a whole double, and from `2 ^ 52` on every double is. Below, the distance of a fraction to the next
whole number has to outweigh the tolerance and what rounding takes away, which it does for small
numbers (`Sharp`). Main statement: `multipleOf_int`. A tolerance that is absolute takes small
fractions for zero: `one_multipleOf_ten_pow_ten`.
-/

namespace DocSchema

/-! ### The error of rounding -/

section Rounding

open Double (gap)

variable {num den : Nat}

/-- Rounding to a whole number is off by at most a half. -/
theorem two_mul_gap_roundHalfEven_le (num : Nat) (hden : 0 < den) :
    2 * gap num (roundHalfEven num den * den) ≤ den := by
  have hnum := Nat.div_add_mod num den
  have hr := Nat.mod_lt num hden
  have hup : (num / den + 1) * den = den * (num / den) + den := by ring
  have hdown : num / den * den = den * (num / den) := Nat.mul_comm _ _
  rw [gap, roundHalfEven]
  split
  · rw [hdown]; omega
  split
  · rw [hup]; omega
  · rcases Nat.mod_two_eq_zero_or_one (num / den) with heven | hodd
    · rw [heven, Nat.add_zero, hdown]; omega
    · rw [hodd, hup]; omega

/-- No multiple is nearer than the one that rounding finds. -/
theorem gap_roundHalfEven_le (num : Nat) (hden : 0 < den) (n : Nat) :
    gap num (roundHalfEven num den * den) ≤ gap num (n * den) := by
  have hhalf := two_mul_gap_roundHalfEven_le num hden
  generalize roundHalfEven num den = w at hhalf ⊢
  rcases Nat.lt_trichotomy n w with hlt | rfl | hgt
  · have hstep := Nat.mul_le_mul_right den (Nat.succ_le_of_lt hlt)
    rw [Nat.succ_mul] at hstep
    simp only [gap] at hhalf ⊢
    omega
  · exact Nat.le_refl _
  · have hstep := Nat.mul_le_mul_right den (Nat.succ_le_of_lt hgt)
    rw [Nat.succ_mul] at hstep
    simp only [gap] at hhalf ⊢
    omega

/-- Rounding to 53 bits is off by at most half a unit, or by one part in `2 ^ 53`. -/
theorem two_mul_gap_roundUnits_le (num : Nat) (hden : 0 < den) :
    2 * gap num (roundUnits num den * den) ≤ den ∨
      2 ^ 53 * gap num (roundUnits num den * den) ≤ num := by
  have hscale : 0 < 2 ^ excessBits num den := Nat.two_pow_pos _
  have herror := two_mul_gap_roundHalfEven_le num (Nat.mul_pos hden hscale)
  have hunits : roundHalfEven num (den * 2 ^ excessBits num den) * (den * 2 ^ excessBits num den) =
      roundUnits num den * den := by
    simp only [roundUnits, Nat.pow_eq]
    ring
  rw [hunits] at herror
  by_cases hlog : (num / den).log2 ≤ 52
  · have hexcess : excessBits num den = 0 := by rw [excessBits]; omega
    left
    rwa [hexcess, Nat.pow_zero, Nat.mul_one] at herror
  · right
    have hlarge : 2 ^ (num / den).log2 ≤ num / den := Nat.log2_self_le fun h => by simp [h] at hlog
    have hsplit : 2 ^ (num / den).log2 = 2 ^ 52 * 2 ^ excessBits num den := by
      rw [← Nat.pow_add]
      exact congrArg _ (by simp only [excessBits]; omega)
    rw [hsplit, Nat.le_div_iff_mul_le hden] at hlarge
    calc 2 ^ 53 * gap num (roundUnits num den * den)
        = 2 ^ 52 * (2 * gap num (roundUnits num den * den)) := by ring
      _ ≤ 2 ^ 52 * (den * 2 ^ excessBits num den) := Nat.mul_le_mul_left _ herror
      _ = 2 ^ 52 * 2 ^ excessBits num den * den := by ring
      _ ≤ num := hlarge

end Rounding

/-! ### Whole quotients -/

namespace Double

variable {num den : Nat}

theorem unitsInOne_dvd_two_pow_or (e : Nat) : unitsInOne ∣ 2 ^ e ∨ 2 ^ e ∣ unitsInOne := by
  unfold unitsInOne
  generalize 1074 = n
  exact (Nat.le_total n e).imp (Nat.pow_dvd_pow 2) (Nat.pow_dvd_pow 2)

/-- The quotient of a multiple is whole. -/
theorem unitsInOne_dvd_of_dvd (hden : 0 < den) (h : den ∣ num) :
    unitsInOne ∣ roundUnits (num * unitsInOne) den := by
  obtain ⟨q, rfl⟩ := h
  have hratio (one : Nat) : roundUnits (den * q * one) den = roundUnits (q * one) 1 := by
    have hcancel := roundUnits_mul (q * one) 1 hden
    rwa [Nat.one_mul, Nat.mul_comm, ← Nat.mul_assoc] at hcancel
  rw [hratio, roundUnits, Nat.one_mul, Nat.pow_eq]
  have hscale : 0 < 2 ^ excessBits (q * unitsInOne) 1 := Nat.two_pow_pos _
  rcases unitsInOne_dvd_two_pow_or (excessBits (q * unitsInOne) 1) with hwhole | hgrid
  · exact Nat.dvd_mul_left_of_dvd hwhole _
  · -- the grid of doubles is finer than the integers here
    have hexact := gap_roundHalfEven_le (q * unitsInOne) hscale
      (q * unitsInOne / 2 ^ excessBits (q * unitsInOne) 1)
    have hsame : roundHalfEven (q * unitsInOne) (2 ^ excessBits (q * unitsInOne) 1) *
        2 ^ excessBits (q * unitsInOne) 1 = q * unitsInOne := by
      rw [Nat.div_mul_cancel (Nat.dvd_mul_left_of_dvd hgrid q)] at hexact
      simp only [gap] at hexact
      omega
    rw [hsame]
    exact Nat.dvd_mul_left _ _

/-- From `2 ^ 52` on every double is whole. -/
theorem unitsInOne_dvd_of_le (hden : 0 < den) (h : 2 ^ 52 * den ≤ num) :
    unitsInOne ∣ roundUnits (num * unitsInOne) den := by
  have hlarge : 2 ^ 52 * unitsInOne ≤ num * unitsInOne / den := by
    rw [Nat.le_div_iff_mul_le hden, Nat.mul_right_comm]
    exact Nat.mul_le_mul_right _ h
  have hscale : unitsInOne ∣ 2 ^ excessBits (num * unitsInOne) den := by
    rw [excessBits]
    generalize num * unitsInOne / den = whole at hlarge ⊢
    unfold unitsInOne at hlarge ⊢
    generalize 1074 = n at hlarge ⊢
    rw [Nat.pow_eq, ← Nat.pow_add] at hlarge
    have hne : whole ≠ 0 := Nat.ne_of_gt (Nat.lt_of_lt_of_le (Nat.two_pow_pos _) hlarge)
    have hlog := (Nat.le_log2 hne).mpr hlarge
    exact Nat.pow_dvd_pow 2 (by omega)
  exact Nat.dvd_mul_left_of_dvd hscale _

/-! ### Near whole numbers -/

/-- The double stands within the tolerance of an integer. -/
def NearInteger (x : Double) : Prop :=
  ∃ p n : Int, x.place = some (.units p) ∧ (p - n * unitsInOne).natAbs ≤ wholeTolerance

/-- The nearest whole number is all that has to be looked at. -/
theorem gap_nearestWhole_le_iff (units : Nat) :
    gap units (nearestWhole units * unitsInOne) ≤ wholeTolerance ↔
      ∃ n : Nat, gap units (n * unitsInOne) ≤ wholeTolerance :=
  ⟨fun h => ⟨_, h⟩, fun ⟨n, h⟩ => Nat.le_trans (gap_roundHalfEven_le units unitsInOne_pos n) h⟩

theorem nearInteger_finite {negative : Bool} {units : Nat} {exact : Representable units} :
    (finite negative units exact).NearInteger ↔
      ∃ n : Nat, gap units (n * unitsInOne) ≤ wholeTolerance := by
  constructor
  · rintro ⟨p, n, hp, hnear⟩
    have hunits : p.natAbs = units := by
      cases hp
      exact natAbs_signedUnits negative units
    have hwhole : (n * unitsInOne : Int).natAbs = n.natAbs * unitsInOne := by
      rw [Int.natAbs_mul, Int.natAbs_natCast]
    refine ⟨n.natAbs, ?_⟩
    rw [← hwhole, ← hunits, gap]
    omega
  · rintro ⟨n, hnear⟩
    refine ⟨signedUnits negative units, signedUnits negative n, rfl, ?_⟩
    rw [← signedUnits_mul]
    generalize n * unitsInOne = whole at hnear ⊢
    rw [gap] at hnear
    cases negative
    · simp only [signedUnits, Bool.false_eq_true, if_false]
      omega
    · simp only [signedUnits, if_true]
      omega

/-- A finite double is asked for an integer within the tolerance. -/
theorem nearlyWhole_eq_ok_true {x : Double} : x.nearlyWhole = .ok true ↔ x.NearInteger := by
  rcases x with _ | negative | ⟨negative, units, exact⟩
  · exact iff_of_false (by intro h; cases h) (by rintro ⟨p, n, hp, -⟩; cases hp)
  · refine iff_of_false (by intro h; cases h) ?_
    rintro ⟨p, n, hp, -⟩
    cases negative <;> cases hp
  · rw [nearInteger_finite, ← gap_nearestWhole_le_iff, nearlyWhole]
    simp

theorem nearInteger_ofRatio {negative : Bool} (hden : 0 < den) (hrange : num < doubleLimit * den) :
    (ofRatio negative num den).NearInteger ↔
      ∃ n : Nat, gap (roundUnits (num * unitsInOne) den) (n * unitsInOne) ≤ wholeTolerance := by
  have hfinite : (ofRatio negative num den).isFinite = true := (isFinite_ofRatio hden).mpr hrange
  rw [ofRatio, ofUnits] at hfinite ⊢
  by_cases hlimit : roundUnits (num * unitsInOne) den < unitsLimit
  · rw [dif_pos hlimit]
    exact nearInteger_finite
  · rw [dif_neg hlimit] at hfinite
    cases hfinite

/-- A whole double is near an integer. -/
theorem exists_gap_le_of_dvd {units : Nat} (h : unitsInOne ∣ units) :
    ∃ n : Nat, gap units (n * unitsInOne) ≤ wholeTolerance := by
  obtain ⟨n, hn⟩ := h
  refine ⟨n, ?_⟩
  rw [hn, Nat.mul_comm n unitsInOne, gap, Nat.sub_self]
  exact Nat.zero_le _

/-! ### Small numbers -/

theorem two_pow_le_unitsInOne : 2 ^ 100 ≤ unitsInOne := by
  unfold unitsInOne
  have h : 100 ≤ 1074 := by decide
  generalize 1074 = n at h ⊢
  exact Nat.pow_le_pow_right (by decide) h

/-- The tolerance is the double nearest to `1e-9`. -/
theorem gap_wholeTolerance_le : 2 ^ 53 * gap unitsInOne (wholeTolerance * 10 ^ 9) ≤ unitsInOne := by
  have hone := two_pow_le_unitsInOne
  have htolerance : wholeTolerance = roundUnits unitsInOne (10 ^ 9) := by
    rw [wholeTolerance, show (-9 : Int) = .negSucc 8 from rfl, unitsOfDecimal, Nat.one_mul]
    rfl
  have herror := two_mul_gap_roundUnits_le unitsInOne (show 0 < 10 ^ 9 by decide)
  rw [← htolerance] at herror
  omega

theorem two_pow_le_wholeTolerance : 2 ^ 52 ≤ wholeTolerance := by
  have htolerance := gap_wholeTolerance_le
  have hone := two_pow_le_unitsInOne
  generalize wholeTolerance = tolerance, unitsInOne = one at htolerance hone ⊢
  rw [gap] at htolerance
  omega

/-- Numbers so small that the tolerance and the error of rounding are less than what a fraction is
away from whole numbers. -/
def Sharp (num den : Nat) : Prop :=
  num * unitsInOne + 2 ^ 53 * (den * wholeTolerance) < 2 ^ 53 * unitsInOne

theorem sharp_of_small (hnum : num ≤ 2 ^ 52) (hden : den < 5 * 10 ^ 8) : Sharp num den := by
  have htolerance := gap_wholeTolerance_le
  have hleft := Nat.mul_le_mul_right unitsInOne hnum
  have hright := Nat.mul_le_mul_right wholeTolerance (Nat.le_sub_one_of_lt hden)
  have hone := two_pow_le_unitsInOne
  rw [gap] at htolerance
  rw [Sharp]
  omega

/-- A fraction is away from whole numbers by at least one part of its denominator. -/
theorem unitsInOne_le_gap (hdvd : ¬den ∣ num) (n : Nat) :
    unitsInOne ≤ gap (num * unitsInOne) (n * unitsInOne * den) := by
  have hne : num ≠ n * den := fun h => hdvd ⟨n, h.trans (Nat.mul_comm n den)⟩
  rw [Nat.mul_right_comm, gap]
  rcases Nat.lt_or_gt_of_ne hne with hlt | hgt
  · have hstep := Nat.mul_le_mul_right unitsInOne (Nat.succ_le_of_lt hlt)
    rw [Nat.succ_mul] at hstep
    omega
  · have hstep := Nat.mul_le_mul_right unitsInOne (Nat.succ_le_of_lt hgt)
    rw [Nat.succ_mul] at hstep
    omega

theorem gap_mul (a b k : Nat) : gap a b * k = gap (a * k) (b * k) := by
  rw [gap, gap, Nat.add_mul, Nat.sub_mul, Nat.sub_mul]

/-- Where the numbers are small, only multiples have a quotient near a whole number. -/
theorem dvd_of_gap_le {n : Nat} (hden : 0 < den) (hsharp : Sharp num den)
    (hnear : gap (roundUnits (num * unitsInOne) den) (n * unitsInOne) ≤ wholeTolerance) :
    den ∣ num := by
  by_contra hdvd
  have hnum : unitsInOne ≤ num * unitsInOne := by
    refine Nat.le_mul_of_pos_left _ (Nat.pos_of_ne_zero ?_)
    rintro rfl
    exact hdvd (Nat.dvd_zero den)
  have haway := unitsInOne_le_gap hdvd n
  have herror := two_mul_gap_roundUnits_le (num * unitsInOne) hden
  have hnear' := Nat.mul_le_mul_right den hnear
  rw [gap_mul, Nat.mul_comm wholeTolerance] at hnear'
  have htriangle : unitsInOne ≤ gap (num * unitsInOne) (roundUnits (num * unitsInOne) den * den) +
      den * wholeTolerance := by
    simp only [gap] at haway hnear' ⊢
    omega
  rw [Sharp] at hsharp
  rcases herror with hhalf | hpart
  · -- the tolerance alone is larger than what is lost here
    have hlost := Nat.mul_le_mul_left den two_pow_le_wholeTolerance
    omega
  · omega

end Double

/-! ### The constraint on integers -/

theorem Double.bounded_of_isFinite {x : Double} (h : x.isFinite = true) : x.bounded = .ok x := by
  rcases x with _ | negative | _
  · rfl
  · cases h
  · rfl

theorem Number.multipleOf_of_divInt {v k : Int} {q : Double} {answer : Bool}
    (hq : divInt v k = .ok q) (hanswer : q.nearlyWhole = .ok answer) :
    (int v).multipleOf (.int k) = .ok answer := by
  rw [multipleOf, quotient, hq]
  exact hanswer

namespace BuiltinConstraint

variable {v k : Int} {argument : Json}

/-- The double nearest to the quotient of two integers. -/
def quotient (v k : Int) : Double :=
  .ofRatio (decide (v < 0) != decide (k < 0)) v.natAbs k.natAbs

theorem multipleOf_eq (hk : k ≠ 0) (hrange : v.natAbs < doubleLimit * k.natAbs) :
    ∃ answer, (Number.int v).multipleOf (.int k) = .ok answer ∧
      (answer = true ↔ (quotient v k).NearInteger) := by
  have hfinite : (quotient v k).isFinite = true :=
    (Double.isFinite_ofRatio (Int.natAbs_pos.mpr hk)).mpr hrange
  obtain ⟨answer, hanswer⟩ := (quotient v k).nearlyWhole_eq_ok.mpr hfinite
  have hbounded : Number.divInt v k = .ok (quotient v k) := by
    rw [Number.divInt, ← quotient, Double.bounded_of_isFinite hfinite]
  refine ⟨answer, Number.multipleOf_of_divInt hbounded hanswer, ?_⟩
  rw [← Double.nearlyWhole_eq_ok_true, hanswer, Except.ok.injEq]

theorem evaluate_multipleOf (hargument : Literal.coerce argument = .ok (.int k)) (hk : k ≠ 0) :
    multipleOf.evaluate (some (.int v)) argument =
      ((Number.int v).multipleOf (.int k)).map some := by
  have hzero : (Number.int k).isZero = false := by
    have hunits : k * (unitsInOne : Int) ≠ 0 :=
      Int.mul_ne_zero hk (Int.natCast_ne_zero.mpr (Nat.ne_of_gt unitsInOne_pos))
    rw [Number.isZero, Number.place, decide_eq_false_iff_not, Option.some.injEq, Place.units.injEq]
    exact hunits
  have hstep : numberOf argument = .ok (some (.int k)) := by
    rw [numberOf, hargument]
    rfl
  rw [evaluate, divisible, hstep]
  exact if_neg (by rw [hzero]; decide)

end BuiltinConstraint

/-- For integers whose quotient is within the reach of doubles, `multipleOf` has an answer: whether
the double nearest to the quotient stands within the tolerance of an integer. That holds of every
multiple, of multiples only while the numbers are small, and of all numbers from `2 ^ 52` times the
step on. -/
theorem multipleOf_int {v k : Int} {argument : Json}
    (hargument : Literal.coerce argument = .ok (.int k)) (hk : k ≠ 0)
    (hrange : v.natAbs < doubleLimit * k.natAbs) :
    ∃ answer,
      (BuiltinConstraint.find? "Int" "multipleOf").map (·.evaluate (some (.int v)) argument) =
        some (.ok (some answer)) ∧
      (answer = true ↔ (BuiltinConstraint.quotient v k).NearInteger) ∧
      (k ∣ v → answer = true) ∧
      (Double.Sharp v.natAbs k.natAbs → (answer = true ↔ k ∣ v)) ∧
      (2 ^ 52 * k.natAbs ≤ v.natAbs → answer = true) := by
  have hpos : 0 < k.natAbs := Int.natAbs_pos.mpr hk
  obtain ⟨answer, hanswer, hnear⟩ := BuiltinConstraint.multipleOf_eq hk hrange
  have hfind : BuiltinConstraint.find? "Int" "multipleOf" = some .multipleOf := by decide
  have hgap : answer = true ↔ ∃ n : Nat, Double.gap (roundUnits (v.natAbs * unitsInOne) k.natAbs)
      (n * unitsInOne) ≤ Double.wholeTolerance :=
    hnear.trans (Double.nearInteger_ofRatio hpos hrange)
  have hmultiple (hdvd : k ∣ v) : answer = true :=
    hgap.mpr (Double.exists_gap_le_of_dvd
      (Double.unitsInOne_dvd_of_dvd hpos (Int.natAbs_dvd_natAbs.mpr hdvd)))
  refine ⟨answer, ?_, hnear, hmultiple, fun hsharp => ⟨fun h => ?_, hmultiple⟩, fun hlarge => ?_⟩
  · rw [hfind, Option.map_some, BuiltinConstraint.evaluate_multipleOf hargument hk, hanswer]
    rfl
  · obtain ⟨n, hn⟩ := hgap.mp h
    exact Int.natAbs_dvd_natAbs.mp (Double.dvd_of_gap_le hpos hsharp hn)
  · exact hgap.mpr (Double.exists_gap_le_of_dvd (Double.unitsInOne_dvd_of_le hpos hlarge))

theorem ten_multipleOf_four :
    Literal.coerce (.int 4) = .ok (.int 4) ∧ (4 : Int) ≠ 0 ∧
    (10 : Int).natAbs < doubleLimit * (4 : Int).natAbs ∧
    (BuiltinConstraint.find? "Int" "multipleOf").map (·.evaluate (some (.int 10)) (.int 4)) =
      some (.ok (some false)) := by
  have hargument : Literal.coerce (.int 4) = .ok (.int 4) := rfl
  have hrange : (10 : Int).natAbs < doubleLimit * (4 : Int).natAbs := by decide +kernel
  have hsharp : Double.Sharp (10 : Int).natAbs (4 : Int).natAbs :=
    Double.sharp_of_small (by decide) (by decide)
  obtain ⟨answer, hanswer, -, -, hiff, -⟩ := multipleOf_int hargument (by decide) hrange
  have hno : answer = false := by
    rw [← Bool.not_eq_true, hiff hsharp]
    decide
  exact ⟨hargument, by decide, hrange, hno ▸ hanswer⟩

/-- The tolerance does not grow with the step: a step that is ten times the reciprocal of the
tolerance takes one for a multiple of it. -/
theorem one_multipleOf_ten_pow_ten :
    ¬(10 ^ 10 : Int) ∣ 1 ∧
    (BuiltinConstraint.find? "Int" "multipleOf").map
      (·.evaluate (some (.int 1)) (.int (10 ^ 10))) = some (.ok (some true)) := by
  have hrange : (1 : Int).natAbs < doubleLimit * (10 ^ 10 : Int).natAbs := by decide +kernel
  have hfind : BuiltinConstraint.find? "Int" "multipleOf" = some .multipleOf := by decide
  have hnear : (BuiltinConstraint.quotient 1 (10 ^ 10)).NearInteger :=
    (Double.nearInteger_ofRatio (by decide) hrange).mpr ⟨0, by decide +kernel⟩
  obtain ⟨answer, hanswer, hiff⟩ := BuiltinConstraint.multipleOf_eq (by decide) hrange
  refine ⟨by decide, ?_⟩
  rw [hfind, Option.map_some, BuiltinConstraint.evaluate_multipleOf rfl (by decide), hanswer,
    hiff.mpr hnear]
  rfl

end DocSchema
