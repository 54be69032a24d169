import DocSchema.Number.Shortest
import DocSchema.Proofs.Number.Range

/-!
The shortest decimal of a double reads back as that double.

Rounding looks at a ratio alone (`roundUnits_mul`) and leaves every magnitude of a double as it is
(`roundUnits_one`). So zeros can move between the digits and the exponent of a decimal
(`unitsOfDecimal_shift`), every candidate of the search reads back, and so does the exact value that
ends it: `Decimal.units_shortest`. The reader of decimals settles exponents beyond every double
first; they lie so far out that rounding agrees (`Double.ofDecimal_of_units`).
-/

namespace DocSchema

/-! ### Rounding a ratio -/

theorem roundHalfEven_mul (num den : Nat) {k : Nat} (hk : 0 < k) :
    roundHalfEven (num * k) (den * k) = roundHalfEven num den := by
  have hhalf (r : Nat) : 2 * (r * k) < den * k ↔ 2 * r < den := by
    rw [← Nat.mul_assoc, Nat.mul_lt_mul_right hk]
  have hmore (r : Nat) : den * k < 2 * (r * k) ↔ den < 2 * r := by
    rw [← Nat.mul_assoc, Nat.mul_lt_mul_right hk]
  simp only [roundHalfEven, Nat.mul_div_mul_right _ _ hk, Nat.mul_mod_mul_right, hhalf, hmore]

/-- Rounding to 53 bits looks at the ratio alone. -/
theorem roundUnits_mul (num den : Nat) {k : Nat} (hk : 0 < k) :
    roundUnits (num * k) (den * k) = roundUnits num den := by
  have hexcess : excessBits (num * k) (den * k) = excessBits num den := by
    simp only [excessBits, Nat.mul_div_mul_right _ _ hk]
  simp only [roundUnits, hexcess]
  rw [Nat.mul_right_comm, roundHalfEven_mul _ _ hk]

/-- The magnitude of a double is not rounded. -/
theorem roundUnits_one {units : Nat} (h : Representable units) : roundUnits units 1 = units := by
  obtain ⟨q, hq⟩ := h.2
  have hscale : 0 < Nat.pow 2 (units.log2 - 52) := Nat.two_pow_pos _
  have hexcess : excessBits units 1 = units.log2 - 52 := by rw [excessBits, Nat.div_one]
  simp only [roundUnits, hexcess, Nat.one_mul]
  generalize Nat.pow 2 (units.log2 - 52) = scale at hq hscale
  have hround : roundHalfEven (scale * q) scale = q := by
    simp [roundHalfEven, Nat.mul_div_cancel_left _ hscale, hscale]
  rw [hq, hround, Nat.mul_comm]

theorem roundUnits_eq_zero {num den : Nat} (h : 2 * num < den) : roundUnits num den = 0 := by
  have hquotient : num / den = 0 := Nat.div_eq_of_lt (by omega)
  have hexcess : excessBits num den = 0 := by rw [excessBits, hquotient]; rfl
  simp only [roundUnits, hexcess, Nat.pow_eq, Nat.pow_zero, Nat.mul_one, roundHalfEven, hquotient]
  rw [Nat.mod_eq_of_lt (by omega), if_pos h]

/-! ### Decimals -/

namespace Double

/-- Zeros can move from the digits of a decimal to its exponent. -/
theorem unitsOfDecimal_shift (digits j : Nat) (e : Int) :
    unitsOfDecimal (digits * 10 ^ j) e = unitsOfDecimal digits (e + j) := by
  have hpow (n : Nat) : 0 < 10 ^ n := Nat.pow_pos (by decide)
  rcases e with k | k
  · have hexponent : (Int.ofNat k + j : Int) = .ofNat (k + j) := rfl
    rw [hexponent]
    simp only [unitsOfDecimal, Nat.pow_eq]
    rw [Nat.mul_assoc digits, ← Nat.pow_add, Nat.add_comm j]
  by_cases hj : j ≤ k
  · obtain ⟨i, rfl⟩ := Nat.exists_eq_add_of_le hj
    have hexponent : (Int.negSucc (j + i) + j : Int) = .negSucc i := by omega
    rw [hexponent]
    simp only [unitsOfDecimal, Nat.pow_eq]
    rw [Nat.add_assoc, Nat.pow_add, Nat.mul_comm (10 ^ j), Nat.mul_right_comm,
      roundUnits_mul _ _ (hpow j)]
  · obtain ⟨i, rfl⟩ := Nat.exists_eq_add_of_lt (Nat.lt_of_not_le hj)
    have hexponent : (Int.negSucc k + (k + i + 1 : Nat) : Int) = .ofNat i := by
      rw [Int.ofNat_eq_natCast]
      omega
    have hcancel := roundUnits_mul (digits * 10 ^ i * unitsInOne) 1 (hpow (k + 1))
    rw [hexponent]
    simp only [unitsOfDecimal, Nat.pow_eq]
    rw [show k + i + 1 = i + (k + 1) by omega, Nat.pow_add, ← Nat.mul_assoc, Nat.mul_right_comm,
      ← hcancel, Nat.one_mul]

theorem unitsOfDecimal_zero (e : Int) : unitsOfDecimal 0 e = 0 := by
  rcases e with k | k <;> simp only [unitsOfDecimal, Nat.zero_mul]
  · exact roundUnits_eq_zero Nat.one_pos
  · exact roundUnits_eq_zero (Nat.pow_pos (by decide : 0 < 10))

end Double

namespace Decimal

/-- The magnitude in units that a decimal is rounded to. -/
def units (d : Decimal) : Nat := Double.unitsOfDecimal d.digits d.exponent

variable {magnitude : Nat}

theorem units_strip (fuel : Nat) (d : Decimal) : (strip fuel d).units = d.units := by
  induction fuel generalizing d with
  | zero => rfl
  | succ fuel ih =>
    simp only [strip]
    split
    · next hzero =>
      have hdigits : d.digits / 10 * 10 ^ 1 = d.digits := by omega
      have hshift := Double.unitsOfDecimal_shift (d.digits / 10) 1 d.exponent
      rw [hdigits] at hshift
      rw [ih]
      exact hshift.symm
    · rfl

/-- Of the two neighbours on a grid, the one that is taken reads back. -/
theorem units_nearest {step : Int} {d : Decimal} (h : nearest? magnitude step = some d) :
    d.units = magnitude := by
  simp only [nearest?] at h
  generalize (onGrid magnitude step).1 = num at h
  generalize (onGrid magnitude step).2 = den at h
  split at h
  · next hlow hhigh =>
    have hchoice : roundHalfEven num den = num / den ∨ roundHalfEven num den = num / den + 1 := by
      have := le_roundHalfEven num den
      have := roundHalfEven_le num den
      omega
    cases h
    rcases hchoice with heq | heq
    · rw [heq]; exact of_decide_eq_true hlow
    · rw [heq]; exact of_decide_eq_true hhigh
  · next hlow _ => cases h; exact of_decide_eq_true hlow
  · next _ hhigh => cases h; exact of_decide_eq_true hhigh
  · cases h

theorem roundUnits_tens (h : Representable magnitude) (n : Nat) :
    roundUnits (magnitude * 5 ^ n * 2 ^ n) (10 ^ n) = magnitude := by
  have hcancel := roundUnits_mul magnitude 1 (Nat.pow_pos (n := n) (by decide : 0 < 10))
  rwa [Nat.one_mul, roundUnits_one h, show 10 = 5 * 2 by decide, Nat.mul_pow, ← Nat.mul_assoc,
    ← Nat.mul_pow] at hcancel

theorem units_negSucc (digits k : Nat) :
    units ⟨digits, .negSucc k⟩ = roundUnits (digits * unitsInOne) (10 ^ (k + 1)) := rfl

/-- The exact value is not rounded. -/
theorem units_exact (h : Representable magnitude) : (exact magnitude).units = magnitude := by
  have hexponent : (-1074 : Int) = .negSucc 1073 := rfl
  have hn : 1073 + 1 = 1074 := rfl
  rw [exact, hexponent, units_negSucc, hn]
  unfold unitsInOne
  generalize 1074 = n
  exact roundUnits_tens h n

theorem units_search (h : Representable magnitude) (top : Int) (fuel length : Nat) :
    (search magnitude top fuel length).units = magnitude := by
  induction fuel generalizing length with
  | zero => exact units_exact h
  | succ fuel ih =>
    simp only [search]
    cases hnearest : nearest? magnitude (top - length) with
    | none => exact ih (length + 1)
    | some d => exact units_nearest hnearest

/-- The shortest decimal reads back. -/
theorem units_shortest (h : Representable magnitude) : (shortest magnitude).units = magnitude := by
  rw [shortest, units_strip, units_search h]

theorem shortest_digits_ne_zero (h : Representable magnitude) (hpos : magnitude ≠ 0) :
    (shortest magnitude).digits ≠ 0 := by
  intro hzero
  have hunits := units_shortest h
  rw [units, hzero, Double.unitsOfDecimal_zero] at hunits
  exact hpos hunits.symm

end Decimal

/-! ### Exponents beyond every double -/

theorem lt_ten_pow_length {n : Nat} : n < 10 ^ (Nat.toDigits 10 n).length :=
  (Nat.length_toDigits_le_iff (by decide) Nat.length_toDigits_pos).mp (Nat.le_refl _)

theorem ten_pow_length_le {n : Nat} (hn : n ≠ 0) : 10 ^ ((Nat.toDigits 10 n).length - 1) ≤ n := by
  have hlength : 0 < (Nat.toDigits 10 n).length := Nat.length_toDigits_pos
  rcases Nat.eq_zero_or_pos ((Nat.toDigits 10 n).length - 1) with hone | hmore
  · rw [hone, Nat.pow_zero]
    exact Nat.pos_of_ne_zero hn
  · by_contra hlt
    have := (Nat.length_toDigits_le_iff (b := 10) (by decide) hmore).mpr (Nat.lt_of_not_le hlt)
    omega

/-- A power of two is at most the power of ten with a third of its exponent. -/
theorem two_pow_le_ten_pow {m n : Nat} (h : m ≤ 3 * n) : 2 ^ m ≤ 10 ^ n := by
  calc 2 ^ m ≤ 2 ^ (3 * n) := Nat.pow_le_pow_right (by decide) h
    _ = 8 ^ n := Nat.pow_mul 2 3 n
    _ ≤ 10 ^ n := Nat.pow_le_pow_left (by decide) n

theorem two_units_le : 2 * unitsInOne ≤ 10 ^ 400 := by
  unfold unitsInOne
  have h : 1074 + 1 ≤ 3 * 400 := by decide
  generalize 1074 = m at h ⊢
  generalize 400 = n at h ⊢
  rw [Nat.pow_eq, Nat.mul_comm, ← Nat.pow_succ]
  exact two_pow_le_ten_pow h

theorem doubleLimit_le : doubleLimit ≤ 10 ^ 400 := by
  unfold doubleLimit
  have h : 54 + 970 ≤ 3 * 400 := by decide
  generalize 54 = l at h ⊢
  generalize 970 = m at h ⊢
  generalize 400 = n at h ⊢
  calc (2 ^ l - 1) * 2 ^ m ≤ 2 ^ l * 2 ^ m := Nat.mul_le_mul_right _ (Nat.sub_le _ _)
    _ = 2 ^ (l + m) := (Nat.pow_add 2 l m).symm
    _ ≤ 10 ^ n := two_pow_le_ten_pow h

namespace Double

variable {digits : Nat} {e : Int}

/-- Decimals that are too small for every double round to zero. -/
theorem unitsOfDecimal_small (h : e + (Nat.toDigits 10 digits).length < -400) :
    unitsOfDecimal digits e = 0 := by
  have hdigits := lt_ten_pow_length (n := digits)
  generalize (Nat.toDigits 10 digits).length = length at h hdigits
  rcases e with k | k
  · rw [Int.ofNat_eq_natCast] at h
    omega
  · refine roundUnits_eq_zero ?_
    rw [Nat.pow_eq]
    have hunits := two_units_le
    have hexponent : length + 400 ≤ k + 1 := by omega
    generalize 400 = cut at hunits hexponent
    calc 2 * (digits * unitsInOne) = digits * (2 * unitsInOne) := by ring
      _ ≤ digits * 10 ^ cut := Nat.mul_le_mul_left _ hunits
      _ < 10 ^ length * 10 ^ cut := Nat.mul_lt_mul_of_pos_right hdigits (Nat.pow_pos (by decide))
      _ = 10 ^ (length + cut) := (Nat.pow_add 10 length cut).symm
      _ ≤ 10 ^ (k + 1) := Nat.pow_le_pow_right (by decide) hexponent

/-- A ratio past every double does not round to the magnitude of one. -/
theorem unitsLimit_le_roundUnits {num den : Nat} (hden : 0 < den) (h : doubleLimit * den ≤ num) :
    unitsLimit ≤ roundUnits (num * unitsInOne) den := by
  by_contra hlt
  have hfinite : (ofRatio false num den).isFinite = true := by
    rw [ofRatio, ofUnits, dif_pos (Nat.lt_of_not_le hlt)]
    rfl
  exact absurd ((isFinite_ofRatio hden).mp hfinite) (Nat.not_lt.mpr h)

/-- Decimals that are too large for every double do not round to the magnitude of one. -/
theorem unitsOfDecimal_large (hdigits : digits ≠ 0)
    (h : 400 < e + (Nat.toDigits 10 digits).length) : unitsLimit ≤ unitsOfDecimal digits e := by
  have hlimit := doubleLimit_le
  have hlead := ten_pow_length_le hdigits
  have hlength : 0 < (Nat.toDigits 10 digits).length := Nat.length_toDigits_pos
  generalize (Nat.toDigits 10 digits).length = length at h hlead hlength
  rcases e with k | k
  · refine unitsLimit_le_roundUnits Nat.one_pos ?_
    have hexponent : 400 ≤ length - 1 + k := by
      rw [Int.ofNat_eq_natCast] at h
      omega
    rw [Nat.mul_one, Nat.pow_eq]
    generalize 400 = cut at hlimit hexponent
    calc doubleLimit ≤ 10 ^ cut := hlimit
      _ ≤ 10 ^ (length - 1 + k) := Nat.pow_le_pow_right (by decide) hexponent
      _ = 10 ^ (length - 1) * 10 ^ k := Nat.pow_add 10 _ k
      _ ≤ digits * 10 ^ k := Nat.mul_le_mul_right _ hlead
  · refine unitsLimit_le_roundUnits (Nat.pow_pos (by decide)) ?_
    have hexponent : 400 + (k + 1) ≤ length - 1 := by omega
    rw [Nat.pow_eq]
    generalize 400 = cut at hlimit hexponent
    calc doubleLimit * 10 ^ (k + 1) ≤ 10 ^ cut * 10 ^ (k + 1) := Nat.mul_le_mul_right _ hlimit
      _ = 10 ^ (cut + (k + 1)) := (Nat.pow_add 10 cut _).symm
      _ ≤ 10 ^ (length - 1) := Nat.pow_le_pow_right (by decide) hexponent
      _ ≤ digits := hlead

/-- A decimal that rounds to the magnitude of a double reads as that double. -/
theorem ofDecimal_of_units {negative : Bool} {magnitude : Nat} (exact : Representable magnitude)
    (h : unitsOfDecimal digits e = magnitude) :
    ofDecimal negative digits e = .finite negative magnitude exact := by
  simp only [ofDecimal]
  split
  · next hzero =>
    have hmagnitude : magnitude = 0 := by
      rcases hzero with rfl | hsmall
      · rw [← h, unitsOfDecimal_zero]
      · rw [← h, unitsOfDecimal_small hsmall]
    subst hmagnitude
    rfl
  split
  · next hnonzero hlarge =>
    have := unitsOfDecimal_large (fun hdigits => hnonzero (.inl hdigits)) hlarge
    exact absurd exact.1 (by omega)
  · subst h
    rcases e with k | k
    · have hlt : roundUnits (digits * Nat.pow 10 k * unitsInOne) 1 < unitsLimit := exact.1
      simp only [ofRatio, ofUnits, unitsOfDecimal, dif_pos hlt]
    · have hlt : roundUnits (digits * unitsInOne) (Nat.pow 10 (k + 1)) < unitsLimit := exact.1
      simp only [ofRatio, ofUnits, unitsOfDecimal, dif_pos hlt]

end Double

end DocSchema
