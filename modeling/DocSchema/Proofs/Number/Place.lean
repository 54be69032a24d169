import DocSchema.Builtin.Type
import DocSchema.Proofs.Number.Range

/-!
Numbers at the same place.

An integer and a double that stand at the same place are one number written in two ways. Whatever is
asked of a number by its place does not tell them apart: whether it equals an integer
(`toInt?_congr`), and whether it is finite (`isFinite_congr`), since an integer that is a double in
another writing has a finite one. Two doubles at one place that is no integer are the same double.
-/

namespace DocSchema

/-! ### Magnitudes with 53 bits -/

/-- A magnitude of 53 significant bits below a power of two is at most the greatest such one. -/
theorem le_of_two_pow_log2_dvd {u k : Nat} (hlt : u < 2 ^ (53 + k))
    (hdvd : 2 ^ (u.log2 - 52) ∣ u) : u ≤ (2 ^ 53 - 1) * 2 ^ k := by
  by_cases hsmall : u < 2 ^ (52 + k)
  · rw [Nat.pow_add] at hsmall
    have := Nat.mul_le_mul_right (2 ^ k) (show 2 ^ 52 ≤ 2 ^ 53 - 1 by decide)
    omega
  · -- the magnitude has as many bits as it can, so it is a multiple of the last one
    have hlarge : 2 ^ (52 + k) ≤ u := Nat.le_of_not_lt hsmall
    have hpos : u ≠ 0 := Nat.ne_of_gt (Nat.lt_of_lt_of_le (Nat.two_pow_pos _) hlarge)
    have hlog : u.log2 = 52 + k := by
      refine Nat.le_antisymm ?_ ((Nat.le_log2 hpos).mpr hlarge)
      exact Nat.le_of_lt_succ ((Nat.log2_lt hpos).mpr (by rwa [show (52 + k).succ = 53 + k by omega]))
    rw [hlog, Nat.add_sub_cancel_left] at hdvd
    obtain ⟨q, rfl⟩ := hdvd
    rw [Nat.pow_add, Nat.mul_comm] at hlt
    have hq : q < 2 ^ 53 := Nat.lt_of_mul_lt_mul_right hlt
    rw [Nat.mul_comm]
    exact Nat.mul_le_mul_right _ (by omega)

/-- An integer that is the magnitude of a double stays below the limit. -/
theorem lt_doubleLimit_of_representable {a : Nat} (h : Representable (a * unitsInOne)) :
    a < doubleLimit := by
  obtain ⟨hlt, hdvd⟩ := h
  rw [unitsLimit_eq] at hlt
  rw [Nat.pow_eq] at hdvd
  have hle := le_of_two_pow_log2_dvd hlt hdvd
  have hregroup (power one : Nat) :
      (2 ^ 53 - 1) * (power * (2 * one)) = (2 ^ 53 - 1) * 2 * power * one := by ring
  rw [two_pow_units, hregroup] at hle
  have ha : a ≤ (2 ^ 53 - 1) * 2 * 2 ^ 970 := Nat.le_of_mul_le_mul_right hle unitsInOne_pos
  unfold doubleLimit
  generalize 970 = e at ha ⊢
  have hpower := Nat.two_pow_pos e
  omega

/-! ### Numbers at the same place -/

namespace Double

theorem natAbs_signedUnits (negative : Bool) (units : Nat) :
    (signedUnits negative units).natAbs = units := by
  cases negative <;> simp [signedUnits]

/-- Magnitudes other than zero have one sign. -/
theorem signedUnits_inj {s t : Bool} {u v : Nat} (hu : u ≠ 0)
    (h : signedUnits s u = signedUnits t v) : s = t ∧ u = v := by
  cases s <;> cases t <;> simp [signedUnits] at h <;> simp <;> omega

/-- The finite doubles stand between the ends of the number line. -/
theorem isFinite_iff {x : Double} : x.isFinite = true ↔ ∃ k, x.place = some (.units k) := by
  rcases x with _ | negative | _
  · simp [isFinite, place]
  · cases negative <;> simp [isFinite, place]
  · simp [isFinite, place]

theorem signedUnits_mul (negative : Bool) (q one : Nat) :
    signedUnits negative (q * one) = signedUnits negative q * one := by
  cases negative <;> simp [signedUnits]

end Double

namespace Number

variable {m n : Number}

/-- Equal numbers stand at the same place. -/
theorem place_eq_of_eq (h : m.eq n = true) : m.place = n.place := by
  simp only [eq] at h
  split at h
  · next p q hp hq => rw [hp, hq, of_decide_eq_true h]
  · cases h

theorem eq_congr (h : m.place = n.place) (k : Number) : m.eq k = n.eq k := by
  rw [eq, eq, h]

/-- A number equals an integer if it stands where the integer stands. -/
theorem toInt?_eq_some {k : Int} :
    m.toInt? = some k ↔ m.place = some (.units (k * unitsInOne)) := by
  have hpos : (unitsInOne : Int) ≠ 0 := Int.natCast_ne_zero.mpr (Nat.ne_of_gt unitsInOne_pos)
  rcases m with a | (_ | negative | ⟨negative, units, exact⟩)
  · simp only [toInt?, place, Option.some.injEq, Place.units.injEq, Int.mul_eq_mul_right_iff hpos]
  · exact iff_of_false (by intro h; cases h) (by intro h; cases h)
  · cases negative <;> exact iff_of_false (by intro h; cases h) (by intro h; cases h)
  · simp only [toInt?, Double.toInt?, place, Double.place, Option.some.injEq, Place.units.injEq]
    constructor
    · intro h
      split at h
      · next hmod =>
        cases h
        rw [← Double.signedUnits_mul, Nat.div_mul_cancel (Nat.dvd_of_mod_eq_zero hmod)]
      · cases h
    · intro h
      have hunits : units = k.natAbs * unitsInOne := by
        rw [← Double.natAbs_signedUnits negative units, h, Int.natAbs_mul, Int.natAbs_natCast]
      rw [hunits, Double.signedUnits_mul] at h
      rw [hunits, if_pos (Nat.mul_mod_left _ _), Nat.mul_div_cancel _ unitsInOne_pos,
        Int.eq_of_mul_eq_mul_right hpos h]

/-- Numbers at the same place equal the same integer, or both none. -/
theorem toInt?_congr (h : m.place = n.place) : m.toInt? = n.toInt? := by
  refine Option.ext fun k => ?_
  rw [toInt?_eq_some, toInt?_eq_some, h]

@[simp] theorem overflows_double (x : Double) : (double x).overflows = false := rfl

/-- An integer at the place of a double is within the reach of doubles. -/
theorem overflows_of_place_eq {a : Int} {x : Double} (h : (int a).place = x.place) :
    (int a).overflows = false := by
  rw [← Bool.not_eq_true, overflows_int, Nat.not_le]
  rcases x with _ | negative | ⟨negative, units, exact⟩
  · cases h
  · cases negative <;> cases h
  · have hunits : Double.signedUnits negative units = a * unitsInOne :=
      Place.units.inj (Option.some.inj h.symm)
    refine lt_doubleLimit_of_representable ?_
    rwa [← Int.natAbs_natCast unitsInOne, ← Int.natAbs_mul, ← hunits, Double.natAbs_signedUnits]

/-- Numbers at the same place are finite alike, and both are or both are not within reach. -/
theorem isFinite_congr (h : m.place = n.place) :
    BuiltinType.isFinite m = BuiltinType.isFinite n := by
  have mixed {a : Int} {x : Double} (h : (int a).place = x.place) :
      BuiltinType.isFinite (.int a) = BuiltinType.isFinite (.double x) := by
    have hfinite : x.isFinite = true := Double.isFinite_iff.mpr ⟨_, h.symm⟩
    simp [BuiltinType.isFinite, overflows_of_place_eq h, hfinite]
  rcases m with a | x <;> rcases n with b | y
  · have hab : (int a).toInt? = (int b).toInt? := toInt?_congr h
    cases hab
    rfl
  · exact mixed h
  · exact (mixed h.symm).symm
  · have hxy : x.isFinite = y.isFinite := by
      have hplace : x.place = y.place := h
      rw [Bool.eq_iff_iff, Double.isFinite_iff, Double.isFinite_iff, hplace]
    simp [BuiltinType.isFinite, hxy]

/-- Numbers at the same place that equal no integer are the same double. -/
theorem eq_of_toInt?_eq_none (h : m.place = n.place) (hnone : m.toInt? = none) : m = n := by
  have hnone' : n.toInt? = none := by rw [← toInt?_congr h, hnone]
  rcases m with a | x <;> rcases n with b | y
  · cases hnone
  · cases hnone
  · cases hnone'
  · have hplace : x.place = y.place := h
    congr 1
    rcases x with _ | s | ⟨s, u, hu⟩ <;> rcases y with _ | t | ⟨t, v, hv⟩ <;>
      simp [Double.place] at hplace
    · rfl
    · cases s <;> cases t <;> simp at hplace <;> rfl
    · split at hplace <;> cases hplace
    · split at hplace <;> cases hplace
    · have hpos : u ≠ 0 := by
        rintro rfl
        simp [toInt?, Double.toInt?] at hnone
      obtain ⟨rfl, rfl⟩ := Double.signedUnits_inj hpos hplace
      rfl

end Number

end DocSchema
