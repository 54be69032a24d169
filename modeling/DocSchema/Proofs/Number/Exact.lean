import DocSchema.Proofs.Number.Range
import Mathlib.Algebra.Order.Field.Basic
import Mathlib.Algebra.Order.Field.Rat
import Mathlib.Order.WithBot

/-!
What numbers stand for.

Every JSON number but NaN stands for a rational number or for one of the two infinities: an integer
for itself, however large it is, and a finite double for its whole number of units. Comparing two
numbers compares what they stand for (`lt_iff`, `eq_iff`, `le_iff`), so nothing is rounded where an
integer meets a double.
-/

namespace DocSchema

/-- The rational numbers between two infinities. -/
abbrev ExtendedRat := WithBot (WithTop ℚ)

/-- What a number of units comes to. -/
def unitsAsRat (k : Int) : ℚ := k / unitsInOne

/-- What a double stands for; NaN stands for nothing. -/
def Double.exact : Double → Option ExtendedRat
  | .nan => none
  | .infinite negative => some (if negative then ⊥ else ⊤)
  | .finite negative units _ => some (unitsAsRat (signedUnits negative units) : WithTop ℚ)

/-- What a number stands for; NaN stands for nothing. -/
def Number.exact : Number → Option ExtendedRat
  | .int n => some ((n : ℚ) : WithTop ℚ)
  | .double x => x.exact

/-- What stands at a place. -/
def Place.exact : Place → ExtendedRat
  | .bottom => ⊥
  | .units k => (unitsAsRat k : WithTop ℚ)
  | .top => ⊤

theorem cast_unitsInOne_pos : 0 < (unitsInOne : ℚ) := Nat.cast_pos.mpr unitsInOne_pos

theorem unitsAsRat_lt {j k : Int} : unitsAsRat j < unitsAsRat k ↔ j < k := by
  rw [unitsAsRat, unitsAsRat, div_lt_div_iff_of_pos_right cast_unitsInOne_pos, Int.cast_lt]

theorem unitsAsRat_inj {j k : Int} : unitsAsRat j = unitsAsRat k ↔ j = k := by
  rw [unitsAsRat, unitsAsRat, div_left_inj' cast_unitsInOne_pos.ne', Int.cast_inj]

/-- The units of an integer come to the integer. -/
theorem unitsAsRat_mul (n : Int) : unitsAsRat (n * unitsInOne) = n := by
  rw [unitsAsRat, Int.cast_mul, Int.cast_natCast, mul_div_cancel_right₀ _ cast_unitsInOne_pos.ne']

namespace Place

variable {p q : Place}

/-- Further down the line stands less. -/
theorem exact_lt_exact : p.exact < q.exact ↔ p.lt q = true := by
  cases p with
  | bottom => cases q <;> simp [exact, lt]
  | units j =>
    cases q with
    | bottom => simp [exact, lt]
    | units k => simp [exact, lt, unitsAsRat_lt]
    | top => exact iff_of_true (WithBot.coe_lt_coe.mpr (WithTop.coe_lt_top _)) rfl
  | top => cases q <;> simp [exact, lt]

/-- Nothing stands at two places. -/
theorem exact_inj : p.exact = q.exact ↔ p = q := by
  cases p with
  | units j =>
    cases q with
    | units k => simp [exact, unitsAsRat_inj]
    | _ => simp [exact]
  | _ => cases q <;> simp [exact]

end Place

namespace Number

variable {m n : Number} {x y : ExtendedRat}

theorem exact_eq_place (n : Number) : n.exact = n.place.map Place.exact := by
  rcases n with k | (_ | negative | ⟨negative, units, h⟩)
  · simp only [exact, place, Place.exact, Option.map_some, unitsAsRat_mul]
  · rfl
  · cases negative <;> rfl
  · rfl

/-- Only NaN stands for nothing. -/
theorem exact_eq_none : n.exact = none ↔ n = .double .nan := by
  rcases n with k | (_ | negative | ⟨negative, units, h⟩) <;> simp [exact, Double.exact]

theorem exists_place (h : m.exact = some x) : ∃ p, m.place = some p ∧ p.exact = x := by
  rw [exact_eq_place] at h
  exact Option.map_eq_some_iff.mp h

/-- Numbers are compared as what they stand for. -/
theorem lt_iff (hm : m.exact = some x) (hn : n.exact = some y) : m.lt n = true ↔ x < y := by
  obtain ⟨p, hp, rfl⟩ := exists_place hm
  obtain ⟨q, hq, rfl⟩ := exists_place hn
  rw [Place.exact_lt_exact, lt, hp, hq]

theorem eq_iff (hm : m.exact = some x) (hn : n.exact = some y) : m.eq n = true ↔ x = y := by
  obtain ⟨p, hp, rfl⟩ := exists_place hm
  obtain ⟨q, hq, rfl⟩ := exists_place hn
  rw [Place.exact_inj, eq, hp, hq]
  exact decide_eq_true_iff

theorem le_iff (hm : m.exact = some x) (hn : n.exact = some y) : m.le n = true ↔ x ≤ y := by
  obtain ⟨p, hp, rfl⟩ := exists_place hm
  obtain ⟨q, hq, rfl⟩ := exists_place hn
  simp [le, hp, hq, le_iff_lt_or_eq, Place.exact_lt_exact, Place.exact_inj]

/-- Nothing is compared with NaN. -/
theorem not_ordered_of_exact (h : m.exact = none ∨ n.exact = none) :
    m.lt n = false ∧ m.le n = false := by
  simp only [exact_eq_place, Option.map_eq_none_iff] at h
  rcases h with h | h
  · simp [lt, le, h]
  · cases hm : m.place <;> simp [lt, le, h, hm]

end Number

end DocSchema
