import DocSchema.Builtin.Constraint
import DocSchema.Builtin.Type
import DocSchema.Proofs.Constraint.Operand
import DocSchema.Proofs.Number.Range

/-!
When builtin types and constraints have an answer.

A builtin type has no answer only for an integer beyond every double, and only the numeric types
ask. A builtin constraint has none where its argument is oversized, where a quotient is not a finite
double, or where the pattern in its argument asks for what patterns cannot hold. `Judges` lists
these conditions; `accepts_answers` and `evaluate_answers` say that there are no others.
-/

namespace DocSchema

open Literal (Oversized)

/-! ### Builtin types -/

namespace BuiltinType

/-- A type whose predicate asks whether a number is finite. -/
def AsksNumber (t : BuiltinType) : Prop := t = .int ∨ t = .float ∨ t = .number

/-- An integer beyond every double. -/
def Beyond (s : Slot) : Prop := ∃ k : Int, s = some (.number (.int k)) ∧ doubleLimit ≤ k.natAbs

theorem isFinite_answers (n : Number) : Answers (isFinite n) ↔ n.overflows = false := by
  simp only [isFinite]
  split
  · next h => simp [h]
  · next h =>
    rw [Bool.not_eq_true] at h
    cases n <;> exact iff_of_true (answers_ok _) h

theorem beyond_number (n : Number) : Beyond (some (.number n)) ↔ n.overflows = true := by
  cases n with
  | int k => simp [Beyond, Number.overflows_int]
  | double x => simp [Beyond, Number.overflows]

theorem acceptsNumber_answers (s : Slot) : Answers (acceptsNumber s) ↔ ¬Beyond s := by
  rcases s with _ | (_ | _ | n | _ | _ | _)
  case some.number => rw [beyond_number, Bool.not_eq_true]; exact isFinite_answers n
  all_goals simp [acceptsNumber, Beyond]

theorem acceptsInt_answers (s : Slot) : Answers (acceptsInt s) ↔ ¬Beyond s := by
  rcases s with _ | (_ | _ | n | _ | _ | _)
  case some.number =>
    rw [beyond_number, Bool.not_eq_true, ← isFinite_answers]
    exact answers_map
  all_goals simp [acceptsInt, Beyond]

/-- A builtin type has an answer unless it asks a number and the integer is beyond every double. -/
theorem accepts_answers (t : BuiltinType) (s : Slot) :
    Answers (t.accepts s) ↔ ¬(t.AsksNumber ∧ Beyond s) := by
  cases t with
  | int => simpa [accepts, AsksNumber] using acceptsInt_answers s
  | float | number => simpa [accepts, AsksNumber] using acceptsNumber_answers s
  | _ => simp [accepts, AsksNumber]

end BuiltinType

/-! ### Builtin constraints -/

namespace BuiltinConstraint

/-- What a constraint needs of the value and its argument to have a verdict. -/
def Judges : BuiltinConstraint → Slot → Json → Prop
  | .between, s, a => ∀ n low high, s = some (.number n) → a = .array [low, high] →
    ¬Oversized low ∧ ¬Oversized high
  | .unique, s, a => ∀ items, s = some (.array items) → ¬Oversized a
  | .multipleOf, s, a => ¬Oversized a ∧ ∀ n step, s = some (.number n) →
    Literal.coerce a = .ok (.number step) → step.isZero = false → n.HasQuotient step
  | .pattern, s, a => ¬Oversized a ∧ ∀ text source, s = some (.string text) →
    Literal.coerce a = .ok (.string source) → Answers (patternOf source.toList)
  | _, _, a => ¬Oversized a

theorem numberOf_answers (a : Json) : Answers (numberOf a) ↔ ¬Oversized a := by
  rw [numberOf, answers_map, Literal.coerce_answers]

theorem textOf_answers (a : Json) : Answers (textOf a) ↔ ¬Oversized a := by
  rw [textOf, answers_map, Literal.coerce_answers]

theorem bounded_answers (m : Measure) (test : Number → Number → Bool) (s : Slot) (a : Json) :
    Answers (bounded m test s a) ↔ ¬Oversized a := by
  rw [bounded, answers_map, numberOf_answers]

theorem affixed_answers (test : List Char → List Char → Bool) (s : Slot) (a : Json) :
    Answers (affixed test s a) ↔ ¬Oversized a := by
  rw [affixed, answers_map, textOf_answers]

theorem enclosed_answers (s : Slot) (a : Json) : Answers (enclosed s a) ↔
    ∀ n low high, s = some (.number n) → a = .array [low, high] →
      ¬Oversized low ∧ ¬Oversized high := by
  unfold enclosed
  split
  · next n low high =>
    have hbounds : Answers (enclosed (some (.number n)) (.array [low, high])) ↔
        ¬Oversized low ∧ ¬Oversized high := by
      rw [← numberOf_answers, ← numberOf_answers]
      simp only [enclosed, answers_bind]
      cases numberOf low with
      | error f => simp
      | ok l =>
        cases numberOf high with
        | error f => simp
        | ok h => cases l <;> cases h <;> simp
    refine hbounds.trans ⟨?_, fun h => h n low high rfl rfl⟩
    rintro h n' low' high' - ⟨⟩
    exact h
  · next h =>
    simp only [answers_ok, true_iff]
    intro n low high hs ha
    exact absurd ha (h n low high hs)

theorem divisible_answers (s : Slot) (a : Json) : Answers (divisible s a) ↔
    ¬Oversized a ∧ ∀ n step, s = some (.number n) →
      Literal.coerce a = .ok (.number step) → step.isZero = false → n.HasQuotient step := by
  rw [← Literal.coerce_answers]
  simp only [divisible, numberOf, answers_bind]
  cases Literal.coerce a with
  | error f => simp
  | ok v =>
    simp only [map_ok, Except.ok.injEq, exists_eq_left', answers_ok, true_and]
    cases v with
    | number step =>
      rcases s with _ | (_ | _ | n | _ | _ | _)
      case some.number =>
        cases hzero : step.isZero with
        | true => simp [Json.number?, hzero]
        | false =>
          have hanswers : Answers (n.multipleOf step) ↔ _ := Number.multipleOf_eq_ok hzero
          simp [Json.number?, hzero, hanswers]
      all_goals simp [Json.number?]
    | _ => simp [Json.number?]

theorem matched_answers (s : Slot) (a : Json) : Answers (matched s a) ↔
    ¬Oversized a ∧ ∀ text source, s = some (.string text) →
      Literal.coerce a = .ok (.string source) → Answers (patternOf source.toList) := by
  rw [← Literal.coerce_answers]
  simp only [matched, textOf, answers_bind]
  cases Literal.coerce a with
  | error f => simp
  | ok v =>
    simp only [map_ok, Except.ok.injEq, exists_eq_left', answers_ok, true_and]
    cases v with
    | string source =>
      rcases s with _ | (_ | _ | _ | text | _ | _)
      case some.string => simp [Json.string?]
      all_goals simp [Json.string?]
    | _ => simp [Json.string?]

theorem distinct_answers (s : Slot) (a : Json) :
    Answers (distinct s a) ↔ ∀ items, s = some (.array items) → ¬Oversized a := by
  rcases s with _ | (_ | _ | _ | _ | items | _)
  case some.array => simp [distinct, Literal.coerce_answers]
  all_goals simp [distinct]

/-- A constraint has a verdict exactly under its conditions. -/
theorem evaluate_answers (k : BuiltinConstraint) (s : Slot) (a : Json) :
    Answers (k.evaluate s a) ↔ k.Judges s a := by
  cases k with
  | atLeast m | atMost m | exactly m => exact bounded_answers m _ s a
  | startsWith | endsWith => exact affixed_answers _ s a
  | pattern => exact matched_answers s a
  | multipleOf => exact divisible_answers s a
  | between => exact enclosed_answers s a
  | unique => exact distinct_answers s a

end BuiltinConstraint

end DocSchema
