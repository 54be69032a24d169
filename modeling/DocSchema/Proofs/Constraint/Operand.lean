import DocSchema.Schema.Validator
import Mathlib.Data.List.TakeWhile

/-!
When operands have a value.

An operand is text that is read as a literal. The only text without a value is an integer written
with more digits than are read (`Oversized`), so the arguments of a constraint, and the bindings of
a custom validator, have values unless such a text is among them, or a parameter is named by an
array or an object.
-/

namespace DocSchema

/-! ### Answers -/

/-- A computation that did not break off. -/
def Answers {α : Type} (r : Except Fault α) : Prop := ∃ a, r = .ok a

section Answers

variable {α β : Type}

@[simp] theorem answers_ok (a : α) : Answers (.ok a) := ⟨a, rfl⟩

@[simp] theorem not_answers_error (f : Fault) : ¬Answers (.error f : Except Fault α) :=
  fun ⟨_, h⟩ => by cases h

@[simp] theorem map_ok (k : α → β) (a : α) :
    (Except.ok a : Except Fault α).map k = .ok (k a) := rfl

@[simp] theorem map_error (k : α → β) (f : Fault) :
    (Except.error f : Except Fault α).map k = .error f := rfl

@[simp] theorem answers_map {r : Except Fault α} {k : α → β} : Answers (r.map k) ↔ Answers r := by
  cases r <;> simp

theorem answers_bind {r : Except Fault α} {k : α → Except Fault β} :
    Answers (r >>= k) ↔ ∃ a, r = .ok a ∧ Answers (k a) := by
  cases r <;> simp [bind, Except.bind]

end Answers

namespace Literal

/-! ### Numerals -/

/-- An integer written with more digits than are read, perhaps behind a minus. -/
def IsLongInteger (cs : List Char) : Prop :=
  ∃ ds, (cs = ds ∨ cs = '-' :: ds) ∧ (∀ d ∈ ds, isDigit d = true) ∧ digitLimit < ds.length

/-- Text that has no value as an operand. -/
def Oversized : Json → Prop
  | .string s => IsLongInteger (trim s.toList)
  | _ => False

/-- Digits to the end, at least one. -/
theorem unsigned?_eq_some_nil {cs ds : List Char} :
    unsigned? cs = some (ds, []) ↔ cs = ds ∧ ds ≠ [] ∧ ∀ d ∈ ds, isDigit d = true := by
  constructor
  · intro h
    simp only [unsigned?] at h
    split at h
    · cases h
    · next hne =>
      split at h
      · next hdrop =>
        rw [List.dropWhile_eq_nil_iff] at hdrop
        rw [List.takeWhile_eq_self_iff.mpr hdrop] at h hne
        obtain rfl : cs = ds := by simpa using h
        exact ⟨rfl, by simpa using hne, hdrop⟩
      · split at h
        · next hfraction =>
          simp only [Option.some.injEq, Prod.mk.injEq] at h
          simp [h.2] at hfraction
        · cases h
      · cases h
  · rintro ⟨rfl, hne, hdigits⟩
    simp [unsigned?, List.takeWhile_eq_self_iff.mpr hdigits,
      List.dropWhile_eq_nil_iff.mpr hdigits, hne]

theorem not_isDigit_minus : isDigit '-' = false := by decide

/-- A number text without a fraction is digits, perhaps behind a minus. -/
theorem exists_numberText? {cs ds : List Char} (hne : ds ≠ []) :
    (∃ t, numberText? cs = some t ∧ t.whole = ds ∧ t.fraction = []) ↔
      (cs = ds ∨ cs = '-' :: ds) ∧ ∀ d ∈ ds, isDigit d = true := by
  have hminus : (∀ d ∈ ds, isDigit d = true) → ∀ rest, ds ≠ '-' :: rest := by
    rintro hdigits rest rfl
    simp [not_isDigit_minus] at hdigits
  have hunsigned {negative : Bool} {rest : List Char} :
      (∃ t, (unsigned? rest).map (fun p => (⟨negative, p.1, p.2⟩ : NumberText)) = some t ∧
        t.whole = ds ∧ t.fraction = []) ↔ rest = ds ∧ ∀ d ∈ ds, isDigit d = true := by
    have h : unsigned? rest = some (ds, []) ↔ _ := unsigned?_eq_some_nil
    simp only [hne, ne_eq, not_false_eq_true, true_and] at h
    rw [← h]
    constructor
    · rintro ⟨t, ht, rfl, hf⟩
      obtain ⟨⟨w, f⟩, hu, rfl⟩ := Option.map_eq_some_iff.mp ht
      rw [hu, show f = [] from hf]
    · intro hu
      exact ⟨⟨negative, ds, []⟩, by rw [hu]; rfl, rfl, rfl⟩
  unfold numberText?
  split
  · next rest =>
    refine hunsigned.trans ?_
    constructor
    · rintro ⟨rfl, hdigits⟩
      exact ⟨.inr rfl, hdigits⟩
    · rintro ⟨h | h, hdigits⟩
      · exact absurd h.symm (hminus hdigits rest)
      · exact ⟨by simpa using h, hdigits⟩
  · next hcs =>
    refine hunsigned.trans ?_
    constructor
    · rintro ⟨rfl, hdigits⟩
      exact ⟨.inl rfl, hdigits⟩
    · rintro ⟨h | h, hdigits⟩
      · exact ⟨h, hdigits⟩
      · exact absurd h (hcs ds)

/-! ### Values of operands -/

theorem value_answers (t : NumberText) :
    Answers t.value ↔ ¬(t.fraction = [] ∧ digitLimit < t.whole.length) := by
  simp only [NumberText.value, List.isEmpty_iff]
  split
  · next h => split <;> simp_all
  · next h => simp [h]

/-- Trimmed text has a value unless it is an integer with too many digits. -/
theorem ofTrimmed_answers (cs : List Char) : Answers (ofTrimmed cs) ↔ ¬IsLongInteger cs := by
  have hlong : IsLongInteger cs ↔
      ∃ t, numberText? cs = some t ∧ t.fraction = [] ∧ digitLimit < t.whole.length := by
    constructor
    · rintro ⟨ds, hcs, hdigits, hlength⟩
      have hne : ds ≠ [] := by rintro rfl; exact Nat.not_lt_zero _ hlength
      obtain ⟨t, ht, rfl, hf⟩ := (exists_numberText? hne).mpr ⟨hcs, hdigits⟩
      exact ⟨t, ht, hf, hlength⟩
    · rintro ⟨t, ht, hf, hlength⟩
      have hne : t.whole ≠ [] := by intro h; rw [h] at hlength; exact Nat.not_lt_zero _ hlength
      obtain ⟨hcs, hdigits⟩ := (exists_numberText? hne).mp ⟨t, ht, rfl, hf⟩
      exact ⟨t.whole, hcs, hdigits, hlength⟩
  rw [hlong]
  simp only [ofTrimmed]
  split
  · next h => subst h; simp [show numberText? ['t', 'r', 'u', 'e'] = none by decide]
  split
  · next h => subst h; simp [show numberText? ['f', 'a', 'l', 's', 'e'] = none by decide]
  split
  · next h => subst h; simp [show numberText? ['n', 'u', 'l', 'l'] = none by decide]
  cases hnumber : numberText? cs with
  | none => dsimp only; split <;> simp
  | some t => simp [value_answers]

/-- An operand has a value unless it is oversized. -/
theorem coerce_answers (v : Json) : Answers (coerce v) ↔ ¬Oversized v := by
  cases v with
  | string s => exact ofTrimmed_answers _
  | _ => simp [coerce, Oversized]

theorem coerceAll_answers : ∀ vs : List Json,
    Answers (coerceAll vs) ↔ ∀ v ∈ vs, ¬Oversized v
  | [] => by simp [coerceAll]
  | v :: vs => by
    rw [List.forall_mem_cons, ← coerce_answers, ← coerceAll_answers vs]
    simp only [coerceAll, answers_bind]
    cases coerce v with
    | error f => simp
    | ok w => cases coerceAll vs <;> simp

end Literal

/-! ### Arguments and bindings -/

open Literal (Oversized)

/-- The arguments of a use have values unless one of them is oversized. -/
theorem Usage.resolved_answers (u : Usage) : Answers u.resolved ↔ ∀ a ∈ u.args, ¬Oversized a := by
  unfold Usage.resolved
  split
  · next h => simp [h]
  · next a h => simp [h, Literal.coerce_answers]
  · rw [answers_map, Literal.coerceAll_answers]

/-- A parameter can be bound to what is handed over for it, null if nothing is. -/
def Parameter.Binds (p : Parameter) (raw : Json) : Prop :=
  ¬Oversized (if raw.isNull then p.default else raw) ∧ Bindings.isKey p.name = true

/-- All parameters can be bound to arguments by position. -/
def Parameter.BindAll : List Parameter → List Json → Prop
  | [], _ => True
  | p :: ps, args => p.Binds (args.headD .null) ∧ BindAll ps args.tail

theorem Bindings.ofArguments_answers : ∀ (ps : List Parameter) (args : List Json) (done : Bindings),
    Answers (ofArguments ps args done) ↔ Parameter.BindAll ps args
  | [], _, _ => by simp [ofArguments, Parameter.BindAll]
  | p :: ps, args, done => by
    simp only [ofArguments, Parameter.BindAll, Parameter.Binds, ← Literal.coerce_answers,
      answers_bind]
    cases Literal.coerce (if (args.headD .null).isNull then p.default else args.headD .null) with
    | error f => simp
    | ok value => by_cases h : isKey p.name <;> simp [h, ofArguments_answers ps]

/-- A custom validator can be bound under a use. -/
theorem CustomValidator.bind_answers (v : CustomValidator) (u : Usage) :
    Answers (v.bind u) ↔ Parameter.BindAll v.parameters u.incoming :=
  Bindings.ofArguments_answers _ _ _

end DocSchema
