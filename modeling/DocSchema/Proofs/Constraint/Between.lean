import DocSchema.Proofs.Expression.Rule
import DocSchema.Proofs.Number.Exact
import DocSchema.Proofs.Walk.Step

/-!
A range of numbers, asked for in two ways.

The builtin constraint `between` reads its two arguments as numbers. A custom validator can bind
them to two parameters and ask for the range in its body (`rangeBody`). Both come down to the exact
order of numbers (`Number.Within`), so they say the same of every number, however large the bounds
and the number are, and neither lets NaN pass. Main statement: `between_agrees`.
-/

namespace DocSchema

variable {a b : Int} {v : Number} {lo hi : String} {d e : Json} {u : Usage}

/-! ### The range -/

/-- An integer on the line of the numbers. -/
def integerAmount (n : Int) : ExtendedRat := ((n : ℚ) : WithTop ℚ)

/-- What the number stands for lies within two integers, both included; NaN lies within none. -/
def Number.Within (a b : Int) (v : Number) : Prop :=
  ∃ x, v.exact = some x ∧ integerAmount a ≤ x ∧ x ≤ integerAmount b

/-- The two comparisons with the bounds, as both constraints make them. -/
def Number.passes (a b : Int) (v : Number) : Bool := (Number.int a).le v && v.le (.int b)

theorem Number.passes_iff : v.passes a b = true ↔ v.Within a b := by
  rw [passes, Bool.and_eq_true, Within]
  cases hv : v.exact with
  | none =>
    rw [(not_ordered_of_exact (.inr hv)).2]
    simp
  | some x =>
    rw [le_iff rfl hv, le_iff hv rfl]
    simp [integerAmount]

/-! ### Two call arguments -/

/-- The text of an integer is read as that integer. -/
theorem Literal.coerce_toString (ha : (Nat.toDigits 10 a.natAbs).length ≤ digitLimit) :
    coerce (.string (toString a)) = .ok (.int a) :=
  ofText_of_spells (spells_int a ha)

/-- The call arguments that stand for two bounds. -/
def boundTexts (a b : Int) : List Json := [.string (toString a), .string (toString b)]

/-- The body that asks for the range between two parameters. -/
def rangeBody (lo hi : String) : String := s!"this >= ${lo} and this <= ${hi}"

/-- The rule of that body. -/
def rangeRule (lo hi : String) : Rule :=
  .allOf [⟨.atLeast, .parameter lo⟩, ⟨.atMost, .parameter hi⟩]

theorem toList_rangeBody (lo hi : String) : (rangeBody lo hi).toList =
    Rule.compared .atLeast [' '] [' '] ('$' :: lo.toList) ++ ([' '] ++ ("and".toList ++
      ([' '] ++ Rule.compared .atMost [' '] [' '] ('$' :: hi.toList)))) := by
  have hparts : (rangeBody lo hi).toList =
      "this >= $".toList ++ lo.toList ++ " and this <= $".toList ++ hi.toList := by
    simp only [rangeBody, String.toList_append]
    rfl
  rw [hparts]
  simp [Rule.compared_eq, Relation.text]

theorem ofText_rangeBody (hlo : Expression.IsName lo.toList) (hhi : Expression.IsName hi.toList) :
    Rule.ofText (rangeBody lo hi) = .ok (rangeRule lo hi) := by
  have hblank : Blanks [' '] := by decide
  have hgap : Blanks [' '] ∧ [' '] ≠ [] := ⟨hblank, List.cons_ne_nil _ _⟩
  have hspells := Rule.Spells.range (r := .atLeast) (s := .atMost) (by decide) (by decide)
    hblank hblank hblank hblank hgap hgap hlo hhi
  have hread := Rule.ofText_of_spells hspells
  rwa [← toList_rangeBody, String.ofList_toList, String.ofList_toList, String.ofList_toList]
    at hread

/-- The rule holds of what passes both comparisons with the values bound to its parameters. -/
theorem evaluate_rangeRule {bindings : Bindings} (hlo : bindings.valueOf lo = .int a)
    (hhi : bindings.valueOf hi = .int b) :
    (rangeRule lo hi).evaluate (some (.number v)) bindings = some (v.passes a b) := by
  simp only [rangeRule, Rule.evaluate, List.all_cons, List.all_nil, Bool.and_true,
    Comparison.holds, Operand.resolve, hlo, hhi]
  rfl

/-- The validator that asks for the range between its two parameters. -/
def rangeValidator (lo hi : String) (d e : Json) : CustomValidator :=
  ⟨rangeBody lo hi, [⟨.string lo, d⟩, ⟨.string hi, e⟩], rangeRule lo hi⟩

theorem ofBody_rangeBody (hlo : Expression.IsName lo.toList) (hhi : Expression.IsName hi.toList)
    (d e : Json) : CustomValidator.ofBody (rangeBody lo hi) [⟨.string lo, d⟩, ⟨.string hi, e⟩] =
      .ok (rangeValidator lo hi d e) := by
  rw [CustomValidator.ofBody, ofText_rangeBody hlo hhi]
  rfl

theorem valueOf_bind (hne : lo ≠ hi) (v w : Json) :
    (Bindings.bind (.string hi) w (Bindings.bind (.string lo) v [])).valueOf lo = v ∧
    (Bindings.bind (.string hi) w (Bindings.bind (.string lo) v [])).valueOf hi = w := by
  simp [Bindings.bind, Bindings.sameKey, Bindings.keyNumber?, Json.same, Bindings.valueOf, hne]

section Arguments

variable (hu : u.args = boundTexts a b) (ha : (Nat.toDigits 10 a.natAbs).length ≤ digitLimit)
  (hb : (Nat.toDigits 10 b.natAbs).length ≤ digitLimit)

include hu ha hb

theorem verdict_between : (ValidatorEntry.builtin .between).verdict u (some (.number v)) =
    .ok (some (v.passes a b)) := by
  have hresolved : u.resolved = .ok (.array [.int a, .int b]) := by
    rw [Usage.resolved, hu]
    simp only [boundTexts, Literal.coerceAll, Literal.coerce_toString ha,
      Literal.coerce_toString hb, bind, Except.bind, map_ok]
  rw [ValidatorEntry.verdict, hresolved]
  rfl

theorem verdict_rangeValidator (hne : lo ≠ hi) :
    (ValidatorEntry.custom (rangeValidator lo hi d e)).verdict u (some (.number v)) =
      .ok (some (v.passes a b)) := by
  obtain ⟨hvalueLo, hvalueHi⟩ := valueOf_bind hne (.int a) (.int b)
  have hincoming : u.incoming = boundTexts a b := by
    rw [Usage.incoming, hu]
    rfl
  have hbind : (rangeValidator lo hi d e).bind u =
      .ok (Bindings.bind (.string hi) (.int b) (Bindings.bind (.string lo) (.int a) [])) := by
    rw [CustomValidator.bind, hincoming]
    simp only [rangeValidator, boundTexts, Bindings.ofArguments, List.headD_cons, List.tail_cons,
      Json.isNull, Bool.false_eq_true, if_false, Literal.coerce_toString ha,
      Literal.coerce_toString hb, bind, Except.bind, Bindings.isKey, if_true]
  rw [ValidatorEntry.verdict, hbind, map_ok]
  exact congrArg Except.ok (evaluate_rangeRule hvalueLo hvalueHi)

end Arguments

/-! ### Applying them -/

/-- A use with a verdict is reported, by the code of its validator, where the verdict is false. -/
theorem Catalog.exists_report {c : Catalog} {target : Json} {entry : ValidatorEntry} {s : Slot}
    {answer : Bool} (hfound : c.validator? target u.name = .ok (some entry))
    (hverdict : entry.verdict u s = .ok (some answer)) (path : String) :
    ∃ ds, c.applyConstraint (m := Except Fault) target u s path = .ok ds ∧
      ((∃ d ∈ ds, d.code = entry.code) ↔ answer = false) := by
  refine ⟨unlessFalse (some answer)
    ⟨path, entry.code, s!"Constraint failed: {constraintName target u}"⟩, ?_, ?_⟩
  · refine (c.applyConstraint_eq _ _ _ path).trans ?_
    rw [useOutcome, hfound]
    simp only [hverdict, map_ok, Outcome.under_ok, unlessFalse_under]
  · cases answer <;> simp [unlessFalse]

/-- With the texts of two integers as call arguments, the builtin constraint `between` and a custom
validator that compares with two parameters report the same numbers, and both report exactly
those that do not lie within the two integers. What the parameters are called, and which defaults
they have, makes no difference. -/
theorem between_agrees (ha : (Nat.toDigits 10 a.natAbs).length ≤ digitLimit)
    (hb : (Nat.toDigits 10 b.natAbs).length ≤ digitLimit)
    (hlo : Expression.IsName lo.toList) (hhi : Expression.IsName hi.toList) (hne : lo ≠ hi)
    (d e : Json) : ∃ custom : CustomValidator,
      CustomValidator.ofBody (rangeBody lo hi) [⟨.string lo, d⟩, ⟨.string hi, e⟩] = .ok custom ∧
      ∀ (c c' : Catalog) (target target' : Json) (u u' : Usage) (path path' : String),
        u.args = boundTexts a b → u'.args = boundTexts a b →
        c.validator? target u.name = .ok (some (.builtin .between)) →
        c'.validator? target' u'.name = .ok (some (.custom custom)) →
        ∀ v : Number, ∃ ds ds',
          c.applyConstraint (m := Except Fault) target u (some (.number v)) path = .ok ds ∧
          c'.applyConstraint (m := Except Fault) target' u' (some (.number v)) path' = .ok ds' ∧
          ((∃ d ∈ ds, d.code = .constraintViolation) ↔ ∃ d ∈ ds', d.code = .validatorFailed) ∧
          ((∃ d ∈ ds, d.code = .constraintViolation) ↔ ¬v.Within a b) := by
  refine ⟨rangeValidator lo hi d e, ofBody_rangeBody hlo hhi d e, ?_⟩
  intro c c' target target' u u' path path' hu hu' hbuiltin hcustom v
  obtain ⟨ds, hds, hcode⟩ := Catalog.exists_report hbuiltin (verdict_between hu ha hb) path
  obtain ⟨ds', hds', hcode'⟩ :=
    Catalog.exists_report hcustom (verdict_rangeValidator hu' ha hb hne) path'
  refine ⟨ds, ds', hds, hds', hcode.trans hcode'.symm, hcode.trans ?_⟩
  rw [← Bool.not_eq_true, Number.passes_iff]

/-- A schema that asks numbers to be within a range by a validator of its own. -/
def measures : Catalog :=
  ⟨.string supportedVersion, .null, [],
    [("Number", [("within", rangeValidator "lo" "hi" (.string "0") .null)])]⟩

/-- The double just below a bound that no double equals is reported both ways. -/
theorem between_neighbours :
    let low : Int := 2 ^ 53 + 1
    let high : Int := 2 ^ 53 + 3
    let v : Number := .double (.ofInt (2 ^ 53))
    let u : Usage := ⟨.string "between", boundTexts low high, .null⟩
    let u' : Usage := ⟨.string "within", boundTexts low high, .null⟩
    (Nat.toDigits 10 low.natAbs).length ≤ digitLimit ∧
    (Nat.toDigits 10 high.natAbs).length ≤ digitLimit ∧
    Expression.IsName "lo".toList ∧ Expression.IsName "hi".toList ∧ "lo" ≠ "hi" ∧
    measures.validator? (.string "Number") u.name = .ok (some (.builtin .between)) ∧
    measures.validator? (.string "Number") u'.name =
      .ok (some (.custom (rangeValidator "lo" "hi" (.string "0") .null))) ∧
    ∃ ds ds',
      measures.applyConstraint (m := Except Fault) (.string "Number") u (some (.number v)) "$" =
        .ok ds ∧
      measures.applyConstraint (m := Except Fault) (.string "Number") u' (some (.number v)) "$" =
        .ok ds' ∧
      (∃ d ∈ ds, d.code = .constraintViolation) ∧ ∃ d ∈ ds', d.code = .validatorFailed := by
  intro low high v u u'
  have hlow : (Nat.toDigits 10 low.natAbs).length ≤ digitLimit := by decide +kernel
  have hhigh : (Nat.toDigits 10 high.natAbs).length ≤ digitLimit := by decide +kernel
  have hlo : Expression.IsName "lo".toList := by decide
  have hhi : Expression.IsName "hi".toList := by decide
  have hne : "lo" ≠ "hi" := by decide
  have hbuiltin : measures.validator? (.string "Number") u.name =
      .ok (some (.builtin .between)) := rfl
  have hcustom : measures.validator? (.string "Number") u'.name =
      .ok (some (.custom (rangeValidator "lo" "hi" (.string "0") .null))) := rfl
  have houtside : ¬v.Within low high := by
    rw [← Number.passes_iff]
    decide +kernel
  refine ⟨hlow, hhigh, hlo, hhi, hne, hbuiltin, hcustom, ?_⟩
  obtain ⟨custom, hread, hagree⟩ :=
    between_agrees hlow hhigh hlo hhi hne (.string "0") .null
  rw [ofBody_rangeBody hlo hhi, Except.ok.injEq] at hread
  subst hread
  obtain ⟨ds, ds', hds, hds', hsame, hwithin⟩ :=
    hagree measures measures _ _ u u' "$" "$" rfl rfl hbuiltin hcustom v
  have hreported := hwithin.mpr houtside
  exact ⟨ds, ds', hds, hds', hreported, hsame.mp hreported⟩

end DocSchema
