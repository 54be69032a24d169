import DocSchema.Proofs.Constraint.Operand
import DocSchema.Proofs.Constraint.Search

/-!
What builtin types and constraints break off with is never a lack of fuel.

Lookups, operands, builtin types and builtin constraints each have a result or a fault of their own.
Only the walk counts fuel, so `Fault.exhausted` can only come from a visit.
-/

namespace DocSchema

/-- A computation did not run out of fuel: it has a result, or another fault. -/
def Ends {α : Type} (r : Except Fault α) : Prop := r ≠ .error .exhausted

section Ends

variable {α β : Type}

@[simp] theorem ends_ok (a : α) : Ends (.ok a) := by simp [Ends]

@[simp] theorem ends_error {f : Fault} : Ends (.error f : Except Fault α) ↔ f ≠ .exhausted := by
  simp [Ends]

@[simp] theorem ends_map {r : Except Fault α} {k : α → β} : Ends (r.map k) ↔ Ends r := by
  cases r <;> simp

theorem Ends.bind {r : Except Fault α} {k : α → Except Fault β} (h : Ends r)
    (hk : ∀ a, r = .ok a → Ends (k a)) : Ends (r >>= k) := by
  cases r with
  | error f => exact ends_error.mpr (ends_error.mp h)
  | ok a => exact hk a rfl

end Ends

/-! ### Operands -/

theorem Literal.value_ends (t : NumberText) : Ends t.value := by
  simp only [NumberText.value]
  split
  · split <;> simp
  · simp

theorem Literal.coerce_ends (v : Json) : Ends (coerce v) := by
  cases v with
  | string s =>
    simp only [coerce, ofText, ofTrimmed]
    split
    · simp
    split
    · simp
    split
    · simp
    split
    · rw [ends_map]
      exact value_ends _
    · split <;> simp
  | _ => simp [coerce]

theorem Literal.coerceAll_ends : ∀ vs : List Json, Ends (coerceAll vs)
  | [] => by simp [coerceAll]
  | v :: vs => (coerce_ends v).bind fun _ _ => (coerceAll_ends vs).bind fun _ _ => ends_ok _

theorem Usage.resolved_ends (u : Usage) : Ends u.resolved := by
  unfold Usage.resolved
  split
  · simp
  · exact Literal.coerce_ends _
  · rw [ends_map]
    exact Literal.coerceAll_ends _

theorem Bindings.ofArguments_ends : ∀ (ps : List Parameter) (args : List Json) (done : Bindings),
    Ends (ofArguments ps args done)
  | [], _, _ => by simp [ofArguments]
  | p :: ps, args, done => by
    simp only [ofArguments]
    refine (Literal.coerce_ends _).bind fun value _ => ?_
    split
    · exact ofArguments_ends ps _ _
    · simp

/-! ### Builtin types and constraints -/

theorem Number.multipleOf_ends (value step : Number) : Ends (value.multipleOf step) := by
  have bounded (q : Double) : Ends q.bounded := by cases q <;> simp [Double.bounded]
  have toDouble (a : Number) : Ends a.toDouble? := by unfold toDouble?; split <;> simp
  have quotient : Ends (value.quotient step) := by
    unfold Number.quotient
    split
    · exact bounded _
    · exact (toDouble _).bind fun _ _ => (toDouble _).bind fun _ _ => ends_ok _
  refine quotient.bind fun q _ => ?_
  cases q <;> simp [Double.nearlyWhole]

theorem BuiltinType.accepts_ends (t : BuiltinType) (s : Slot) : Ends (t.accepts s) := by
  have finite (n : Number) : Ends (isFinite n) := by
    unfold isFinite
    split
    · simp
    · split <;> simp
  cases t with
  | int =>
    simp only [accepts, acceptsInt]
    split
    · rw [ends_map]; exact finite _
    · simp
  | float | number =>
    simp only [accepts, acceptsNumber]
    split
    · exact finite _
    · simp
  | _ => simp [accepts]

namespace BuiltinConstraint

theorem patternOf_ends (text : List Char) : Ends (patternOf text) := by
  have compile (source letters : List Char) : Ends (Pattern.compile source letters) := by
    unfold Pattern.compile
    split
    · simp
    · unfold Pattern.SourceError.toOutcome
      split <;> simp
  have literal (cs : List Char) : Ends (Pattern.compileLiteral cs) := by
    unfold Pattern.compileLiteral
    split
    · exact compile _ _
    · simp
  unfold patternOf
  split
  · split
    · exact literal _
    · exact compile _ _
  · exact compile _ _

theorem evaluate_ends (k : BuiltinConstraint) (s : Slot) (a : Json) : Ends (k.evaluate s a) := by
  have number (a : Json) : Ends (numberOf a) := ends_map.mpr (Literal.coerce_ends a)
  have text : Ends (textOf a) := ends_map.mpr (Literal.coerce_ends a)
  cases k with
  | atLeast m | atMost m | exactly m => exact ends_map.mpr (number a)
  | startsWith | endsWith => exact ends_map.mpr text
  | pattern =>
    refine text.bind fun source _ => ?_
    split
    · exact ends_map.mpr (patternOf_ends _)
    · simp
  | multipleOf =>
    refine (number a).bind fun step _ => ?_
    split
    · split
      · simp
      · exact ends_map.mpr (Number.multipleOf_ends _ _)
    · simp
  | between =>
    simp only [evaluate, enclosed]
    split
    · refine (number _).bind fun low _ => (number _).bind fun high _ => ?_
      split <;> simp
    · simp
  | unique =>
    simp only [evaluate, distinct]
    split
    · exact ends_map.mpr (Literal.coerce_ends a)
    · simp

end BuiltinConstraint

/-! ### Lookups -/

namespace Catalog

theorem type?_ends (c : Catalog) (name : Json) : Ends (c.type? name) := by
  cases name <;> simp [type?, Bindings.isKey]

theorem search_ends (c : Catalog) (constraint : Json) (fuel : Nat) (target : Json) :
    Ends (c.search constraint fuel target) := by
  induction fuel generalizing target with
  | zero => simp [search]
  | succ fuel ih =>
    rw [search_succ]
    split
    · next r hr => exact fun h => answerAt_ne_exhausted (h ▸ hr)
    · split
      · exact ih _
      · simp

theorem validator?_ends (c : Catalog) (target constraint : Json) :
    Ends (c.validator? target constraint) := c.search_ends constraint _ target

end Catalog

end DocSchema
