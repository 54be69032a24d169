import DocSchema.Builtin.Constraint
import DocSchema.Builtin.Type
import DocSchema.Expression.Guard
import DocSchema.Proofs.Constraint.Search
import DocSchema.Proofs.Json.Canonical

/-!
Equal values get equal verdicts.

What is asked of a value (its type, a bound, an order, equality with a literal, the end of a path in
it, whether its items differ) has one answer for all values that are equal, however they are written.
The two exceptions are patterns of custom validators, which see the text of a value, and divisibility,
which rounds integers and doubles in different ways. `Catalog.validator?_keeps` says where they come
from: a constraint that a name stands for keeps equality, unless a schema has patterns or the name is
that of divisibility.
-/

namespace DocSchema

/-! ### Slots -/

/-- What is in two slots is equal, or there is nothing in either. -/
abbrev Slot.Alike (s t : Slot) : Prop := Option.Rel Json.Alike s t

/-- A path of keys leads to equal values, or nowhere. -/
theorem Json.Alike.follow {v w : Json} (h : v.Alike w) (segments : List String) :
    Slot.Alike (v.follow segments) (w.follow segments) := by
  induction segments generalizing v w with
  | nil => exact .some h
  | cons key rest ih =>
    have hkey := h.get? key
    simp only [Json.follow]
    generalize v.get? key = a at hkey ⊢
    generalize w.get? key = b at hkey ⊢
    cases hkey with
    | none => exact .none
    | some hab => exact ih hab

/-- The rule is a search for a pattern. -/
def Rule.IsPattern : Rule → Prop
  | .matching .. => True
  | _ => False

namespace Slot.Alike

variable {s t : Slot}

theorem null_iff (h : Slot.Alike s t) : s = some .null ↔ t = some .null := by
  cases h with
  | none => exact .rfl
  | some h =>
    cases h.layer with
    | null => exact .rfl
    | _ => exact iff_of_false (by intro h; cases h) (by intro h; cases h)

theorem holds_eq (h : Slot.Alike s t) (u : Json) : s.holds u = t.holds u := by
  cases h with
  | none => rfl
  | some h => exact h.same_congr u

theorem relation_eq (h : Slot.Alike s t) (r : Relation) (u : Json) : r.holds s u = r.holds t u := by
  have horder : ∀ v w : Json, v.Alike w → ∀ r : Relation, r ≠ .equal → r ≠ .unequal →
      r.holds (some v) u = r.holds (some w) u := by
    intro v w h r hequal hunequal
    cases h.layer with
    | number hplace =>
      cases r <;> cases u <;>
        simp_all [Relation.holds, Relation.ordersNumbers, Number.lt, Number.le]
    | string => rfl
    | _ => cases r <;> simp_all [Relation.holds]
  cases h with
  | none => rfl
  | some h =>
    cases r with
    | equal => exact h.same_congr u
    | unequal => exact congrArg Bool.not (h.same_congr u)
    | _ => exact horder _ _ h _ (by simp) (by simp)

theorem guard_eq (h : Slot.Alike s t) (guard : Guard) : guard.evaluate s = guard.evaluate t := by
  cases guard with
  | unrecognized => rfl
  | path segments relation expected =>
    cases h with
    | none => rfl
    | some h =>
      cases h.layer with
      | @object fs gs =>
        have hend := h.follow segments
        simp only [Guard.evaluate]
        generalize (Json.object fs).follow segments = a at hend ⊢
        generalize (Json.object gs).follow segments = b at hend ⊢
        cases hend with
        | none => rfl
        | some hab => exact congrArg some (relation_eq (.some hab) relation expected)
      | _ => rfl

theorem rule_eq (h : Slot.Alike s t) {r : Rule} (hr : ¬r.IsPattern) (b : Bindings) :
    r.evaluate s b = r.evaluate t b := by
  cases r with
  | unrecognized => rfl
  | matching => exact absurd trivial hr
  | comparison => exact congrArg some (h.relation_eq _ _)
  | allOf parts =>
    refine congrArg (fun holds : Comparison → Bool => some (parts.all holds)) (funext fun p => ?_)
    exact h.relation_eq _ _

/-! ### Types -/

theorem accepts_eq (h : Slot.Alike s t) (type : BuiltinType) : type.accepts s = type.accepts t := by
  cases h with
  | none => rfl
  | some h =>
    cases h.layer with
    | number hplace =>
      have hfinite := Number.isFinite_congr hplace
      have hint := Number.toInt?_congr hplace
      cases type with
      | int => simp only [BuiltinType.accepts, BuiltinType.acceptsInt, hfinite, hint]
      | float | number => exact hfinite
      | _ => rfl
    | _ => cases type <;> rfl

/-! ### Builtin constraints -/

open BuiltinConstraint

theorem measure_alike (h : Slot.Alike s t) (m : Measure) :
    Option.Rel (fun a b : Number => a.place = b.place) (m.of s) (m.of t) := by
  cases h with
  | none => cases m <;> exact .none
  | some h =>
    cases h.layer with
    | number hplace =>
      cases m with
      | number => exact .some hplace
      | _ => exact .none
    | array hitems =>
      cases m with
      | items => exact .some (by rw [hitems.length_eq])
      | _ => exact .none
    | string =>
      cases m with
      | text => exact .some rfl
      | _ => exact .none
    | _ => cases m <;> exact .none

theorem bounded_eq (h : Slot.Alike s t) (m : Measure) {test : Number → Number → Bool}
    (htest : ∀ {a b : Number}, a.place = b.place → ∀ bound, test a bound = test b bound)
    (a : Json) : bounded m test s a = bounded m test t a := by
  have hmeasure := h.measure_alike m
  simp only [bounded]
  refine congrArg (fun judge => (numberOf a).map judge) (funext fun bound => ?_)
  generalize m.of s = x at hmeasure ⊢
  generalize m.of t = y at hmeasure ⊢
  cases hmeasure with
  | none => rfl
  | some hplace =>
    cases bound with
    | none => rfl
    | some bound => exact congrArg some (htest hplace bound)

theorem enclosed_eq (h : Slot.Alike s t) (a : Json) : enclosed s a = enclosed t a := by
  cases h with
  | none => rfl
  | some h =>
    cases h.layer with
    | number hplace =>
      cases a with
      | array bounds =>
        rcases bounds with _ | ⟨low, _ | ⟨high, _ | _⟩⟩
        case cons.cons.nil => simp only [enclosed, Number.le, hplace]
        all_goals rfl
      | _ => rfl
    | _ => rfl

theorem matched_eq (h : Slot.Alike s t) (a : Json) : matched s a = matched t a := by
  cases h with
  | none => rfl
  | some h =>
    simp only [matched]
    rcases textOf a with f | (_ | source)
    · rfl
    · cases h.layer <;> rfl
    · cases h.layer <;> rfl

theorem affixed_eq (h : Slot.Alike s t) (test : List Char → List Char → Bool) (a : Json) :
    affixed test s a = affixed test t a := by
  cases h with
  | none => rfl
  | some h => cases h.layer <;> rfl

theorem distinct_eq (h : Slot.Alike s t) (a : Json) :
    BuiltinConstraint.distinct s a = BuiltinConstraint.distinct t a := by
  cases h with
  | none => rfl
  | some h =>
    cases h.layer with
    | @array as bs hitems =>
      have htexts : as.map Json.canonicalText = bs.map Json.canonicalText :=
        map_eq_of_forall₂ hitems fun _ _ hab => hab.canonicalText_eq
      simp only [BuiltinConstraint.distinct, htexts]
    | _ => rfl

theorem evaluate_eq (h : Slot.Alike s t) {k : BuiltinConstraint} (hk : k ≠ .multipleOf)
    (a : Json) : k.evaluate s a = k.evaluate t a := by
  cases k with
  | atLeast m => exact h.bounded_eq m (fun hplace bound => by simp only [Number.le, hplace]) a
  | atMost m => exact h.bounded_eq m (fun hplace bound => by simp only [Number.le, hplace]) a
  | exactly m => exact h.bounded_eq m (fun hplace bound => Number.eq_congr hplace bound) a
  | pattern => exact h.matched_eq a
  | startsWith | endsWith => exact h.affixed_eq _ a
  | between => exact h.enclosed_eq a
  | multipleOf => exact absurd rfl hk
  | unique => exact h.distinct_eq a

end Slot.Alike

/-! ### What names stand for -/

/-- The verdicts of a constraint are the same on equal values. -/
def ValidatorEntry.KeepsEquality : ValidatorEntry → Prop
  | .builtin k => k ≠ .multipleOf
  | .custom v => ¬v.rule.IsPattern

/-- No custom validator searches for a pattern. -/
def Catalog.NoPatterns (c : Catalog) : Prop :=
  ∀ table ∈ c.validators, ∀ v ∈ table.2, ¬v.2.rule.IsPattern

/-- Divisibility goes by one name. -/
theorem BuiltinConstraint.name_of_multipleOf {target name : String}
    (h : BuiltinConstraint.find? target name = some .multipleOf) : name = "multipleOf" := by
  have hall : ∀ table ∈ catalog, ∀ e ∈ table.2, e.2 = .multipleOf → e.1 = "multipleOf" := by
    decide
  obtain ⟨table, htable, hname⟩ := Option.bind_eq_some_iff.mp h
  exact hall _ (mem_of_lookup htable) _ (mem_of_lookup hname) rfl

namespace Catalog

variable {c : Catalog} {target constraint : Json} {e : ValidatorEntry}

/-- What the search along the chain of references finds is registered somewhere on it. -/
theorem registered_of_search {fuel : Nat} (h : c.search constraint fuel target = .ok (some e)) :
    ∃ t name, constraint = .string name ∧ c.registered? t name = some e := by
  induction fuel generalizing target with
  | zero => cases h
  | succ fuel ih =>
    rw [search_succ] at h
    split at h
    · next hanswer => exact registered_of_answerAt (h ▸ hanswer)
    · split at h
      · exact ih h
      · cases h

theorem validator?_keeps (hc : c.NoPatterns) (hname : constraint ≠ .string "multipleOf")
    (h : c.validator? target constraint = .ok (some e)) : e.KeepsEquality := by
  obtain ⟨t, name, rfl, hentry⟩ := registered_of_search h
  simp only [registered?] at hentry
  split at hentry
  · next v hv =>
    cases hentry
    obtain ⟨table, htable, hv⟩ := Option.bind_eq_some_iff.mp hv
    exact hc _ (mem_of_lookup htable) _ (mem_of_lookup hv)
  · obtain ⟨k, hk, rfl⟩ := Option.map_eq_some_iff.mp hentry
    rintro rfl
    exact hname (congrArg Json.string (BuiltinConstraint.name_of_multipleOf hk))

end Catalog

end DocSchema
