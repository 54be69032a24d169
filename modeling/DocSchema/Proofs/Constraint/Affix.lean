import DocSchema.Proofs.Literal
import DocSchema.Proofs.Walk.Step

/-!
Texts that start or end with an argument.

A call argument is an operand: it is read as a literal when a use hands it over, and builtin
constraints read the text that comes out as a literal once more. So `startsWith` and `endsWith` test
the text that an argument stands for exactly if that text is plain, and stands for itself
(`affix_tests_iff_plain`). The text of a quoted argument that looks like a number, a keyword or a
quoted text, or has white space at an end, is taken for something else, and where that is no text the
constraint accepts everything (`startsWith_digit`).
-/

namespace DocSchema

/-- The two ends of a text at which another one can stand. -/
inductive Affix where
  | front
  | back

namespace Affix

/-- The constraint that a text stands at this end of another one. -/
def constraint : Affix → BuiltinConstraint
  | .front => .startsWith
  | .back => .endsWith

/-- What that constraint is called. -/
def name : Affix → String
  | .front => "startsWith"
  | .back => "endsWith"

/-- The first text stands at this end of the second one. -/
def Fits : Affix → String → String → Prop
  | .front, affix, text => affix.toList <+: text.toList
  | .back, affix, text => affix.toList <:+ text.toList

instance (a : Affix) (affix text : String) : Decidable (a.Fits affix text) :=
  match a with
  | .front => inferInstanceAs (Decidable (affix.toList <+: text.toList))
  | .back => inferInstanceAs (Decidable (affix.toList <:+ text.toList))

/-- The use of that constraint with one call argument; what is said besides does not matter. -/
def use (a : Affix) (argument : String) (besides : Json) : Usage :=
  ⟨.string a.name, [.string argument], besides⟩

variable {a : Affix} {s t v : String}

theorem fits_self : a.Fits s s := by
  cases a
  · exact List.prefix_refl _
  · exact List.suffix_refl _

theorem fits_antisymm (hst : a.Fits s t) (hts : a.Fits t s) : s = t := by
  refine String.toList_inj.mp ?_
  cases a
  · exact List.IsPrefix.eq_of_length_le hst hts.length_le
  · exact List.IsSuffix.eq_of_length_le hst hts.length_le

/-- Only the empty text stands at an end of the empty text. -/
theorem not_fits_empty (hs : s ≠ "") : ¬a.Fits s "" := by
  intro h
  refine hs (String.toList_inj.mp ?_)
  cases a
  · exact List.prefix_nil.mp h
  · exact List.suffix_nil.mp h

/-- The constraint reads its argument as a literal, and tests for the text that comes out. -/
theorem evaluate_constraint (argument : Json) : a.constraint.evaluate (some (.string v)) argument =
    (Literal.coerce argument).map fun w => w.string?.map fun t => decide (a.Fits t v) := by
  have htext (test : List Char → List Char → Bool)
      (htest : ∀ t : String, test t.toList v.toList = decide (a.Fits t v)) :
      BuiltinConstraint.affixed test (some (.string v)) argument =
        (Literal.coerce argument).map fun w => w.string?.map fun t => decide (a.Fits t v) := by
    rw [BuiltinConstraint.affixed, BuiltinConstraint.textOf]
    rcases Literal.coerce argument with f | w
    · rfl
    · cases w with
      | string t => simp [Json.string?, Except.map, htest]
      | _ => rfl
  cases a
  · refine htext _ fun t => ?_
    rw [Bool.eq_iff_iff, decide_eq_true_iff]
    exact List.isPrefixOf_iff_prefix
  · refine htext _ fun t => ?_
    rw [Bool.eq_iff_iff, decide_eq_true_iff]
    exact List.isSuffixOf_iff_suffix

end Affix

namespace Catalog

variable {c : Catalog} {a : Affix} {q s v : String} {besides : Json} {path : String}

/-- What the constraint comes to if the text of its argument stands for `w` in turn: any other value
than a text is let pass. -/
def affixReport (a : Affix) (v path : String) (w : Json) : List Diagnostic :=
  match w with
  | .string t =>
    if a.Fits t v then []
    else [⟨path, .constraintViolation, s!"Constraint failed: String.{a.name}"⟩]
  | _ => []

/-- The use of the constraint adds a violation. -/
def AddsViolation (c : Catalog) (a : Affix) (q : String) (besides : Json) (v path : String) : Prop :=
  ∃ ds, c.applyConstraint (m := Except Fault) (.string "String") (a.use q besides)
    (some (.string v)) path = .ok ds ∧ ∃ d ∈ ds, d.code = .constraintViolation

/-- The text that an argument stands for is read as a literal once more. -/
theorem applyConstraint_affix
    (hbuiltin : c.registered? "String" a.name = some (.builtin a.constraint))
    (hq : Literal.coerce (.string q) = .ok (.string s)) :
    c.applyConstraint (m := Except Fault) (.string "String") (a.use q besides) (some (.string v))
      path = (Literal.coerce (.string s)).map (affixReport a v path) := by
  have hfound : c.validator? (.string "String") (a.use q besides).name =
      .ok (some (.builtin a.constraint)) := by
    rw [validator?, Affix.use, search, hbuiltin]
  have hresolved : (a.use q besides).resolved = .ok (.string s) := hq
  have hname : constraintName (.string "String") (a.use q besides) = s!"String.{a.name}" := rfl
  refine (c.applyConstraint_eq _ _ _ path).trans ?_
  rw [useOutcome, hfound]
  simp only [ValidatorEntry.verdict, hresolved, hname, bind, Except.bind,
    Affix.evaluate_constraint]
  rcases Literal.coerce (.string s) with f | w
  · rfl
  · cases w with
    | string t =>
      by_cases hfits : a.Fits t v
      · simp [Except.map, Json.string?, affixReport, unlessFalse, hfits]
      · simp only [Except.map, Json.string?, Option.map_some, affixReport, unlessFalse, hfits,
          decide_false, if_true, if_false, ValidatorEntry.code, Outcome.under_ok, List.map_cons,
          List.map_nil, Diagnostic.under, String.append_empty]
        cases a <;> rfl
    | _ => rfl

/-- A violation is added exactly if the text read from the argument is a text in turn, and that one
does not stand there. -/
theorem addsViolation_iff
    (hbuiltin : c.registered? "String" a.name = some (.builtin a.constraint))
    (hq : Literal.coerce (.string q) = .ok (.string s)) (v : String) :
    c.AddsViolation a q besides v path ↔
      ∃ t, Literal.coerce (.string s) = .ok (.string t) ∧ ¬a.Fits t v := by
  rw [AddsViolation, applyConstraint_affix hbuiltin hq]
  rcases Literal.coerce (.string s) with f | w
  · simp [Except.map]
  · cases w with
    | string t => by_cases hfits : a.Fits t v <;> simp [Except.map, affixReport, hfits]
    | _ => simp [Except.map, affixReport]

end Catalog

/-- Where `startsWith` and `endsWith` on text are the builtin constraints, and the literal given as
argument stands for a text, that text is read as a literal once more, and what comes out is tested
for. So the constraint holds of the texts that start or end with what the literal stands for, and
of no others, exactly if that is plain text. -/
theorem affix_tests_iff_plain {c : Catalog} {a : Affix} {q s : String}
    (hbuiltin : c.registered? "String" a.name = some (.builtin a.constraint))
    (hq : Literal.coerce (.string q) = .ok (.string s)) :
    (∀ (besides : Json) (v path : String),
      c.applyConstraint (m := Except Fault) (.string "String") (a.use q besides)
        (some (.string v)) path = (Literal.coerce (.string s)).map (Catalog.affixReport a v path)) ∧
    (Literal.IsPlain s.toList ↔ ∀ (besides : Json) (v path : String),
      (c.AddsViolation a q besides v path ↔ ¬a.Fits s v)) := by
  refine ⟨fun besides v path => Catalog.applyConstraint_affix hbuiltin hq, ?_⟩
  have hself : Literal.IsPlain s.toList ↔ Literal.coerce (.string s) = .ok (.string s) := by
    rw [← Literal.ofText_eq_self, String.ofList_toList]
    rfl
  rw [hself]
  simp only [Catalog.addsViolation_iff hbuiltin hq]
  constructor
  · intro hplain besides v path
    simp [hplain]
  · intro htests
    -- the text itself tells which text is tested for, and the empty text that there is one
    have hfits {t : String} (ht : Literal.coerce (.string s) = .ok (.string t)) : s = t := by
      refine Affix.fits_antisymm (a := a) ?_ ?_
      · by_contra hst
        obtain ⟨u, hu, hut⟩ := (htests .null t "").mpr hst
        rw [ht] at hu
        cases hu
        exact hut Affix.fits_self
      · by_contra hts
        exact (htests .null s "").mp ⟨t, ht, hts⟩ Affix.fits_self
    by_cases hs : s = ""
    · subst hs
      rfl
    · obtain ⟨t, ht, -⟩ := (htests .null "" "").mpr (Affix.not_fits_empty hs)
      rw [ht, ← hfits ht]

theorem startsWith_plain :
    Catalog.empty.registered? "String" Affix.front.name = some (.builtin Affix.front.constraint) ∧
    Literal.coerce (.string "'SKU-'") = .ok (.string "SKU-") ∧ Literal.IsPlain "SKU-".toList ∧
    Catalog.empty.AddsViolation .front "'SKU-'" .null "sku-17" "$" ∧
    ¬Catalog.empty.AddsViolation .front "'SKU-'" .null "SKU-17" "$" := by
  have hbuiltin : Catalog.empty.registered? "String" Affix.front.name =
      some (.builtin Affix.front.constraint) := rfl
  have hq : Literal.coerce (.string "'SKU-'") = .ok (.string "SKU-") := rfl
  have hplain : Literal.IsPlain "SKU-".toList := ⟨by decide, by decide, by decide, by decide⟩
  have htests := (affix_tests_iff_plain hbuiltin hq).2.mp hplain .null
  refine ⟨hbuiltin, hq, hplain, (htests "sku-17" "$").mpr (by decide), fun hadds => ?_⟩
  exact (htests "SKU-17" "$").mp hadds (by decide)

/-- A quoted digit stands for a text, which reads as a number: every text passes. -/
theorem startsWith_digit :
    Literal.coerce (.string "\"1\"") = .ok (.string "1") ∧ ¬Affix.front.Fits "1" "abc" ∧
    ¬Catalog.empty.AddsViolation .front "\"1\"" .null "abc" "$" := by
  have hq : Literal.coerce (.string "\"1\"") = .ok (.string "1") := rfl
  refine ⟨hq, by decide, fun hadds => ?_⟩
  obtain ⟨t, ht, -⟩ := (Catalog.addsViolation_iff rfl hq "abc").mp hadds
  have hnumber : Literal.coerce (.string "1") = .ok (.int 1) := rfl
  rw [hnumber] at ht
  cases ht

end DocSchema
