import DocSchema.Proofs.Expression.Rule
import DocSchema.Proofs.Json.Regular
import DocSchema.Proofs.Pattern.Verbatim

/-!
Pattern tests and equal values.

A pattern test sees the text of a value. Equal values that are no containers have one text, since a
whole number is written as an integer whichever way it was given (`patternText_of_same`). The text of
an array or an object is its JSON text, which tells apart whatever is not the same value; and each
text has a body that tests for it alone (`ofText_verbatimBody`). So equal values pass the same pattern
tests if and only if they are one value or no containers: `testedAlike_of_same_iff`.
-/

namespace DocSchema

/-! ### Texts -/

/-- The value is an array or an object. -/
def Json.IsContainer : Json → Prop
  | .array _ | .object _ => True
  | _ => False

instance : DecidablePred Json.IsContainer
  | .array _ | .object _ => isTrue trivial
  | .null | .bool _ | .number _ | .string _ => isFalse id

namespace Slot

/-- Numbers at one place have one text. -/
theorem numberText_congr {m n : Number} (h : m.place = n.place) : numberText m = numberText n := by
  rcases hm : m.toInt? with _ | k
  · rw [Number.eq_of_toInt?_eq_none h hm]
  · rw [numberText, numberText, ← Number.toInt?_congr h, hm]

/-- Equal values other than containers have one text. -/
theorem patternText_of_same {v w : Json} (h : Json.Alike v w) (hv : ¬v.IsContainer) :
    patternText (some v) = patternText (some w) := by
  cases h.layer with
  | null | bool | string => rfl
  | number hplace => exact numberText_congr hplace
  | array | object => exact absurd trivial hv

theorem patternText_container {v : Json} (hv : v.IsContainer) :
    patternText (some v) = v.toText Json.compact := by
  cases v with
  | array | object => rfl
  | _ => exact hv.elim

end Slot

namespace Rule

/-! ### A test for one text -/

/-- A body that tests for one text. -/
def verbatimBody (text : String) : List Char :=
  tested [' '] [' '] (patternLiteral (Pattern.verbatimSource text.toList) ['m'])

theorem ofText_verbatimBody (text : String) : ∃ source,
    ofText (String.ofList (verbatimBody text)) =
      .ok (.matching source (some (Pattern.verbatim text.toList)) false) := by
  have hgap : Blanks [' '] ∧ [' '] ≠ [] := ⟨by decide, List.cons_ne_nil _ _⟩
  have hletters : ∀ c ∈ ['m'], Pattern.isFlagLetter c = true := List.forall_mem_singleton.mpr rfl
  have hspells := Spells.matching hgap hgap hletters (Pattern.compile_verbatim text.toList)
  exact ⟨_, ofText_of_spells hspells⟩

/-! ### Equal values -/

/-- Whatever a pattern test says of one value it says of the other. -/
def TestedAlike (v w : Json) : Prop :=
  ∀ (body source : String) (pattern : Option Pattern) (negated : Bool),
    ofText body = .ok (.matching source pattern negated) → ∀ b : Bindings,
    (matching source pattern negated).evaluate (some v) b =
      (matching source pattern negated).evaluate (some w) b

/-- Values that pass the same pattern tests have one text. -/
theorem testedAlike_iff {v w : Json} :
    TestedAlike v w ↔ Slot.patternText (some v) = Slot.patternText (some w) := by
  constructor
  · intro h
    obtain ⟨source, hbody⟩ := ofText_verbatimBody (Slot.patternText (some v))
    have hfound (u : Json) : (Pattern.verbatim (Slot.patternText (some v)).toList).found
        (Slot.patternText (some u)) = true ↔
          (Slot.patternText (some u)).toList = (Slot.patternText (some v)).toList :=
      Pattern.found_verbatim _ _
    have hsame := h _ source _ false hbody []
    simp only [evaluate, Bool.bne_false, Option.some.injEq] at hsame
    rw [(hfound v).mpr rfl] at hsame
    exact (String.toList_inj.mp ((hfound w).mp hsame.symm)).symm
  · intro h body source pattern negated _ b
    cases pattern with
    | none => rfl
    | some p => rw [evaluate, evaluate, h]

/-- Equal values pass the same pattern tests exactly if they are one value, in one writing, or are
no containers. -/
theorem testedAlike_of_same_iff {v w : Json} (hv : v.Regular) (hw : w.Regular)
    (h : v.same w = true) : TestedAlike v w ↔ v = w ∨ ¬v.IsContainer := by
  have halike : Json.Alike v w := ⟨h, hv.distinct, hw.distinct⟩
  rw [testedAlike_iff]
  constructor
  · intro htext
    by_cases hcontainer : v.IsContainer
    · have hcontainer' : w.IsContainer := by
        cases halike.layer <;> exact hcontainer
      rw [Slot.patternText_container hcontainer, Slot.patternText_container hcontainer'] at htext
      exact .inl (Json.toText_injective Json.compact_separates hv.distinct hv.eachReadable
        hw.distinct hw.eachReadable htext)
    · exact .inr hcontainer
  · rintro (rfl | hscalar)
    · rfl
    · exact Slot.patternText_of_same halike hscalar

/-- A whole number passes the same tests in both writings. -/
theorem testedAlike_three : (Json.number (.int 3)).Regular ∧
    (Json.number (.double (.ofInt 3))).Regular ∧
    (Json.number (.int 3)).same (.number (.double (.ofInt 3))) = true ∧
    TestedAlike (.number (.int 3)) (.number (.double (.ofInt 3))) := by
  have hthree : (Nat.toDigits 10 3).length ≤ digitLimit := by decide
  have hint : (Json.number (.int 3)).Regular := ⟨trivial, hthree, by simp⟩
  have hdouble : (Json.number (.double (.ofInt 3))).Regular := ⟨trivial, trivial, by decide +kernel⟩
  have hsame : (Json.number (.int 3)).same (.number (.double (.ofInt 3))) = true := by
    decide +kernel
  exact ⟨hint, hdouble, hsame, (testedAlike_of_same_iff hint hdouble hsame).mpr (.inr id)⟩

/-- The pattern for a one in brackets. -/
def bracketedOne : Pattern :=
  .seq (.anchor Pattern.Flags.none.mode .lineStart)
    (.seq (.one Pattern.Flags.none.mode (.literal false '['.toNat))
      (.seq (.one Pattern.Flags.none.mode (.literal false '1'.toNat))
        (.seq (.one Pattern.Flags.none.mode (.literal false ']'.toNat))
          (.anchor Pattern.Flags.none.mode .textEnd))))

/-- An array of a whole number does not. -/
theorem evaluate_bracketedOne :
    ofText "this matches /^\\[1\\]$/" =
      .ok (.matching "/^\\[1\\]$/" (some bracketedOne) false) ∧
    (Json.array [.number (.int 1)]).same (.array [.number (.double (.ofInt 1))]) = true ∧
    (matching "/^\\[1\\]$/" (some bracketedOne) false).evaluate
      (some (.array [.number (.int 1)])) [] = some true ∧
    (matching "/^\\[1\\]$/" (some bracketedOne) false).evaluate
      (some (.array [.number (.double (.ofInt 1))])) [] = some false :=
  ⟨by rfl, by decide +kernel, by decide +kernel, by decide +kernel⟩

end Rule

end DocSchema
