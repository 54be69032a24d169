import DocSchema.Builtin.Constraint
import DocSchema.Check.Validate
import DocSchema.Proofs.Json.Regular

/-!
Arrays without repeated items.

`unique` looks for a canonical text that occurs twice. On regular values one canonical text means
equality (`Json.same_iff_canonicalText`), so equality is an equivalence relation there, and the
constraint holds exactly if no two items at different places are equal: `unique_agrees`.
-/

namespace DocSchema

/-! ### Documents -/

theorem regular_of_readStrict {text : String} {v : Json} (h : readStrict text = .ok v) :
    v.Regular := by
  simp only [readStrict] at h
  cases hr : Json.read true text with
  | error e => rw [hr] at h; cases h
  | ok u => rw [hr] at h; cases h; exact Json.regular_of_read hr

theorem regular_of_readOctets {bytes : List UInt8} {v : Json} (h : readOctets bytes = .ok v) :
    v.Regular := by
  simp only [readOctets] at h
  split at h
  · exact regular_of_readStrict h
  · cases h

/-! ### Equality -/

/-- Equality is an equivalence relation on regular values. -/
theorem Json.same_equivalence :
    Equivalence fun a b : {v : Json // v.Regular} => a.val.same b.val = true where
  refl a := (same_iff_canonicalText a.property a.property).mpr rfl
  symm {a b} h := (same_iff_canonicalText b.property a.property).mpr
    ((same_iff_canonicalText a.property b.property).mp h).symm
  trans {a b c} hab hbc := (same_iff_canonicalText a.property c.property).mpr
    (((same_iff_canonicalText a.property b.property).mp hab).trans
      ((same_iff_canonicalText b.property c.property).mp hbc))

namespace BuiltinConstraint

/-! ### Different items -/

theorem allDifferent_iff_nodup {texts : List String} :
    allDifferent texts = true ↔ texts.Nodup := by
  induction texts with
  | nil => simp [allDifferent]
  | cons t texts ih => simp [allDifferent, ih]

variable {items : List Json}

/-- No canonical text occurs twice if no two items are equal, and only then. -/
theorem allDifferent_iff_same (hitems : ∀ v ∈ items, v.Regular) :
    allDifferent (items.map Json.canonicalText) = true ↔
      ∀ i j (hi : i < items.length) (hj : j < items.length), i ≠ j →
        items[i].same items[j] = false := by
  have hsame (i j : Nat) (hi : i < items.length) (hj : j < items.length) :
      items[i].same items[j] = false ↔ items[i].canonicalText ≠ items[j].canonicalText := by
    rw [← Bool.not_eq_true, Json.same_iff_canonicalText (hitems _ (List.getElem_mem hi))
      (hitems _ (List.getElem_mem hj))]
  simp only [hsame]
  rw [allDifferent_iff_nodup, List.nodup_iff_pairwise_ne, List.pairwise_map,
    List.pairwise_iff_getElem]
  constructor
  · intro h i j hi hj hij
    rcases Nat.lt_or_gt_of_ne hij with hlt | hlt
    · exact h i j hi hj hlt
    · exact (h j i hj hi hlt).symm
  · intro h i j hi hj hij
    exact h i j hi hj (Nat.ne_of_lt hij)

/-! ### The constraint -/

/-- Unless its argument is false, `unique` holds of an array of regular values exactly if no two items
at different places are equal. -/
theorem unique_of_coerce (hitems : ∀ v ∈ items, v.Regular) {argument w : Json}
    (hcoerce : Literal.coerce argument = .ok w) (hw : w ≠ .bool false) :
    ∃ answer, unique.evaluate (some (.array items)) argument = .ok (some answer) ∧
      (answer = true ↔ ∀ i j (hi : i < items.length) (hj : j < items.length), i ≠ j →
        items[i].same items[j] = false) := by
  refine ⟨_, ?_, allDifferent_iff_same hitems⟩
  rw [evaluate, distinct, hcoerce]
  simp only [Except.map]

/-- What is read strictly is regular. Regular values are equal exactly if their canonical texts are,
so equality is an equivalence relation on them. And of an array of regular values `unique` holds
exactly if no two items at different places are equal, unless its argument is false; it breaks off
only where the argument stands for no value. -/
theorem unique_agrees :
    (∀ text v, readStrict text = .ok v → v.Regular) ∧
    (∀ bytes v, readOctets bytes = .ok v → v.Regular) ∧
    (∀ v w : Json, v.Regular → w.Regular →
      (v.same w = true ↔ v.canonicalText = w.canonicalText)) ∧
    Equivalence (fun v w : {v : Json // v.Regular} => v.val.same w.val = true) ∧
    ∀ items : List Json, (∀ v ∈ items, v.Regular) → ∀ argument : Json,
      (∀ f, Literal.coerce argument = .error f →
        unique.evaluate (some (.array items)) argument = .error f) ∧
      (Literal.coerce argument = .ok (.bool false) →
        unique.evaluate (some (.array items)) argument = .ok (some true)) ∧
      ∀ w, Literal.coerce argument = .ok w → w ≠ .bool false →
        ∃ answer, unique.evaluate (some (.array items)) argument = .ok (some answer) ∧
          (answer = true ↔ ∀ i j (hi : i < items.length) (hj : j < items.length), i ≠ j →
            items[i].same items[j] = false) := by
  refine ⟨fun _ _ => regular_of_readStrict, fun _ _ => regular_of_readOctets,
    fun v w => Json.same_iff_canonicalText, Json.same_equivalence, fun items hitems argument => ?_⟩
  refine ⟨fun f hcoerce => ?_, fun hcoerce => ?_, fun w => unique_of_coerce hitems⟩
  · rw [evaluate, distinct, hcoerce]
    rfl
  · rw [evaluate, distinct, hcoerce]
    rfl

/-- One object with its keys in two orders and its number written in two ways. -/
def twins : List Json :=
  [.object [("size", .int 1), ("name", .string "é")],
    .object [("name", .string "é"), ("size", .number (.double (.ofInt 1)))]]

theorem twins_regular : ∀ v ∈ twins, v.Regular := by
  have hone : (Nat.toDigits 10 1).length ≤ digitLimit := by decide
  have hint : Number.Regular (.int 1) := ⟨hone, by simp⟩
  have hdouble : Number.Regular (.double (.ofInt 1)) := ⟨trivial, by decide +kernel⟩
  simp only [twins, List.forall_mem_cons]
  refine ⟨⟨?_, ?_⟩, ⟨?_, ?_⟩, by simp⟩
  · simp [Json.int, Json.Distinct, Json.DistinctFields]
  · simp [Json.int, Json.EachNumber, Json.EachNumberFields, hint]
  · simp [Json.Distinct, Json.DistinctFields]
  · simp [Json.EachNumber, Json.EachNumberFields, hdouble]

/-- The two objects are one value, so an array of both repeats an item. -/
theorem twins_repeated : (∀ v ∈ twins, v.Regular) ∧
    Literal.coerce (.string "true") = .ok (.bool true) ∧ Json.bool true ≠ .bool false ∧
    unique.evaluate (some (.array twins)) (.string "true") = .ok (some false) := by
  have hcoerce : Literal.coerce (.string "true") = .ok (.bool true) := rfl
  have htrue : Json.bool true ≠ .bool false := by simp
  obtain ⟨answer, hanswer, hiff⟩ :=
    (unique_agrees.2.2.2.2 twins twins_regular (.string "true")).2.2 _ hcoerce htrue
  have hfalse : answer = false := by
    rw [← Bool.not_eq_true]
    intro htrue
    have hdifferent := hiff.mp htrue 0 1 (by decide) (by decide) (by decide)
    exact absurd hdifferent (by decide +kernel)
  exact ⟨twins_regular, hcoerce, htrue, hfalse ▸ hanswer⟩

end BuiltinConstraint

end DocSchema
