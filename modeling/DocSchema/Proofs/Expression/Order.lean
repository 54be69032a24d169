import DocSchema.Expression.Comparison
import DocSchema.Proofs.Number.Exact
import Mathlib.Data.List.Lex
import Mathlib.Tactic.Choose

/-!
The comparison operators as an order.

Numbers are compared as what they stand for, and texts as lists of code points. Both are linear orders
(`ComparedAs`), so the operators obey the laws of a total order on the numbers other than NaN and on
the texts (`TotallyOrders`), also along chains that go from integers to doubles and back. Nothing else
is in any order. Main statement: `compareBy_exact`.
-/

namespace DocSchema

/-! ### Laws -/

/-- The comparisons of two values come out like those of two members of a linear order. -/
structure ComparedAs {α : Type} [LinearOrder α] (v w : Json) (x y : α) : Prop where
  equal : compareBy "=" v w = true ↔ x = y
  less : compareBy "<" v w = true ↔ x < y
  greater : compareBy ">" v w = true ↔ y < x
  atMost : compareBy "<=" v w = true ↔ x ≤ y
  atLeast : compareBy ">=" v w = true ↔ y ≤ x

/-- The operators are a total order on a class of values, and agree with one another. -/
structure TotallyOrders (among : Json → Prop) : Prop where
  exactly_one : ∀ v w, among v → among w →
    [compareBy "<" v w, compareBy "=" v w, compareBy ">" v w].count true = 1
  atMost : ∀ v w, among v → among w →
    compareBy "<=" v w = (compareBy "<" v w || compareBy "=" v w)
  atLeast : ∀ v w, among v → among w → compareBy ">=" v w = compareBy "<=" w v
  less : ∀ v w, among v → among w → compareBy "<" v w = compareBy ">" w v
  less_less : ∀ u v w, among u → among v → among w →
    compareBy "<" u v = true → compareBy "<" v w = true → compareBy "<" u w = true
  less_equal : ∀ u v w, among u → among v → among w →
    compareBy "<" u v = true → compareBy "=" v w = true → compareBy "<" u w = true
  equal_less : ∀ u v w, among u → among v → among w →
    compareBy "=" u v = true → compareBy "<" v w = true → compareBy "<" u w = true
  equal_equal : ∀ u v w, among u → among v → among w →
    compareBy "=" u v = true → compareBy "=" v w = true → compareBy "=" u w = true

/-- Values that are compared like the members of a linear order they stand for are totally ordered. -/
theorem totallyOrders_of_comparedAs {α : Type} [LinearOrder α] {among : Json → Prop}
    {standsFor : Json → α → Prop} (hsome : ∀ v, among v → ∃ x, standsFor v x)
    (hcompared : ∀ v w x y, standsFor v x → standsFor w y → ComparedAs v w x y) :
    TotallyOrders among := by
  choose rank hrank using hsome
  have h (v w : Json) (hv : among v) (hw : among w) : ComparedAs v w (rank v hv) (rank w hw) :=
    hcompared v w _ _ (hrank v hv) (hrank w hw)
  constructor
  case exactly_one =>
    intro v w hv hw
    obtain ⟨hequal, hless, hgreater, -, -⟩ := h v w hv hw
    have hfalse {b : Bool} {p : Prop} (hb : b = true ↔ p) (hp : ¬p) : b = false := by
      rw [← Bool.not_eq_true, hb]
      exact hp
    rcases lt_trichotomy (rank v hv) (rank w hw) with hlt | heq | hlt
    · simp [hless.mpr hlt, hfalse hequal hlt.ne, hfalse hgreater hlt.asymm]
    · simp [hequal.mpr heq, hfalse hless heq.not_lt, hfalse hgreater heq.not_gt]
    · simp [hgreater.mpr hlt, hfalse hequal hlt.ne', hfalse hless hlt.asymm]
  case atMost =>
    intro v w hv hw
    obtain ⟨hequal, hless, -, hatMost, -⟩ := h v w hv hw
    rw [Bool.eq_iff_iff, Bool.or_eq_true, hatMost, hless, hequal, le_iff_lt_or_eq]
  case atLeast =>
    intro v w hv hw
    rw [Bool.eq_iff_iff, (h v w hv hw).atLeast, (h w v hw hv).atMost]
  case less =>
    intro v w hv hw
    rw [Bool.eq_iff_iff, (h v w hv hw).less, (h w v hw hv).greater]
  -- chains of values are chains of what they stand for
  case less_less =>
    intro u v w hu hv hw huv hvw
    rw [(h u v hu hv).less] at huv
    rw [(h v w hv hw).less] at hvw
    exact (h u w hu hw).less.mpr (huv.trans hvw)
  case less_equal =>
    intro u v w hu hv hw huv hvw
    rw [(h u v hu hv).less] at huv
    rw [(h v w hv hw).equal] at hvw
    exact (h u w hu hw).less.mpr (huv.trans_eq hvw)
  case equal_less =>
    intro u v w hu hv hw huv hvw
    rw [(h u v hu hv).equal] at huv
    rw [(h v w hv hw).less] at hvw
    exact (h u w hu hw).less.mpr (huv.trans_lt hvw)
  case equal_equal =>
    intro u v w hu hv hw huv hvw
    rw [(h u v hu hv).equal] at huv
    rw [(h v w hv hw).equal] at hvw
    exact (h u w hu hw).equal.mpr (huv.trans hvw)

/-! ### Operators -/

/-- Comparing by the text of a relation is asking the relation. -/
theorem compareBy_text (r : Relation) (v w : Json) : compareBy r.text v w = r.holds (some v) w := by
  cases r <;> rfl

/-- The four operators that order values. -/
def orders : List Relation := [.less, .greater, .atMost, .atLeast]

/-! ### Numbers -/

/-- A number other than NaN. -/
def Json.IsAmount : Json → Prop
  | .number n => n ≠ .double .nan
  | _ => False

/-- The value is a number and stands for this one. -/
def Json.Amounts (v : Json) (x : ExtendedRat) : Prop := ∃ n, v = .number n ∧ n.exact = some x

theorem Json.IsAmount.exists_amounts {v : Json} (h : v.IsAmount) : ∃ x, v.Amounts x := by
  cases v with
  | number n =>
    obtain ⟨x, hx⟩ := Option.ne_none_iff_exists'.mp fun hnone => h (Number.exact_eq_none.mp hnone)
    exact ⟨x, n, rfl, hx⟩
  | _ => cases h

theorem comparedAs_numbers {m n : Number} {x y : ExtendedRat} (hm : m.exact = some x)
    (hn : n.exact = some y) : ComparedAs (.number m) (.number n) x y where
  equal := Number.eq_iff hm hn
  less := Number.lt_iff hm hn
  greater := Number.lt_iff hn hm
  atMost := Number.le_iff hm hn
  atLeast := Number.le_iff hn hm

/-! ### Texts -/

/-- The code points of a text. -/
def codePoints (s : String) : List Nat := s.toList.map Char.toNat

def Json.IsText : Json → Prop
  | .string _ => True
  | _ => False

theorem codePoints_inj {s t : String} : codePoints s = codePoints t ↔ s = t := by
  have hchars : Function.Injective Char.toNat := fun _ _ => Char.toNat_inj.mp
  rw [codePoints, codePoints, hchars.list_map.eq_iff, String.toList_inj]

theorem map_toNat_lt {as bs : List Char} : as.map Char.toNat < bs.map Char.toNat ↔ as < bs := by
  induction as generalizing bs with
  | nil => cases bs <;> simp
  | cons a as ih =>
    cases bs with
    | nil => simp
    | cons b bs =>
      simp only [List.map_cons, List.cons_lt_cons_iff, ih, Char.toNat_inj]
      exact Iff.rfl

/-- Texts are in the order of their code points: the first difference decides. -/
theorem codePoints_lt {s t : String} : codePoints s < codePoints t ↔ s < t := map_toNat_lt

theorem comparedAs_texts (s t : String) :
    ComparedAs (.string s) (.string t) (codePoints s) (codePoints t) := by
  constructor
  case equal => exact beq_iff_eq.trans codePoints_inj.symm
  case less => exact decide_eq_true_iff.trans codePoints_lt.symm
  case greater => exact decide_eq_true_iff.trans codePoints_lt.symm
  case atMost =>
    have hholds : compareBy "<=" (.string s) (.string t) = (decide (s < t) || s == t) := rfl
    rw [hholds, Bool.or_eq_true, decide_eq_true_iff, beq_iff_eq, le_iff_lt_or_eq, codePoints_lt,
      codePoints_inj]
  case atLeast =>
    have hholds : compareBy ">=" (.string s) (.string t) = (decide (t < s) || s == t) := rfl
    rw [hholds, Bool.or_eq_true, decide_eq_true_iff, beq_iff_eq, le_iff_lt_or_eq, codePoints_lt,
      codePoints_inj, eq_comm]

/-! ### All values -/

/-- An order asks for two numbers or two texts. -/
theorem holds_order {r : Relation} (hr : r ∈ orders) (v w : Json) : r.holds (some v) w =
    match v, w with
    | .number m, .number n => r.ordersNumbers m n
    | .string s, .string t => r.ordersTexts s t
    | _, _ => false := by
  simp only [orders, List.mem_cons, List.not_mem_nil, or_false] at hr
  rcases hr with rfl | rfl | rfl | rfl <;> cases v <;> cases w <;> rfl

/-- NaN is in no order with any number. -/
theorem ordersNumbers_nan (r : Relation) {m n : Number}
    (h : m = .double .nan ∨ n = .double .nan) : r.ordersNumbers m n = false := by
  rw [← Number.exact_eq_none, ← Number.exact_eq_none] at h
  obtain ⟨hless, hatMost⟩ := Number.not_ordered_of_exact h
  obtain ⟨hgreater, hatLeast⟩ := Number.not_ordered_of_exact h.symm
  cases r with
  | equal | unequal => rfl
  | less => exact hless
  | greater => exact hgreater
  | atMost => exact hatMost
  | atLeast => exact hatLeast

/-- Only two numbers other than NaN, and two texts, are in any order. -/
theorem holds_order_eq_false {r : Relation} (hr : r ∈ orders) {v w : Json}
    (hnumbers : ¬(v.IsAmount ∧ w.IsAmount)) (htexts : ¬(v.IsText ∧ w.IsText)) :
    r.holds (some v) w = false := by
  rw [holds_order hr]
  split
  · next m n =>
    refine ordersNumbers_nan r ?_
    by_contra hboth
    exact hnumbers (not_or.mp hboth)
  · exact absurd ⟨trivial, trivial⟩ htexts
  · rfl

/-- The comparison operators compare numbers exactly, as the rational numbers and infinities that they
stand for, and texts by their code points. On the numbers other than NaN, and on the texts, they are
a total order. No other two values are in any order, and two values are unequal exactly if they are
not equal, whatever they are. -/
theorem compareBy_exact :
    (∀ m n x y, m.exact = some x → n.exact = some y → ComparedAs (.number m) (.number n) x y) ∧
    TotallyOrders Json.IsAmount ∧
    (∀ s t, ComparedAs (.string s) (.string t) (codePoints s) (codePoints t)) ∧
    TotallyOrders Json.IsText ∧
    (∀ v w : Json, ¬(v.IsAmount ∧ w.IsAmount) → ¬(v.IsText ∧ w.IsText) →
      ∀ op ∈ ["<", ">", "<=", ">="], compareBy op v w = false) ∧
    ∀ v w, compareBy "!=" v w = !compareBy "=" v w := by
  have htext : ∀ v : Json, v.IsText → ∃ x, ∃ s, v = .string s ∧ x = codePoints s := by
    intro v hv
    cases v with
    | string s => exact ⟨_, s, rfl, rfl⟩
    | _ => cases hv
  refine ⟨fun m n x y => comparedAs_numbers, ?_, comparedAs_texts, ?_, ?_, ?_⟩
  · refine totallyOrders_of_comparedAs (fun v => Json.IsAmount.exists_amounts) ?_
    rintro _ _ x y ⟨m, rfl, hm⟩ ⟨n, rfl, hn⟩
    exact comparedAs_numbers hm hn
  · refine totallyOrders_of_comparedAs htext ?_
    rintro _ _ _ _ ⟨s, rfl, rfl⟩ ⟨t, rfl, rfl⟩
    exact comparedAs_texts s t
  · intro v w hnumbers htexts op hop
    obtain ⟨r, hr, rfl⟩ : ∃ r ∈ orders, r.text = op := by
      have hall : ∀ op ∈ ["<", ">", "<=", ">="], ∃ r ∈ orders, r.text = op := by decide
      exact hall op hop
    rw [compareBy_text]
    exact holds_order_eq_false hr hnumbers htexts
  · intro v w
    exact (compareBy_text .unequal v w).trans (congrArg Bool.not (compareBy_text .equal v w)).symm

/-- The integer between two neighbouring doubles is rounded to neither. -/
example : compareBy "<" (.number (.double (.ofInt (2 ^ 53)))) (.int (2 ^ 53 + 1)) = true ∧
    compareBy "<" (.int (2 ^ 53 + 1)) (.number (.double (.ofInt (2 ^ 53 + 2)))) = true ∧
    compareBy "=" (.number (.double (.ofInt (2 ^ 53)))) (.int (2 ^ 53)) = true := by
  decide +kernel

end DocSchema
