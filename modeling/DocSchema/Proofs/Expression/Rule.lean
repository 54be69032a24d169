import DocSchema.Expression.Rule
import DocSchema.Proofs.Expression.Scan
import DocSchema.Proofs.Literal

/-!
Bodies of validators read back as the rules that they are written for.

`Spells` says which texts are written for a rule: the four shapes, with white space where it may or
must stand, any identifier as a parameter, any literal as a value, and any pattern literal whose
source and letters can be compiled. The readers of the shapes are asked one after another, so each
text is shown to be refused by the readers asked before its own, and to be taken apart by its own
where it was put together. Main statement: `ofText_written`.
-/

namespace DocSchema.Rule

open Expression

/-! ### Writing -/

/-- A comparison of `this` with an operand. -/
def compared (r : Relation) (w z operand : List Char) : List Char :=
  "this".toList ++ (w ++ (r.text.toList ++ (z ++ operand)))

/-- A test of `this` against a pattern literal. -/
def tested (w z source : List Char) : List Char :=
  "this".toList ++ (w ++ ("matches".toList ++ (z ++ source)))

-- The equations that Lean derives for these two are slow, since they evaluate the words.
theorem compared_eq (r : Relation) (w z operand : List Char) :
    compared r w z operand = "this".toList ++ (w ++ (r.text.toList ++ (z ++ operand))) := rfl

theorem tested_eq (w z source : List Char) :
    tested w z source = "this".toList ++ (w ++ ("matches".toList ++ (z ++ source))) := rfl

/-- A source between slashes, and letters behind it. -/
def patternLiteral (source letters : List Char) : List Char := '/' :: (source ++ '/' :: letters)

/-- The relations that order values. -/
def orders : List Relation := [.less, .greater, .atMost, .atLeast]

/-- The text is written for the rule. -/
inductive Spells : List Char → Rule → Prop
  | parameter {r : Relation} {w z name : List Char} (hw : Blanks w) (hz : Blanks z)
      (hname : IsName name) :
    Spells (compared r w z ('$' :: name)) (.comparison ⟨r, .parameter (String.ofList name)⟩)
  | value {r : Relation} {w z text : List Char} {v : Json} (hw : Blanks w) (hz : Blanks z)
      (htext : Literal.Spells text v) :
    Spells (compared r w z text) (.comparison ⟨r, .value v⟩)
  | range {r s : Relation} {w z w' z' a b p q : List Char} (hr : r ∈ orders) (hs : s ∈ orders)
      (hw : Blanks w) (hz : Blanks z) (hw' : Blanks w') (hz' : Blanks z')
      (ha : Blanks a ∧ a ≠ []) (hb : Blanks b ∧ b ≠ []) (hp : IsName p) (hq : IsName q) :
    Spells (compared r w z ('$' :: p) ++ (a ++ ("and".toList ++ (b ++ compared s w' z' ('$' :: q)))))
      (.allOf [⟨r, .parameter (String.ofList p)⟩, ⟨s, .parameter (String.ofList q)⟩])
  | matching {w z source letters : List Char} {pattern : Option Pattern}
      (hw : Blanks w ∧ w ≠ []) (hz : Blanks z ∧ z ≠ [])
      (hletters : ∀ c ∈ letters, Pattern.isFlagLetter c = true)
      (hpattern : Pattern.compile source letters = .ok pattern) :
    Spells (tested w z (patternLiteral source letters))
      (.matching (String.ofList (patternLiteral source letters)) pattern false)
  | negated {a b c w z source letters : List Char} {pattern : Option Pattern}
      (ha : Blanks a) (hb : Blanks b) (hc : Blanks c)
      (hw : Blanks w ∧ w ≠ []) (hz : Blanks z ∧ z ≠ [])
      (hletters : ∀ c ∈ letters, Pattern.isFlagLetter c = true)
      (hpattern : Pattern.compile source letters = .ok pattern) :
    Spells ("not".toList ++ (a ++ '(' ::
        (b ++ (tested w z (patternLiteral source letters) ++ (c ++ [')'])))))
      (.matching (String.ofList (patternLiteral source letters)) pattern true)

/-! ### Operators -/

section Operators

variable {r : Relation} {cs : List Char}

theorem head_operator (r : Relation) (cs : List Char) :
    ∀ c ∈ (r.text.toList ++ cs).head?, isBlank c = false ∧ c ≠ 'm' := by
  cases r <;> rintro c ⟨⟩ <;> decide

theorem ne_equals_cons (hcs : ∀ c ∈ cs.head?, c ≠ '=') (rest : List Char) : cs ≠ '=' :: rest := by
  rintro rfl
  exact hcs '=' rfl rfl

theorem order?_append (hr : r ∈ orders) (hcs : ∀ c ∈ cs.head?, c ≠ '=') :
    order? (r.text.toList ++ cs) = some (r, cs) := by
  -- what follows is no equals sign, so the longer operator is out of the question
  have hne := ne_equals_cons hcs
  cases r with
  | equal | unequal => exact absurd hr (by decide)
  | less =>
    show order? ('<' :: cs) = _
    simp only [order?]
  | greater =>
    show order? ('>' :: cs) = _
    simp only [order?]
  | atMost | atLeast => rfl

theorem order?_of_not_mem (hr : r ∉ orders) (cs : List Char) :
    order? (r.text.toList ++ cs) = none := by
  cases r with
  | equal | unequal => rfl
  | less | greater | atMost | atLeast => exact absurd (by decide) hr

/-- An operator with an operand behind it is read as it stands. -/
theorem operator?_append (r : Relation) (hempty : cs ≠ []) (hcs : ∀ c ∈ cs.head?, c ≠ '=') :
    operator? (r.text.toList ++ cs) = some (r, cs) := by
  obtain ⟨c, cs, rfl⟩ := List.exists_cons_of_ne_nil hempty
  have hshort : ∀ (d : Char) (ds : List Char), c = '=' → cs = d :: ds → False :=
    fun _ _ hc _ => hcs c rfl hc
  cases r with
  | less =>
    show operator? ('<' :: c :: cs) = _
    simp only [operator?]
  | greater =>
    show operator? ('>' :: c :: cs) = _
    simp only [operator?]
  | equal | unequal | atMost | atLeast => rfl

end Operators

/-! ### Comparisons -/

section Comparisons

variable {r : Relation} {w z name text cs : List Char}

theorem compared_append (r : Relation) (w z text cs : List Char) :
    compared r w z text ++ cs = compared r w z (text ++ cs) := by
  simp only [compared_eq, List.append_assoc]

theorem solid_compared (hlast : ∀ c ∈ text.getLast?, isBlank c = false) (hempty : text ≠ []) :
    Solid (compared r w z text) := by
  have hthis : ∀ c ∈ "this".toList.head?, isBlank c = false := by rintro c ⟨⟩; decide
  refine solid_append hthis (by decide) ?_ (by simp [hempty])
  exact last_append (last_append (last_append hlast hempty) (by simp [hempty])) (by simp [hempty])

theorem negated?_this (cs : List Char) : negated? ("this".toList ++ cs) = none := by
  have hnot : after? "not".toList ("this".toList ++ cs) = none :=
    after?_of_head (by rintro c ⟨⟩; decide)
  rw [negated?, hnot]
  rfl

theorem trimStart_operator (hw : Blanks w) :
    trimStart (w ++ (r.text.toList ++ cs)) = r.text.toList ++ cs :=
  trimStart_blanks hw fun c hc => (head_operator r cs c hc).1

/-- A comparison is no pattern test. -/
theorem matching?_compared (hw : Blanks w) : matching? (compared r w z text) = none := by
  have hafter : afterMatches? (compared r w z text) = none := by
    simp only [afterMatches?, compared_eq, after?_append, Option.bind_eq_bind, Option.bind_some]
    by_cases hne : w = []
    · rw [hne, List.nil_append, afterBlanks?_of_head fun c hc => (head_operator r _ c hc).1]
      rfl
    · rw [afterBlanks?_append hw hne, Option.bind_some,
        trimStart_of_head fun c hc => (head_operator r _ c hc).1]
      have hmatches : after? "matches".toList (r.text.toList ++ (z ++ text)) = none :=
        after?_of_head fun c hc => (head_operator r _ c hc).2
      rw [hmatches]
      rfl
  rw [matching?, hafter]
  rfl

theorem head_blanks {c : Char} (hz : Blanks z) (hc : isBlank c = false)
    (htext : ∀ d ∈ text.head?, d ≠ c) : ∀ d ∈ (z ++ text).head?, d ≠ c := by
  cases z with
  | nil => exact htext
  | cons b z =>
    rintro d ⟨⟩ rfl
    rw [hz b List.mem_cons_self] at hc
    cases hc

/-- A bound is taken apart where it was put together. -/
theorem bound?_compared (hr : r ∈ orders) (hw : Blanks w) (hz : Blanks z) (hname : IsName name)
    (hcs : ∀ c ∈ cs.head?, isNameRest c = false) :
    bound? (compared r w z ('$' :: name) ++ cs) =
      some (⟨r, .parameter (String.ofList name)⟩, cs) := by
  have horder : order? (r.text.toList ++ (z ++ '$' :: (name ++ cs))) =
      some (r, z ++ '$' :: (name ++ cs)) :=
    order?_append hr (head_blanks hz (by decide) (by rintro d ⟨⟩; decide))
  have hdollar : trimStart (z ++ '$' :: (name ++ cs)) = '$' :: (name ++ cs) :=
    trimStart_blanks hz (by rintro c ⟨⟩; decide)
  have hafter : after? ['$'] ('$' :: (name ++ cs)) = some (name ++ cs) := after?_append ['$'] _
  rw [compared_append, List.cons_append]
  simp only [bound?, compared_eq, after?_append, trimStart_operator hw, horder, hdollar, hafter,
    identifier?_append hname hcs, Option.bind_eq_bind, Option.bind_some]

theorem bound?_of_not_mem (hr : r ∉ orders) (hw : Blanks w) :
    bound? (compared r w z text) = none := by
  simp only [bound?, compared_eq, after?_append, trimStart_operator hw, order?_of_not_mem hr,
    Option.bind_eq_bind, Option.bind_some, Option.bind_none]

/-- A comparison with something else than a parameter is no bound. -/
theorem bound?_of_head (hw : Blanks w) (hz : Blanks z)
    (htext : ∀ c ∈ text.head?, isBlank c = false ∧ c ≠ '$' ∧ c ≠ '=') :
    bound? (compared r w z text) = none := by
  by_cases hr : r ∈ orders
  · have horder : order? (r.text.toList ++ (z ++ text)) = some (r, z ++ text) :=
      order?_append hr (head_blanks hz (by decide) fun c hc => (htext c hc).2.2)
    have hdollar : after? ['$'] (trimStart (z ++ text)) = none := by
      rw [trimStart_blanks hz fun c hc => (htext c hc).1]
      exact after?_of_head fun c hc => (htext c hc).2.1
    simp only [bound?, compared_eq, after?_append, trimStart_operator hw, horder, hdollar,
      Option.bind_eq_bind, Option.bind_some, Option.bind_none]
  · exact bound?_of_not_mem hr hw

theorem range?_of_bound?_eq_none (h : bound? cs = none) : range? cs = none := by
  rw [range?, h]
  rfl

/-- A single bound is no range. -/
theorem range?_of_bound? {c : Comparison} (h : bound? cs = some (c, [])) : range? cs = none := by
  rw [range?, h]
  rfl

/-- A comparison that is no range is read as its operator and its operand. -/
theorem ofTrimmed_compared {o : Operand} (hw : Blanks w) (hz : Blanks z)
    (hrange : range? (compared r w z text) = none) (hempty : text ≠ [])
    (htext : ∀ c ∈ text.head?, c ≠ '=') (ho : operand (z ++ text) = .ok o) :
    ofTrimmed (compared r w z text) = .ok (.comparison ⟨r, o⟩) := by
  have hoperator : operator? (r.text.toList ++ (z ++ text)) = some (r, z ++ text) :=
    operator?_append r (by simp [hempty]) (head_blanks hz (by decide) htext)
  have hcompared : compared? (compared r w z text) = some (r, z ++ text) := by
    simp only [compared?, compared_eq, after?_append, trimStart_operator hw, hoperator,
      Option.bind_eq_bind, Option.bind_some]
  have hnegated : negated? (compared r w z text) = none := negated?_this _
  rw [ofTrimmed, hnegated, matching?_compared hw, hrange, hcompared]
  simp only [ho]
  rfl

end Comparisons

/-! ### Operands -/

section Operands

variable {z name text : List Char} {v : Json}

theorem operand_parameter (hz : Blanks z) (hname : IsName name) :
    operand (z ++ '$' :: name) = .ok (.parameter (String.ofList name)) := by
  have hsolid : Solid (['$'] ++ name) :=
    solid_append (by rintro c ⟨⟩; decide) (by simp) (solid_of_isName hname).last hname.ne_nil
  have htrim : trim (z ++ '$' :: name) = '$' :: name := trim_front hz hsolid
  rw [operand, htrim]
  rfl

theorem operand_value (hz : Blanks z) (htext : Literal.Spells text v) :
    operand (z ++ text) = .ok (.value v) := by
  rw [operand, trim_front hz (Literal.solid_of_spells htext)]
  split
  · exact absurd rfl (Literal.head_of_spells htext '$' rfl).2.1
  · rw [Literal.ofText_of_spells htext]
    rfl

end Operands

/-! ### Pattern tests -/

section Tests

variable {w z source letters cs : List Char} {pattern : Option Pattern}

theorem range_of_isFlagLetter {c : Char} (h : Pattern.isFlagLetter c = true) :
    97 ≤ c.toNat ∧ c.toNat ≤ 122 := by
  simp only [Pattern.isFlagLetter, Bool.and_eq_true, decide_eq_true_eq] at h
  exact ⟨toNat_le_of_le h.1, toNat_le_of_le h.2⟩

theorem splitLiteral_patternLiteral (hletters : ∀ c ∈ letters, Pattern.isFlagLetter c = true) :
    Pattern.splitLiteral (patternLiteral source letters) = some (source, letters) := by
  have hreverse : (source ++ '/' :: letters).reverse = letters.reverse ++ '/' :: source.reverse := by
    simp
  have hslash : ∀ c ∈ letters.reverse, decide (c ≠ '/') = true := by
    intro c hc
    refine decide_eq_true ?_
    rintro rfl
    exact absurd (hletters '/' (List.mem_reverse.mp hc)) (by decide)
  rw [patternLiteral, Pattern.splitLiteral]
  simp only [hreverse, List.takeWhile_append_of_pos hslash, List.dropWhile_append_of_pos hslash]
  simp [List.all_eq_true.mpr hletters]

theorem solid_patternLiteral (hletters : ∀ c ∈ letters, Pattern.isFlagLetter c = true) :
    Solid (patternLiteral source letters) := by
  have hlast : ∀ c ∈ '/' :: letters, isBlank c = false := by
    refine List.forall_mem_cons.mpr ⟨by decide, fun c hc => ?_⟩
    obtain ⟨hfirst, hlast⟩ := range_of_isFlagLetter (hletters c hc)
    exact not_isBlank_of_printable (by omega) (by omega)
  rw [patternLiteral, ← List.cons_append]
  exact solid_append (by rintro c ⟨⟩; decide) (by simp)
    (fun c hc => hlast c (List.mem_of_getLast? hc)) (by simp)

theorem ofSource_patternLiteral (hletters : ∀ c ∈ letters, Pattern.isFlagLetter c = true)
    (hpattern : Pattern.compile source letters = .ok pattern) (negated : Bool) :
    ofSource (patternLiteral source letters) negated =
      .ok (.matching (String.ofList (patternLiteral source letters)) pattern negated) := by
  rw [ofSource, Pattern.compileLiteral, splitLiteral_patternLiteral hletters]
  simp only [hpattern]
  rfl

theorem tested_append (w z source cs : List Char) :
    tested w z source ++ cs = tested w z (source ++ cs) := by
  simp only [tested_eq, List.append_assoc]

theorem afterMatches?_tested (hw : Blanks w ∧ w ≠ []) (hz : Blanks z ∧ z ≠ [])
    (hcs : ∀ c ∈ cs.head?, isBlank c = false) : afterMatches? (tested w z cs) = some cs := by
  have hmatches : ∀ c ∈ ("matches".toList ++ (z ++ cs)).head?, isBlank c = false := by
    rintro c ⟨⟩; decide
  simp only [afterMatches?, tested_eq, after?_append, afterBlanks?_append hw.1 hw.2,
    trimStart_of_head hmatches, afterBlanks?_append hz.1 hz.2, trimStart_of_head hcs,
    Option.bind_eq_bind, Option.bind_some]

end Tests

/-! ### The shapes -/

section Shapes

variable {r s : Relation} {a b c w z w' z' p q name text source letters : List Char}
  {pattern : Option Pattern}

theorem bound?_alone (hr : r ∈ orders) (hw : Blanks w) (hz : Blanks z) (hname : IsName name) :
    bound? (compared r w z ('$' :: name)) = some (⟨r, .parameter (String.ofList name)⟩, []) := by
  have hbound := bound?_compared hr hw hz hname (show ∀ c ∈ [].head?, _ by rintro c ⟨⟩)
  rwa [List.append_nil] at hbound

theorem ofTrimmed_parameter (hw : Blanks w) (hz : Blanks z) (hname : IsName name) :
    ofTrimmed (compared r w z ('$' :: name)) =
      .ok (.comparison ⟨r, .parameter (String.ofList name)⟩) := by
  refine ofTrimmed_compared hw hz ?_ (by simp) (by rintro c ⟨⟩; decide) (operand_parameter hz hname)
  by_cases hr : r ∈ orders
  · exact range?_of_bound? (bound?_alone hr hw hz hname)
  · exact range?_of_bound?_eq_none (bound?_of_not_mem hr hw)

theorem ofTrimmed_value {v : Json} (hw : Blanks w) (hz : Blanks z) (htext : Literal.Spells text v) :
    ofTrimmed (compared r w z text) = .ok (.comparison ⟨r, .value v⟩) := by
  have hhead := Literal.head_of_spells htext
  have hrange : range? (compared r w z text) = none :=
    range?_of_bound?_eq_none (bound?_of_head hw hz hhead)
  exact ofTrimmed_compared hw hz hrange (Literal.ne_nil_of_spells htext)
    (fun c hc => (hhead c hc).2.2) (operand_value hz htext)

theorem range?_compared (hr : r ∈ orders) (hs : s ∈ orders) (hw : Blanks w) (hz : Blanks z)
    (hw' : Blanks w') (hz' : Blanks z') (ha : Blanks a ∧ a ≠ []) (hb : Blanks b ∧ b ≠ [])
    (hp : IsName p) (hq : IsName q) :
    range? (compared r w z ('$' :: p) ++
        (a ++ ("and".toList ++ (b ++ compared s w' z' ('$' :: q))))) =
      some [⟨r, .parameter (String.ofList p)⟩, ⟨s, .parameter (String.ofList q)⟩] := by
  have hafter : ∀ c ∈ (a ++ ("and".toList ++ (b ++ compared s w' z' ('$' :: q)))).head?,
      isNameRest c = false := by
    rw [List.head?_append_of_ne_nil _ ha.2]
    exact fun c hc => not_isNameRest_of_isBlank (ha.1 c (List.mem_of_mem_head? hc))
  have hand : ∀ c ∈ ("and".toList ++ (b ++ compared s w' z' ('$' :: q))).head?,
      isBlank c = false := by rintro c ⟨⟩; decide
  have hthis : ∀ c ∈ (compared s w' z' ('$' :: q)).head?, isBlank c = false := by
    rintro c ⟨⟩; decide
  simp only [range?, bound?_compared hr hw hz hp hafter, afterBlanks?_append ha.1 ha.2,
    trimStart_of_head hand, after?_append, afterBlanks?_append hb.1 hb.2,
    trimStart_of_head hthis, bound?_alone hs hw' hz' hq, Option.bind_eq_bind, Option.bind_some,
    List.isEmpty_nil, if_true]

theorem ofTrimmed_range (hr : r ∈ orders) (hs : s ∈ orders) (hw : Blanks w) (hz : Blanks z)
    (hw' : Blanks w') (hz' : Blanks z') (ha : Blanks a ∧ a ≠ []) (hb : Blanks b ∧ b ≠ [])
    (hp : IsName p) (hq : IsName q) :
    ofTrimmed (compared r w z ('$' :: p) ++
        (a ++ ("and".toList ++ (b ++ compared s w' z' ('$' :: q))))) =
      .ok (.allOf [⟨r, .parameter (String.ofList p)⟩, ⟨s, .parameter (String.ofList q)⟩]) := by
  rw [ofTrimmed, range?_compared hr hs hw hz hw' hz' ha hb hp hq, compared_append,
    matching?_compared hw]
  rw [compared_eq, negated?_this]

theorem ofTrimmed_matching (hw : Blanks w ∧ w ≠ []) (hz : Blanks z ∧ z ≠ [])
    (hletters : ∀ c ∈ letters, Pattern.isFlagLetter c = true)
    (hpattern : Pattern.compile source letters = .ok pattern) :
    ofTrimmed (tested w z (patternLiteral source letters)) =
      .ok (.matching (String.ofList (patternLiteral source letters)) pattern false) := by
  have hmatching : matching? (tested w z (patternLiteral source letters)) =
      some (patternLiteral source letters) := by
    simp only [matching?, afterMatches?_tested hw hz (solid_patternLiteral hletters).head,
      splitLiteral_patternLiteral hletters, Option.bind_eq_bind, Option.bind_some,
      Option.isSome_some, if_true]
  have hnegated : negated? (tested w z (patternLiteral source letters)) = none := negated?_this _
  rw [ofTrimmed, hnegated, hmatching]
  exact ofSource_patternLiteral hletters hpattern false

theorem ofTrimmed_negated (ha : Blanks a) (hb : Blanks b) (hc : Blanks c)
    (hw : Blanks w ∧ w ≠ []) (hz : Blanks z ∧ z ≠ [])
    (hletters : ∀ c ∈ letters, Pattern.isFlagLetter c = true)
    (hpattern : Pattern.compile source letters = .ok pattern) :
    ofTrimmed ("not".toList ++ (a ++ '(' ::
        (b ++ (tested w z (patternLiteral source letters) ++ (c ++ [')']))))) =
      .ok (.matching (String.ofList (patternLiteral source letters)) pattern true) := by
  have hsolid : Solid (patternLiteral source letters) := solid_patternLiteral hletters
  have hopen (cs : List Char) : after? ['('] (trimStart (a ++ '(' :: cs)) = some cs := by
    rw [trimStart_blanks ha (by rintro d ⟨⟩; decide)]
    exact after?_append ['('] cs
  have hthis (cs : List Char) : trimStart (b ++ tested w z cs) = tested w z cs :=
    trimStart_blanks hb (by rintro d ⟨⟩; decide)
  have hafter : afterMatches? (tested w z (patternLiteral source letters ++ (c ++ [')']))) =
      some (patternLiteral source letters ++ c ++ [')']) := by
    rw [afterMatches?_tested hw hz (by rintro d ⟨⟩; decide), List.append_assoc]
  have hnegated : negated? ("not".toList ++ (a ++ '(' ::
      (b ++ (tested w z (patternLiteral source letters) ++ (c ++ [')']))))) =
      some (patternLiteral source letters) := by
    simp only [negated?, after?_append, hopen, tested_append, hthis, hafter, Option.bind_eq_bind,
      Option.bind_some, List.getLast?_concat, if_true, List.dropLast_concat,
      trimEnd_append hc hsolid.last, splitLiteral_patternLiteral hletters, Option.isSome_some]
  rw [ofTrimmed, hnegated]
  exact ofSource_patternLiteral hletters hpattern true

end Shapes

theorem solid_parameter {r : Relation} {w z name : List Char} (hname : IsName name) :
    Solid (compared r w z ('$' :: name)) :=
  solid_compared (last_append (a := ['$']) (solid_of_isName hname).last hname.ne_nil) (by simp)

/-- What is written for a rule neither starts nor ends with white space. -/
theorem solid_of_spells {text : List Char} {rule : Rule} (h : Spells text rule) : Solid text := by
  have hthis : ∀ c ∈ "this".toList.head?, isBlank c = false := by rintro c ⟨⟩; decide
  cases h with
  | parameter hw hz hname => exact solid_parameter hname
  | value hw hz htext =>
    exact solid_compared (Literal.solid_of_spells htext).last (Literal.ne_nil_of_spells htext)
  | range hr hs hw hz hw' hz' ha hb hp hq =>
    refine solid_append (solid_parameter hp).head (by simp [compared_eq]) ?_ (by simp)
    refine last_append (last_append (last_append (solid_parameter hq).last ?_) ?_) (by simp)
    all_goals simp [compared_eq]
  | matching hw hz hletters hpattern =>
    refine solid_append hthis (by decide) ?_ (by simp)
    exact last_append (last_append (last_append (solid_patternLiteral hletters).last
      (by simp [patternLiteral])) (by simp [patternLiteral])) (by simp)
  | negated ha hb hc hw hz hletters hpattern =>
    have hclose : ∀ c ∈ [')'].getLast?, isBlank c = false := by rintro c ⟨⟩; decide
    refine solid_append (by rintro c ⟨⟩; decide) (by decide) (last_append ?_ (by simp)) (by simp)
    refine last_append (a := ['(']) (last_append (last_append (last_append hclose ?_) ?_) ?_) ?_
    all_goals simp

theorem ofTrimmed_spelled {text : List Char} {rule : Rule} (h : Spells text rule) :
    ofTrimmed text = .ok rule := by
  cases h with
  | parameter hw hz hname => exact ofTrimmed_parameter hw hz hname
  | value hw hz htext => exact ofTrimmed_value hw hz htext
  | range hr hs hw hz hw' hz' ha hb hp hq =>
    exact ofTrimmed_range hr hs hw hz hw' hz' ha hb hp hq
  | matching hw hz hletters hpattern => exact ofTrimmed_matching hw hz hletters hpattern
  | negated ha hb hc hw hz hletters hpattern =>
    exact ofTrimmed_negated ha hb hc hw hz hletters hpattern

/-- A text that is written for a rule, on its own. -/
theorem ofText_of_spells {text : List Char} {rule : Rule} (h : Spells text rule) :
    ofText (String.ofList text) = .ok rule := by
  rw [ofText, String.toList_ofList, trim_of_solid (solid_of_spells h), ofTrimmed_spelled h]

theorem evaluate_negated (source : String) (pattern : Option Pattern) (subject : Slot)
    (b : Bindings) :
    (matching source pattern true).evaluate subject b =
      ((matching source pattern false).evaluate subject b).map (!·) := by
  cases pattern with
  | none => rfl
  | some p => simp [evaluate]

/-- A text that is written for a rule is read as that rule, with white space around it, and a
negated pattern test is the three-valued negation of the plain one. -/
theorem ofText_written :
    (∀ {text w z : List Char} {rule : Rule}, Spells text rule → Blanks w → Blanks z →
      ofText (String.ofList (w ++ text ++ z)) = .ok rule) ∧
    ∀ (source : String) (pattern : Option Pattern) (subject : Slot) (b : Bindings),
      (matching source pattern true).evaluate subject b =
        ((matching source pattern false).evaluate subject b).map (!·) := by
  refine ⟨fun h hw hz => ?_, evaluate_negated⟩
  rw [ofText, String.toList_ofList, trim_around hw hz (solid_of_spells h), ofTrimmed_spelled h]

theorem ofText_between :
    Spells "this>=$min and this <= $max".toList
      (.allOf [⟨.atLeast, .parameter "min"⟩, ⟨.atMost, .parameter "max"⟩]) ∧
    Blanks [' '] ∧ Blanks ['\n'] ∧
    ofText " this>=$min and this <= $max\n" =
      .ok (.allOf [⟨.atLeast, .parameter "min"⟩, ⟨.atMost, .parameter "max"⟩]) := by
  have hspace : Blanks [' '] := by decide
  have hnothing : Blanks [] := by decide
  have hspells : Spells "this>=$min and this <= $max".toList
      (.allOf [⟨.atLeast, .parameter "min"⟩, ⟨.atMost, .parameter "max"⟩]) :=
    @Spells.range .atLeast .atMost [] [] [' '] [' '] [' '] [' '] "min".toList "max".toList
      (by decide) (by decide) hnothing hnothing hspace hspace ⟨hspace, by decide⟩
      ⟨hspace, by decide⟩ (.intro (by decide) (List.all_eq_true.mp (by decide)))
      (.intro (by decide) (List.all_eq_true.mp (by decide)))
  have hend : Blanks ['\n'] := by decide
  have htext : " this>=$min and this <= $max\n" =
      String.ofList ([' '] ++ "this>=$min and this <= $max".toList ++ ['\n']) := by decide
  rw [htext]
  exact ⟨hspells, hspace, hend, ofText_written.1 hspells hspace hend⟩

end DocSchema.Rule
