import DocSchema.Proofs.Expression.Rule

/-!
The parameters that a body refers to.

Each scanner is read backwards here: what it takes off was written in front. So the two names of a
range are identifiers, and nothing else is read as a range. A single comparison is not as strict: the
name of its parameter is whatever stands behind the `$`, up to the end of the body, as long as the
body is no range. Main statement: `ofText_parameters`.
-/

namespace DocSchema

def Operand.parameters : Operand → List String
  | .value _ => []
  | .parameter name => [name]

namespace Rule

open Expression

/-- The names of the parameters that a rule refers to. -/
def parameters : Rule → List String
  | .comparison c => c.operand.parameters
  | .allOf parts => parts.flatMap (·.operand.parameters)
  | .unrecognized _ | .matching .. => []

variable {r : Relation} {cs text rest : List Char} {name : String} {o : Operand}

/-! ### Operators and bounds -/

theorem order?_eq_some (h : order? cs = some (r, rest)) :
    r ∈ orders ∧ cs = r.text.toList ++ rest := by
  unfold order? at h
  split at h <;> cases h
  all_goals exact ⟨by decide, rfl⟩

theorem operator?_eq_some (h : operator? cs = some (r, text)) :
    text ≠ [] ∧ cs = r.text.toList ++ text := by
  unfold operator? at h
  split at h <;> cases h
  all_goals exact ⟨List.cons_ne_nil _ _, rfl⟩

theorem bound?_eq_some {c : Comparison} (h : bound? cs = some (c, rest)) :
    ∃ r ∈ orders, ∃ w z p, Blanks w ∧ Blanks z ∧ IsName p ∧
      c = ⟨r, .parameter (String.ofList p)⟩ ∧ cs = compared r w z ('$' :: p) ++ rest := by
  simp only [bound?, Option.bind_eq_bind, Option.bind_eq_some_iff, Prod.exists,
    Option.some.injEq, Prod.mk.injEq] at h
  obtain ⟨afterThis, hthis, r, afterOrder, horder, afterDollar, hdollar, p, _, hname, rfl, rfl⟩ := h
  obtain ⟨hr, horder⟩ := order?_eq_some horder
  obtain ⟨hp, hname⟩ := identifier?_eq_some hname
  obtain ⟨w, hw, hblank⟩ := exists_blanks afterThis
  obtain ⟨z, hz, hblank'⟩ := exists_blanks afterOrder
  refine ⟨r, hr, w, z, p, hw, hz, hp, rfl, ?_⟩
  rw [after?_eq_some.mp hthis, hblank, horder, hblank', after?_eq_some.mp hdollar, hname]
  simp [compared_eq]

/-- Exactly the texts that are written for a range are read as one. -/
theorem range?_eq_some {parts : List Comparison} :
    range? cs = some parts ↔ Spells cs (.allOf parts) := by
  constructor
  · intro h
    simp only [range?, Option.bind_eq_bind, Option.bind_eq_some_iff, Prod.exists] at h
    obtain ⟨first, a, hfirst, b, ha, c, hand, d, hb, second, e, hsecond, hend⟩ := h
    split at hend
    · next hempty =>
      cases hend
      obtain ⟨r, hr, w, z, p, hw, hz, hp, rfl, rfl⟩ := bound?_eq_some hfirst
      obtain ⟨s, hs, w', z', q, hw', hz', hq, rfl, rfl⟩ := bound?_eq_some hsecond
      obtain ⟨u, hu, rfl⟩ := afterBlanks?_eq_some ha
      obtain ⟨v, hv, rfl⟩ := afterBlanks?_eq_some hb
      cases after?_eq_some.mp hand
      rw [List.isEmpty_iff.mp hempty, List.append_nil]
      exact .range hr hs hw hz hw' hz' hu hv hp hq
    · cases hend
  · intro h
    cases h with
    | range hr hs hw hz hw' hz' ha hb hp hq => exact range?_compared hr hs hw hz hw' hz' ha hb hp hq

/-! ### Single comparisons -/

theorem last_compared {c : Char} {w z : List Char} (h : c ∈ text.getLast?) :
    c ∈ (compared r w z text).getLast? := by
  have hsplit : compared r w z text = ("this".toList ++ (w ++ (r.text.toList ++ z))) ++ text := by
    simp only [compared_eq, List.append_assoc]
  rw [hsplit, List.getLast?_append, Option.mem_def.mp h]
  rfl

theorem operand_eq_parameter (h : operand cs = .ok (.parameter name)) :
    trim cs = '$' :: name.toList := by
  unfold operand at h
  split at h
  · next tail htrim =>
    cases h
    rw [htrim, String.toList_ofList]
  · cases hread : Literal.ofText (trim cs) <;> rw [hread] at h <;> cases h

/-- What is read as a pattern test is one. -/
theorem ofSource_eq_ok {source : List Char} {negated : Bool} {rule : Rule}
    (h : ofSource source negated = .ok rule) :
    ∃ pattern, rule = .matching (String.ofList source) pattern negated := by
  unfold ofSource at h
  cases hread : Pattern.compileLiteral source <;> rw [hread] at h <;> cases h
  exact ⟨_, rfl⟩

theorem ofTrimmed_eq_allOf {parts : List Comparison} (h : ofTrimmed cs = .ok (.allOf parts)) :
    Spells cs (.allOf parts) := by
  unfold ofTrimmed at h
  split at h
  · cases (ofSource_eq_ok h).choose_spec
  · cases (ofSource_eq_ok h).choose_spec
  · next hrange =>
    cases h
    exact range?_eq_some.mp hrange
  · next r text _ _ _ _ => cases hread : operand text <;> rw [hread] at h <;> cases h
  · cases h

theorem ofTrimmed_eq_comparison (h : ofTrimmed cs = .ok (.comparison ⟨r, o⟩)) :
    range? cs = none ∧ ∃ text, compared? cs = some (r, text) ∧ operand text = .ok o := by
  unfold ofTrimmed at h
  split at h
  · cases (ofSource_eq_ok h).choose_spec
  · cases (ofSource_eq_ok h).choose_spec
  · cases h
  · next s text _ _ hrange hcompared =>
    cases hread : operand text <;> rw [hread] at h <;> cases h
    exact ⟨hrange, text, hcompared, hread⟩
  · cases h

/-- A text that ends in no white space is read as a comparison with a parameter if the name of the
parameter is all that stands behind the `$`, and the text is no range. -/
theorem ofTrimmed_eq_reference (hlast : ∀ c ∈ cs.getLast?, isBlank c = false) :
    ofTrimmed cs = .ok (.comparison ⟨r, .parameter name⟩) ↔
      (∃ w z, Blanks w ∧ Blanks z ∧ cs = compared r w z ('$' :: name.toList)) ∧
      ∀ parts, ¬ Spells cs (.allOf parts) := by
  constructor
  · intro h
    obtain ⟨hrange, text, hcompared, hoperand⟩ := ofTrimmed_eq_comparison h
    simp only [compared?, Option.bind_eq_bind, Option.bind_eq_some_iff] at hcompared
    obtain ⟨afterThis, hthis, hoperator⟩ := hcompared
    obtain ⟨w, hw, hblank⟩ := exists_blanks afterThis
    obtain ⟨z, hz, hblank'⟩ := exists_blanks text
    have hcs : cs = compared r w z (trimStart text) := by
      rw [after?_eq_some.mp hthis, hblank, (operator?_eq_some hoperator).2, compared_eq, ← hblank']
    -- nothing is trimmed off the end, which is the end of the body
    have hend : ∀ c ∈ (trimStart text).getLast?, isBlank c = false := by
      intro c hc
      exact hlast c (hcs ▸ last_compared hc)
    have hname := operand_eq_parameter hoperand
    rw [trim, trimEnd_of_last hend] at hname
    refine ⟨⟨w, z, hw, hz, hname ▸ hcs⟩, fun parts hparts => ?_⟩
    rw [range?_eq_some.mpr hparts] at hrange
    cases hrange
  · intro h
    obtain ⟨⟨w, z, hw, hz, rfl⟩, hparts⟩ := h
    have hrange : range? (compared r w z ('$' :: name.toList)) = none :=
      Option.eq_none_iff_forall_ne_some.mpr fun parts hsome => hparts parts (range?_eq_some.mp hsome)
    have hsolid : Solid ('$' :: name.toList) := by
      exact ⟨by rintro c ⟨⟩; decide, fun c hc => hlast c (last_compared hc)⟩
    have hoperand : operand (z ++ '$' :: name.toList) = .ok (.parameter name) := by
      rw [operand, trim_front hz hsolid]
      simp
    exact ofTrimmed_compared hw hz hrange (by simp) (by rintro c ⟨⟩; decide) hoperand

/-- Both names of a range are identifiers. -/
theorem isName_of_range {parts : List Comparison} (h : Spells cs (.allOf parts)) :
    ∀ name ∈ (allOf parts).parameters, IsName name.toList := by
  cases h with
  | range hr hs hw hz hw' hz' ha hb hp hq =>
    intro name hname
    simp only [parameters, Operand.parameters, List.flatMap_cons, List.flatMap_nil,
      List.append_nil, List.singleton_append, List.mem_cons, List.not_mem_nil, or_false] at hname
    rcases hname with rfl | rfl
    · rwa [String.toList_ofList]
    · rwa [String.toList_ofList]

/-- Each name that a rule refers to is an identifier, except for the name in a single comparison. It
is all that stands behind the `$`, whatever that is, and the only texts that are not read so are the
ranges. -/
theorem ofText_parameters (body : String) :
    (∀ rule, ofText body = .ok rule → ∀ name ∈ rule.parameters,
      IsName name.toList ∨ ∃ r, rule = .comparison ⟨r, .parameter name⟩) ∧
    ∀ (r : Relation) (name : String), ofText body = .ok (.comparison ⟨r, .parameter name⟩) ↔
      (∃ w z, Blanks w ∧ Blanks z ∧ trim body.toList = compared r w z ('$' :: name.toList)) ∧
      ∀ parts, ¬ Spells (trim body.toList) (.allOf parts) := by
  refine ⟨fun rule h name hname => ?_, fun r name => ofTrimmed_eq_reference (last_trim _)⟩
  cases rule with
  | unrecognized | matching => cases hname
  | comparison c =>
    obtain ⟨r, o⟩ := c
    cases o with
    | value v => cases hname
    | parameter name' => exact .inr ⟨r, List.mem_singleton.mp hname ▸ rfl⟩
  | allOf parts => exact .inl (isName_of_range (ofTrimmed_eq_allOf h) name hname)

/-- A body with three bounds is no range, so its first bound takes up all the rest. -/
theorem ofText_threeBounds :
    ofText "this >= $min and this < $max and this != 0" =
      .ok (.comparison ⟨.atLeast, .parameter "min and this < $max and this != 0"⟩) := by
  refine ((ofText_parameters _).2 _ _).mpr ⟨⟨[' '], [' '], by decide, by decide, by decide⟩, ?_⟩
  intro parts hparts
  cases (range?_eq_some.mpr hparts : none = some parts)

/-- What three bounds are read as refers to a parameter that no one can declare by an identifier. -/
theorem exists_parameter_threeBounds :
    ∃ rule, ofText "this >= $min and this < $max and this != 0" = .ok rule ∧
      ∃ name ∈ rule.parameters, ¬ IsName name.toList :=
  ⟨.comparison ⟨.atLeast, .parameter "min and this < $max and this != 0"⟩, rfl,
    "min and this < $max and this != 0", List.mem_singleton.mpr rfl, by decide⟩

end Rule

end DocSchema
