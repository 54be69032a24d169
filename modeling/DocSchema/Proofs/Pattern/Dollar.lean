import DocSchema.Proofs.Pattern.Token

/-!
Which dollar signs the scanner exchanges.

The scanner reads a source token by token and remembers whether it is in a class. Here its answer is
told from the characters of the source alone: a `$` is exchanged if it is not escaped and not in a
class (`AnchorAt`), where a backslash escapes what follows it unless it is escaped itself, and a class
lasts from an unescaped bracket to the next unescaped one that closes. The scanner comes to a place in
the state that the characters in front of it describe (`anchorTokens_from`), so it exchanges exactly
those dollar signs and copies everything else. Exchanging moves no token to another state of the
scanner, so doing it again changes nothing (`anchorTokens_idem`), and no anchor is left. Main statement:
`anchorAtEnd_exchanges`.
-/

namespace DocSchema.Pattern

/-! ### Places in a source -/

/-- The character at a place is escaped: a backslash that is not escaped itself stands in front of
it. -/
def Escaped (source : List Char) : Nat → Prop
  | 0 => False
  | i + 1 => source[i]? = some '\\' ∧ ¬Escaped source i

/-- A character stands at a place and is not escaped. -/
def Stands (c : Char) (source : List Char) (i : Nat) : Prop :=
  source[i]? = some c ∧ ¬Escaped source i

/-- A place is in a class: an unescaped bracket opens one in front of it, and no unescaped bracket in
between closes it. A class that is never closed lasts to the end of the source. -/
def InClass (source : List Char) (i : Nat) : Prop :=
  ∃ a < i, Stands '[' source a ∧ ∀ b < i, a < b → ¬Stands ']' source b

/-- An anchor: a `$` that is neither escaped nor in a class. -/
def AnchorAt (source : List Char) (i : Nat) : Prop := Stands '$' source i ∧ ¬InClass source i

instance decidableEscaped (source : List Char) : ∀ i, Decidable (Escaped source i)
  | 0 => isFalse id
  | i + 1 =>
    have := decidableEscaped source i
    inferInstanceAs (Decidable (_ ∧ _))

instance (c : Char) (source : List Char) (i : Nat) : Decidable (Stands c source i) :=
  inferInstanceAs (Decidable (_ ∧ _))

instance (source : List Char) (i : Nat) : Decidable (InClass source i) :=
  inferInstanceAs (Decidable (∃ a, a < i ∧ _))

instance (source : List Char) (i : Nat) : Decidable (AnchorAt source i) :=
  inferInstanceAs (Decidable (_ ∧ _))

/-- What is written for the character at a place: the end of the text for an anchor, and otherwise the
character itself. -/
def written (source : List Char) (x : Char × Nat) : List Char :=
  if AnchorAt source x.2 then ['\\', 'Z'] else [x.1]

section Places

variable {source : List Char} {c : Char} {i : Nat}

/-- Two characters do not stand at one place. -/
theorem not_stands (hc : source[i]? = some c) {d : Char} (hne : c ≠ d) : ¬Stands d source i := by
  rintro ⟨hd, -⟩
  rw [hc, Option.some.injEq] at hd
  exact hne hd

theorem stands_iff (hc : source[i]? = some c) (hi : ¬Escaped source i) {d : Char} :
    Stands d source i ↔ c = d := by
  rw [Stands, hc, Option.some.injEq]
  exact and_iff_left hi

theorem not_escaped_succ (hc : source[i]? = some c) (hne : c ≠ '\\') : ¬Escaped source (i + 1) := by
  rintro ⟨hslash, -⟩
  rw [hc, Option.some.injEq] at hslash
  exact hne hslash

/-- Behind a place there is a class if one opens there, or if there is one already that does not close
there. -/
theorem inClass_succ : InClass source (i + 1) ↔
    Stands '[' source i ∨ (InClass source i ∧ ¬Stands ']' source i) := by
  constructor
  · rintro ⟨a, ha, hopen, hclose⟩
    rcases Nat.lt_succ_iff_lt_or_eq.mp ha with ha | rfl
    · refine .inr ⟨⟨a, ha, hopen, fun b hb => hclose b (Nat.lt_succ_of_lt hb)⟩, ?_⟩
      exact hclose i (Nat.lt_succ_self i) ha
    · exact .inl hopen
  · rintro (hopen | ⟨⟨a, ha, hopen, hclose⟩, hi⟩)
    · exact ⟨i, Nat.lt_succ_self i, hopen, fun b hb hib => by omega⟩
    · refine ⟨a, Nat.lt_succ_of_lt ha, hopen, fun b hb hab => ?_⟩
      rcases Nat.lt_succ_iff_lt_or_eq.mp hb with hb | rfl
      · exact hclose b hb hab
      · exact hi

/-- A place with no unescaped bracket is in a class exactly if the next one is. -/
theorem inClass_succ_of_not_stands (hopen : ¬Stands '[' source i) (hclose : ¬Stands ']' source i) :
    InClass source (i + 1) ↔ InClass source i := by
  rw [inClass_succ]
  exact ⟨fun h => (h.resolve_left hopen).1, fun h => .inr ⟨h, hclose⟩⟩

/-- The state of the scanner behind an unescaped character. -/
theorem classBehind_char (hc : source[i]? = some c) (hi : ¬Escaped source i) :
    classBehind (decide (InClass source i)) (.char c) = decide (InClass source (i + 1)) := by
  have hnext : InClass source (i + 1) ↔ c = '[' ∨ (InClass source i ∧ ¬c = ']') := by
    rw [inClass_succ, stands_iff hc hi, stands_iff hc hi]
  by_cases hclass : InClass source i
  · by_cases hclose : c = ']'
    · subst hclose
      simp [hnext, hclass, classBehind]
    · rw [decide_eq_true hclass, classBehind_true (by simpa using hclose)]
      simp [hnext, hclass, hclose]
  · by_cases hopen : c = '['
    · subst hopen
      simp [hnext, hclass, classBehind]
    · rw [decide_eq_false hclass, classBehind_false (by simpa using hopen)]
      simp [hnext, hclass, hopen]

/-- What the scanner makes of an unescaped character. -/
theorem chars_anchored_char (hc : source[i]? = some c) (hi : ¬Escaped source i) :
    (anchored (decide (InClass source i)) (.char c)).chars = written source (c, i) := by
  have hanchor : AnchorAt source i ↔ c = '$' ∧ ¬InClass source i := by
    rw [AnchorAt, stands_iff hc hi]
  by_cases hclass : InClass source i
  · simp [written, hanchor, hclass, anchored, Token.chars]
  · by_cases hdollar : c = '$'
    · subst hdollar
      simp [written, hanchor, hclass, anchored, Token.chars]
    · have hkept : anchored false (.char c) = .char c := by simp [anchored, hdollar]
      simp [written, hanchor, hclass, hdollar, hkept, Token.chars]

theorem written_of_not_stands (h : ¬Stands '$' source i) : written source (c, i) = [c] :=
  if_neg fun hanchor => h hanchor.1

end Places

/-! ### The scanner on the way -/

theorem of_drop_eq_cons {source cs : List Char} {c : Char} {i : Nat}
    (h : source.drop i = c :: cs) : source[i]? = some c ∧ source.drop (i + 1) = cs := by
  constructor
  · rw [← List.head?_drop, h, List.head?_cons]
  · rw [← List.tail_drop, h, List.tail_cons]

/-- From a place on that is not escaped, in the state that the characters in front of it describe, the
scanner writes what is to be written. -/
theorem anchorTokens_from (source : List Char) {rest : List Char} {i : Nat}
    (hrest : source.drop i = rest) (hi : ¬Escaped source i) :
    (anchorTokens (decide (InClass source i)) (Token.ofChars rest)).flatMap Token.chars =
      (rest.zipIdx i).flatMap (written source) := by
  fun_induction Token.ofChars rest generalizing i with
  | case1 => rfl
  | case2 =>
    obtain ⟨hslash, -⟩ := of_drop_eq_cons hrest
    have hplain := written_of_not_stands (c := '\\') (not_stands hslash (by decide : '\\' ≠ '$'))
    cases decide (InClass source i) <;> simp [anchorTokens, Token.chars, hplain]
  | case3 c cs ih =>
    -- a backslash and the character that it escapes are copied, and neither is a bracket
    obtain ⟨hslash, hrest⟩ := of_drop_eq_cons hrest
    obtain ⟨-, hrest⟩ := of_drop_eq_cons hrest
    have hescaped : Escaped source (i + 1) := ⟨hslash, hi⟩
    have hnext : ¬Escaped source (i + 1 + 1) := fun h => h.2 hescaped
    have hstate : InClass source (i + 1 + 1) ↔ InClass source i := by
      rw [inClass_succ_of_not_stands (fun h => h.2 hescaped) (fun h => h.2 hescaped),
        inClass_succ_of_not_stands (not_stands hslash (by decide)) (not_stands hslash (by decide))]
    have htokens := ih hrest hnext
    rw [decide_eq_decide.mpr hstate] at htokens
    have hbehind : classBehind (decide (InClass source i)) (.escape c) =
        decide (InClass source i) := by
      cases decide (InClass source i) <;> rfl
    have hkept : anchored (decide (InClass source i)) (.escape c) = .escape c := by
      cases decide (InClass source i) <;> rfl
    rw [anchorTokens_cons, List.flatMap_cons, hkept, hbehind, htokens, List.zipIdx_cons,
      List.zipIdx_cons, List.flatMap_cons, List.flatMap_cons,
      written_of_not_stands (not_stands hslash (by decide)),
      written_of_not_stands fun h => h.2 hescaped]
    rfl
  | case4 c cs hlast hmore ih =>
    obtain ⟨hc, hrest⟩ := of_drop_eq_cons hrest
    have hslash : c ≠ '\\' := by
      rintro rfl
      cases cs with
      | nil => exact hlast rfl rfl
      | cons d cs => exact hmore d cs rfl rfl
    rw [anchorTokens_cons, List.flatMap_cons, classBehind_char hc hi, chars_anchored_char hc hi,
      ih hrest (not_escaped_succ hc hslash), List.zipIdx_cons, List.flatMap_cons]

/-- The scanner writes the source with each anchor exchanged. -/
theorem anchorAtEnd_eq_written (source : List Char) :
    anchorAtEnd source = source.zipIdx.flatMap (written source) := by
  have houtside : ¬InClass source 0 := by
    rintro ⟨a, ha, -⟩
    exact absurd ha (Nat.not_lt_zero a)
  have hscan := anchorTokens_from source (i := 0) List.drop_zero id
  rwa [decide_eq_false houtside] at hscan

/-! ### Once and again -/

/-- What an exchange leaves is not exchanged again, and the scanner is behind it where it was before. -/
theorem anchored_idem (inClass : Bool) (t : Token) :
    anchored inClass (anchored inClass t) = anchored inClass t ∧
      classBehind inClass (anchored inClass t) = classBehind inClass t := by
  rcases anchored_cases inClass t with h | ⟨rfl, rfl, -⟩
  · rw [h]
    exact ⟨h, rfl⟩
  · exact ⟨rfl, rfl⟩

theorem anchorTokens_idem (inClass : Bool) (ts : List Token) :
    anchorTokens inClass (anchorTokens inClass ts) = anchorTokens inClass ts := by
  induction ts generalizing inClass with
  | nil => rfl
  | cons t ts ih =>
    obtain ⟨hkept, hbehind⟩ := anchored_idem inClass t
    rw [anchorTokens_cons, anchorTokens_cons, hkept, hbehind, ih]

theorem anchorAtEnd_idem (source : List Char) :
    anchorAtEnd (anchorAtEnd source) = anchorAtEnd source := by
  rw [anchorAtEnd, ofChars_anchorAtEnd, anchorTokens_idem]
  rfl

/-- Each anchor takes one character more. -/
theorem length_written (source : List Char) (l : List (Char × Nat)) :
    (l.flatMap (written source)).length =
      l.length + l.countP fun x => decide (AnchorAt source x.2) := by
  induction l with
  | nil => rfl
  | cons x l ih =>
    rw [List.flatMap_cons, List.length_append, ih, List.countP_cons, List.length_cons, written]
    by_cases hx : AnchorAt source x.2
    · simp only [hx, if_true, decide_true, List.length_cons, List.length_nil]
      omega
    · simp only [hx, if_false, decide_false, Bool.false_eq_true, List.length_cons, List.length_nil]
      omega

/-- A source is its own exchange exactly if it has no anchor. -/
theorem anchorAtEnd_eq_self_iff (source : List Char) :
    anchorAtEnd source = source ↔ ∀ i, ¬AnchorAt source i := by
  rw [anchorAtEnd_eq_written]
  constructor
  · intro h i hi
    have hlength := congrArg List.length h
    rw [length_written, List.length_zipIdx] at hlength
    have hnone : source.zipIdx.countP (fun x => decide (AnchorAt source x.2)) = 0 := by omega
    have hmem : ('$', i) ∈ source.zipIdx := List.mem_zipIdx_iff_getElem?.mpr hi.1.1
    exact List.countP_eq_zero.mp hnone _ hmem (decide_eq_true hi)
  · intro h
    have hcopied : written source = fun x => [x.1] := funext fun x => if_neg (h x.2)
    rw [hcopied, ← List.map_eq_flatMap, List.zipIdx_map_fst]

/-- The scanner exchanges each `$` that is neither escaped nor in a class for the end of the text, and
copies everything else. So a source without such a `$` stays as it is, and only such a source does;
what the scanner writes has none; and scanning it again changes nothing. -/
theorem anchorAtEnd_exchanges (source : List Char) :
    anchorAtEnd source = (source.zipIdx.flatMap fun x =>
      if AnchorAt source x.2 then ['\\', 'Z'] else [x.1]) ∧
    (anchorAtEnd source = source ↔ ∀ i, ¬AnchorAt source i) ∧
    (∀ i, ¬AnchorAt (anchorAtEnd source) i) ∧
    anchorAtEnd (anchorAtEnd source) = anchorAtEnd source := by
  refine ⟨anchorAtEnd_eq_written source, anchorAtEnd_eq_self_iff source, ?_,
    anchorAtEnd_idem source⟩
  exact (anchorAtEnd_eq_self_iff (anchorAtEnd source)).mp (anchorAtEnd_idem source)

/-- Two backslashes escape each other, and three the `$` as well. The second class is never closed, and
the last backslash escapes nothing. -/
example : anchorAtEnd "\\\\$\\\\\\$[$\\]$]$[$\\".toList =
    "\\\\\\Z\\\\\\$[$\\]$]\\Z[$\\".toList := by decide

end DocSchema.Pattern
