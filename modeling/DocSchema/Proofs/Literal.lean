import DocSchema.Proofs.Constraint.Operand
import DocSchema.Proofs.Json.NumberText
import DocSchema.Proofs.Text.Blank

/-!
The texts of literals.

`Spells` says which texts are written for a value: keywords, digits of any script behind an optional
minus, and text between quotes with backslash escapes (`Escapes`). Each of them reads as that value,
whatever white space stands around it (`ofText_spelled`). Text that is none of these, and is trimmed,
stands for itself, and no other text does: `ofText_eq_self`.
-/

namespace DocSchema.Literal

/-! ### Writing -/

/-- Letters that stand for a control character behind a backslash. -/
def controls : List (Char × Char) := [('n', '\n'), ('r', '\r'), ('t', '\t')]

/-- The first text is the second one with some of its characters behind a backslash, the backslash
always, and line feeds, returns and tabs perhaps as letters. -/
inductive Escapes : List Char → List Char → Prop
  | nil : Escapes [] []
  | plain {c : Char} {text s : List Char} (hc : c ≠ '\\') (h : Escapes text s) :
    Escapes (c :: text) (c :: s)
  | escaped {c : Char} {text s : List Char} (hc : c ∉ controls.map Prod.fst)
      (h : Escapes text s) : Escapes ('\\' :: c :: text) (c :: s)
  | control {letter c : Char} {text s : List Char} (hc : (letter, c) ∈ controls)
      (h : Escapes text s) : Escapes ('\\' :: letter :: text) (c :: s)

/-- The text is a literal that is written for the value. -/
inductive Spells : List Char → Json → Prop
  | yes : Spells "true".toList (.bool true)
  | no : Spells "false".toList (.bool false)
  | null : Spells "null".toList .null
  | digits {ds : List Char} (hne : ds ≠ []) (hds : ∀ d ∈ ds, isDigit d = true)
      (hlength : ds.length ≤ digitLimit) : Spells ds (.int (digitsValue ds))
  | negative {ds : List Char} (hne : ds ≠ []) (hds : ∀ d ∈ ds, isDigit d = true)
      (hlength : ds.length ≤ digitLimit) : Spells ('-' :: ds) (.int (-(digitsValue ds : Int)))
  | quoted {q : Char} {text s : List Char} (hq : q = '"' ∨ q = '\'') (h : Escapes text s) :
    Spells (q :: (text ++ [q])) (.string (String.ofList s))

/-! ### Reading back -/

variable {cs text s ds w z : List Char} {v : Json}

theorem decodeEscapes_of_escapes (h : Escapes text s) : decodeEscapes text = s := by
  induction h with
  | nil => rfl
  | plain hc h ih => simp [decodeEscapes, hc, ih]
  | @escaped c text s hc h ih =>
    have hself : unescape c = c := by
      unfold unescape
      split
      · simp [controls] at hc
      · simp [controls] at hc
      · simp [controls] at hc
      · rfl
    rw [decodeEscapes, hself, ih]
  | @control letter c text s hc h ih =>
    have hletter : unescape letter = c := by
      simp only [controls, List.mem_cons, Prod.mk.injEq, List.not_mem_nil, or_false] at hc
      rcases hc with ⟨rfl, rfl⟩ | ⟨rfl, rfl⟩ | ⟨rfl, rfl⟩ <;> rfl
    rw [decodeEscapes, hletter, ih]

theorem numberText?_of_head (h : ∀ c ∈ cs.head?, isDigit c = false ∧ c ≠ '-') :
    numberText? cs = none := by
  cases cs with
  | nil => rfl
  | cons c cs =>
    obtain ⟨hdigit, hminus⟩ := h c rfl
    simp [numberText?, unsigned?, hdigit, hminus]

theorem ofTrimmed_of_numberText? {t : NumberText} (h : numberText? cs = some t) :
    ofTrimmed cs = t.value.map .number := by
  have hkeyword (k : List Char) (hk : numberText? k = none) : cs ≠ k := by
    rintro rfl
    rw [h] at hk
    cases hk
  rw [ofTrimmed, if_neg (hkeyword _ (by decide)), if_neg (hkeyword _ (by decide)),
    if_neg (hkeyword _ (by decide)), h]

theorem numberText?_digits (hne : ds ≠ []) (hds : ∀ d ∈ ds, isDigit d = true) :
    numberText? ds = some ⟨false, ds, []⟩ ∧ numberText? ('-' :: ds) = some ⟨true, ds, []⟩ := by
  have hunsigned : unsigned? ds = some (ds, []) := unsigned?_eq_some_nil.mpr ⟨rfl, hne, hds⟩
  have hminus : ∀ rest, ds ≠ '-' :: rest := by
    rintro rest rfl
    simpa [not_isDigit_minus] using hds '-' List.mem_cons_self
  constructor
  · unfold numberText?
    split
    · next rest => exact absurd rfl (hminus rest)
    · rw [hunsigned]; rfl
  · rw [numberText?, hunsigned]; rfl

theorem value_of_short (negative : Bool) (hlength : ds.length ≤ digitLimit) :
    NumberText.value ⟨negative, ds, []⟩ =
      .ok (.int (if negative then -(digitsValue ds : Int) else digitsValue ds)) := by
  simp only [NumberText.value, List.isEmpty_nil, if_true]
  rw [if_neg (Nat.not_lt.mpr hlength)]

theorem isQuoted_quoted {q : Char} (hq : q = '"' ∨ q = '\'') (text : List Char) :
    isQuoted (q :: (text ++ [q])) = true := by
  rcases hq with rfl | rfl <;> simp [isQuoted]

theorem ofTrimmed_quoted {q : Char} (hq : q = '"' ∨ q = '\'') (text : List Char) :
    ofTrimmed (q :: (text ++ [q])) = .ok (.string (String.ofList (decodeEscapes text))) := by
  have hhead : ∀ c ∈ (q :: (text ++ [q])).head?, isDigit c = false ∧ c ≠ '-' := by
    rintro c ⟨⟩
    rcases hq with rfl | rfl <;> decide
  have hkeyword (k : Char) (ks : List Char) (hk : k ≠ '"' ∧ k ≠ '\'') :
      q :: (text ++ [q]) ≠ k :: ks := by
    rintro ⟨⟩
    exact hq.elim hk.1 hk.2
  have hinner : decodeQuoted (q :: (text ++ [q])) = decodeEscapes text := by
    simp [decodeQuoted]
  rw [ofTrimmed, if_neg (hkeyword _ _ (by decide)), if_neg (hkeyword _ _ (by decide)),
    if_neg (hkeyword _ _ (by decide)), numberText?_of_head hhead]
  simp only [isQuoted_quoted hq, if_true, hinner]

/-- A literal reads as the value that it is written for. -/
theorem ofTrimmed_spelled (h : Spells text v) : ofTrimmed text = .ok v := by
  cases h with
  | yes | no | null => rfl
  | digits hne hds hlength =>
    rw [ofTrimmed_of_numberText? (numberText?_digits hne hds).1, value_of_short _ hlength]
    rfl
  | negative hne hds hlength =>
    rw [ofTrimmed_of_numberText? (numberText?_digits hne hds).2, value_of_short _ hlength]
    rfl
  | quoted hq h => rw [ofTrimmed_quoted hq, decodeEscapes_of_escapes h]

/-! ### White space around literals -/

/-- No digit is white space. -/
theorem not_isBlank_of_isDigit {d : Char} (h : isDigit d = true) : isBlank d = false := by
  have hcodes : ∀ r ∈ blankRanges, ∀ k < r.2 - r.1 + 1, digitIn? digitZeros (r.1 + k) = none := by
    decide
  rw [← Bool.not_eq_true]
  intro hblank
  obtain ⟨r, hr, hfirst, hlast⟩ := exists_of_within hblank
  have hnone := hcodes r hr (d.toNat - r.1) (by omega)
  rw [Nat.add_sub_cancel' hfirst] at hnone
  rw [isDigit, digit?, hnone] at h
  cases h

theorem ne_nil_of_spells (h : Spells text v) : text ≠ [] := by
  rintro rfl
  generalize htext : ([] : List Char) = text at h
  cases h with
  | digits hne => exact hne htext.symm
  | yes | no | null | negative | quoted => cases htext

/-- What a literal starts with. -/
theorem head_of_spells (h : Spells text v) :
    ∀ c ∈ text.head?, isBlank c = false ∧ c ≠ '$' ∧ c ≠ '=' := by
  have hdigit {c : Char} (hc : isDigit c = true) : isBlank c = false ∧ c ≠ '$' ∧ c ≠ '=' := by
    refine ⟨not_isBlank_of_isDigit hc, ?_, ?_⟩ <;> rintro rfl <;> exact absurd hc (by decide)
  cases h with
  | yes | no | null => rintro c ⟨⟩; decide
  | digits hne hds => exact fun c hc => hdigit (hds c (List.mem_of_mem_head? hc))
  | negative => rintro c ⟨⟩; decide
  | quoted hq => rintro c ⟨⟩; rcases hq with rfl | rfl <;> decide

theorem solid_of_spells (h : Spells text v) : Solid text where
  head c hc := (head_of_spells h c hc).1
  last := by
    cases h with
    | yes | no | null => rintro c ⟨⟩; decide
    | digits hne hds =>
      exact fun c hc => not_isBlank_of_isDigit (hds c (List.mem_of_getLast? hc))
    | @negative ds hne hds =>
      intro c hc
      rw [List.getLast?_cons_of_ne_nil hne] at hc
      exact not_isBlank_of_isDigit (hds c (List.mem_of_getLast? hc))
    | quoted hq =>
      intro c hc
      rw [← List.cons_append, List.getLast?_concat] at hc
      cases hc
      rcases hq with rfl | rfl <;> decide

/-- A literal reads as the value that it is written for, with white space around it. -/
theorem ofText_spelled (h : Spells text v) (hw : Blanks w) (hz : Blanks z) :
    ofText (w ++ text ++ z) = .ok v := by
  rw [ofText, trim_around hw hz (solid_of_spells h), ofTrimmed_spelled h]

/-- A literal on its own. -/
theorem ofText_of_spells (h : Spells text v) : ofText text = .ok v := by
  rw [ofText, trim_of_solid (solid_of_spells h), ofTrimmed_spelled h]

/-! ### Usual numerals -/

theorem digit?_digitChar : ∀ k < 10, digit? (Nat.digitChar k) = some k := by decide

theorem isDigit_of_mem_toDigits {n : Nat} {d : Char} (h : d ∈ Nat.toDigits 10 n) :
    isDigit d = true := by
  have hdigit : ∀ k < 10, isDigit (Nat.digitChar k) = true := by decide
  induction n using Nat.strongRecOn with
  | ind n ih =>
    rcases Nat.lt_or_ge n 10 with hlt | hge
    · rw [Nat.toDigits_of_lt_base hlt, List.mem_singleton] at h
      exact h ▸ hdigit n hlt
    · rw [Nat.toDigits_of_base_le (by decide) hge] at h
      rcases List.mem_append.mp h with h | h
      · exact ih (n / 10) (by omega) h
      · rw [List.mem_singleton] at h
        exact h ▸ hdigit (n % 10) (Nat.mod_lt n (by decide))

theorem digitsValue_toDigits (n : Nat) : digitsValue (Nat.toDigits 10 n) = n := by
  induction n using Nat.strongRecOn with
  | ind n ih =>
    rcases Nat.lt_or_ge n 10 with hlt | hge
    · rw [Nat.toDigits_of_lt_base hlt]
      simp [digitsValue, digit?_digitChar n hlt]
    · rw [Nat.toDigits_of_base_le (by decide) hge, digitsValue, List.foldl_append]
      have hrest := ih (n / 10) (by omega)
      rw [digitsValue] at hrest
      simp [hrest, digit?_digitChar (n % 10) (by omega)]
      omega

/-- The usual text of an integer is a literal for it, unless it has too many digits. -/
theorem spells_int (n : Int) (hlength : (Nat.toDigits 10 n.natAbs).length ≤ digitLimit) :
    Spells (Json.numberText (.int n)) (.int n) := by
  have hdigits : ∀ d ∈ Nat.toDigits 10 n.natAbs, isDigit d = true :=
    fun d hd => isDigit_of_mem_toDigits hd
  rw [Reader.numberText_int]
  by_cases hn : n < 0
  · have hvalue : n = -(digitsValue (Nat.toDigits 10 n.natAbs) : Int) := by
      rw [digitsValue_toDigits]
      omega
    have hspells := Spells.negative Nat.toDigits_ne_nil hdigits hlength
    rw [← hvalue] at hspells
    simpa [Reader.signText, hn] using hspells
  · have hvalue : n = (digitsValue (Nat.toDigits 10 n.natAbs) : Int) := by
      rw [digitsValue_toDigits]
      omega
    have hspells := Spells.digits Nat.toDigits_ne_nil hdigits hlength
    rw [← hvalue] at hspells
    simpa [Reader.signText, hn] using hspells

/-! ### Plain text -/

/-- Trimmed text that is no keyword, no number and not in quotes. -/
structure IsPlain (cs : List Char) : Prop where
  trimmed : trim cs = cs
  keyword : cs ∉ [['t', 'r', 'u', 'e'], ['f', 'a', 'l', 's', 'e'], ['n', 'u', 'l', 'l']]
  number : numberText? cs = none
  quoted : isQuoted cs = false

theorem length_decodeEscapes_le (cs : List Char) : (decodeEscapes cs).length ≤ cs.length := by
  fun_induction decodeEscapes cs with
  | case1 | case2 => simp
  | case3 c rest ih => simp only [List.length_cons]; omega
  | case4 c rest _ _ ih => simpa using ih

theorem length_decodeQuoted_lt (h : cs ≠ []) : (decodeQuoted cs).length < cs.length := by
  have hdecode := length_decodeEscapes_le (cs.drop 1).dropLast
  have hpositive := List.length_pos_iff.mpr h
  rw [List.length_dropLast, List.length_drop] at hdecode
  rw [decodeQuoted]
  omega

/-- The text that stands for itself as an operand is plain text. -/
theorem ofText_eq_self : ofText cs = .ok (.string (String.ofList cs)) ↔ IsPlain cs := by
  constructor
  · intro h
    rw [ofText, ofTrimmed] at h
    split at h
    · cases h
    split at h
    · cases h
    split at h
    · cases h
    next htrue hfalse hnull =>
    split at h
    · next t _ => cases hvalue : t.value <;> rw [hvalue] at h <;> cases h
    · next hnumber =>
      have hlength := length_trim_le cs
      split at h
      · next hquoted =>
        -- what is in quotes is longer than what it stands for
        have hne : trim cs ≠ [] := by rintro hnil; rw [hnil] at hquoted; cases hquoted
        have hlt := length_decodeQuoted_lt hne
        have hself : decodeQuoted (trim cs) = cs := by
          simpa only [Except.ok.injEq, Json.string.injEq, String.ofList_inj] using h
        rw [hself] at hlt
        omega
      · next hquoted =>
        have htrim : trim cs = cs := by
          simpa only [Except.ok.injEq, Json.string.injEq, String.ofList_inj] using h
        rw [htrim] at htrue hfalse hnull hnumber hquoted
        exact ⟨htrim, by simp [htrue, hfalse, hnull], hnumber, by simpa using hquoted⟩
  · intro h
    have hk := h.keyword
    simp only [List.mem_cons, List.not_mem_nil, or_false, not_or] at hk
    rw [ofText, h.trimmed, ofTrimmed, if_neg hk.1, if_neg hk.2.1, if_neg hk.2.2, h.number]
    simp [h.quoted]

end DocSchema.Literal
