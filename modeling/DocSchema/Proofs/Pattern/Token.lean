import DocSchema.Pattern.Token

/-!
Tokens and the source they are read from.

A source is read as tokens of which none is a plain backslash and only the last one dangles
(`Token.Sound`), and such tokens are read back from their characters. Reading `$` as the end of the
text exchanges tokens one for one and keeps this, so it is the same on a source and on its tokens:
`ofChars_anchorAtEnd`.
-/

namespace DocSchema.Pattern

namespace Token

theorem char_ne_escape (c d : Char) : Token.char c ≠ .escape d := nofun

/-- No plain character is a backslash, and only the last token dangles. -/
def Sound : List Token → Prop
  | [] => True
  | .char c :: rest => c ≠ '\\' ∧ Sound rest
  | .escape _ :: rest => Sound rest
  | .dangling :: rest => rest = []

theorem sound_ofChars (cs : List Char) : Sound (ofChars cs) := by
  fun_induction ofChars cs with
  | case1 => trivial
  | case2 => rfl
  | case3 c rest ih => exact ih
  | case4 c rest hlast hmore ih =>
    refine ⟨?_, ih⟩
    intro hc
    cases rest with
    | nil => exact hlast hc rfl
    | cons d rest => exact hmore d rest hc rfl

/-- Tokens are read from their characters. -/
theorem ofChars_chars {ts : List Token} (h : Sound ts) : ofChars (ts.flatMap chars) = ts := by
  induction ts with
  | nil => rfl
  | cons t ts ih =>
    rw [List.flatMap_cons]
    cases t with
    | char c =>
      rw [chars, List.singleton_append, ofChars, ih h.2]
      · exact fun hc _ => h.1 hc
      · exact fun _ _ hc _ => h.1 hc
    | escape c => rw [chars, List.cons_append, List.singleton_append, ofChars, ih h]
    | dangling =>
      cases h
      rfl

end Token

/-- Whether the scanner is in a class behind a token. -/
def classBehind : Bool → Token → Bool
  | true, .char ']' => false
  | false, .char '[' => true
  | inClass, _ => inClass

theorem classBehind_true {t : Token} (h : t ≠ .char ']') : classBehind true t = true := by
  unfold classBehind
  split
  · exact absurd rfl h
  · rfl
  · rfl

theorem classBehind_false {t : Token} (h : t ≠ .char '[') : classBehind false t = false := by
  unfold classBehind
  split
  · rfl
  · exact absurd rfl h
  · rfl

/-- What the scanner makes of a token. -/
def anchored : Bool → Token → Token
  | false, .char '$' => .escape 'Z'
  | _, t => t

/-- The scanner keeps a token, or exchanges an anchor. -/
theorem anchored_cases (inClass : Bool) (t : Token) : anchored inClass t = t ∨
    inClass = false ∧ t = .char '$' ∧ anchored inClass t = .escape 'Z' := by
  unfold anchored
  split
  · exact .inr ⟨rfl, rfl, rfl⟩
  · exact .inl rfl

/-- The scanner goes through the tokens one by one. -/
theorem anchorTokens_cons (inClass : Bool) (t : Token) (ts : List Token) :
    anchorTokens inClass (t :: ts) =
      anchored inClass t :: anchorTokens (classBehind inClass t) ts := by
  rw [anchorTokens.eq_def]
  split <;> simp_all [anchored, classBehind]

theorem length_anchorTokens (inClass : Bool) (ts : List Token) :
    (anchorTokens inClass ts).length = ts.length := by
  induction ts generalizing inClass with
  | nil => rfl
  | cons t ts ih => rw [anchorTokens_cons, List.length_cons, List.length_cons, ih]

theorem sound_anchorTokens {ts : List Token} (h : Token.Sound ts) (inClass : Bool) :
    Token.Sound (anchorTokens inClass ts) := by
  induction ts generalizing inClass with
  | nil => trivial
  | cons t ts ih =>
    rw [anchorTokens_cons]
    cases t with
    | char c =>
      have hrest := ih h.2 (classBehind inClass (.char c))
      unfold anchored
      split
      · exact hrest
      · exact ⟨h.1, hrest⟩
    | escape c => cases inClass <;> exact ih h _
    | dangling =>
      cases h
      cases inClass <;> rfl

/-- The tokens of a source in which `$` means the very end of the text. -/
theorem ofChars_anchorAtEnd (source : List Char) :
    Token.ofChars (anchorAtEnd source) = anchorTokens false (Token.ofChars source) :=
  Token.ofChars_chars (sound_anchorTokens (Token.sound_ofChars source) false)

end DocSchema.Pattern
