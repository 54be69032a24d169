import DocSchema.Pattern.Parser
import DocSchema.Proofs.Pattern.Token
import Mathlib.Data.List.Basic

/-!
Regions of a pattern source.

What a `$` means depends on where it stands: outside classes it is an anchor, in a class a member of
it, in a comment nothing. `Region` follows the tokens of a source as the reader of patterns does: a
bracket or a caret in the first place of a class does not end it, and a comment lasts up to the next
parenthesis. The scanner that reads `$` as the end of the text knows less, so whether it takes each
`$` for what it is has to be said: `Agrees`. If it does, it exchanges the anchors and no member of a
class (`reads_anchorTokens`), and otherwise it leaves an anchor or breaks a class
(`agrees_of_clean`).
-/

namespace DocSchema.Pattern

/-- Where in a source a token stands: outside classes, behind the opening bracket of a class, behind
the caret that negates it, further inside, or in a comment. -/
inductive Region where
  | outside
  | opened
  | first
  | inside
  | comment
  deriving DecidableEq

/-- The tokens behind a parenthesis start a comment. -/
def startsComment : List Token → Bool
  | .char '?' :: .char '#' :: _ => true
  | _ => false

/-- The region behind a token, given the tokens that follow it. -/
def Region.next (r : Region) (t : Token) (ts : List Token) : Region :=
  match r with
  | .outside =>
    if t = .char '[' then .opened
    else if t = .char '(' ∧ startsComment ts then .comment
    else .outside
  | .opened => if t = .char '^' then .first else .inside
  | .first => .inside
  | .inside => if t = .char ']' then .outside else .inside
  | .comment => if t = .char ')' then .outside else .comment

/-- The region is that of a class. -/
def Region.inClass : Region → Bool
  | .opened | .first | .inside => true
  | .outside | .comment => false

/-! ### Properties of a source -/

/-- The tokens behind a parenthesis set flags. -/
def setsFlags : List Token → Bool
  | .char '?' :: .char c :: _ => (flag? c).isSome || c = '-'
  | _ => false

/-- No parenthesis sets flags. -/
def NoFlags : Region → List Token → Prop
  | _, [] => True
  | r, t :: ts =>
    (r = .outside → t = .char '(' → setsFlags ts = false) ∧ NoFlags (r.next t ts) ts

/-- The scanner takes each `$` for what it is: it is outside classes exactly at the anchors. -/
def Agrees : Region → Bool → List Token → Prop
  | _, _, [] => True
  | r, inClass, t :: ts =>
    (t = .char '$' → r ≠ .comment → inClass = r.inClass) ∧
      Agrees (r.next t ts) (classBehind inClass t) ts

/-- No class starts with its closing bracket, and no comment has an opening one. -/
def Plain : Region → List Token → Prop
  | _, [] => True
  | r, t :: ts =>
    (r = .opened ∨ r = .first → t ≠ .char ']') ∧ (r = .comment → t ≠ .char '[') ∧
      Plain (r.next t ts) ts

/-- There is no anchor `$`, and no class has the end of the text for a member. -/
def Clean : Region → List Token → Prop
  | _, [] => True
  | r, t :: ts =>
    (r = .outside → t ≠ .char '$') ∧ (r.inClass = true → t ≠ .escape 'Z') ∧
      Clean (r.next t ts) ts

instance decidableNoFlags : ∀ r ts, Decidable (NoFlags r ts)
  | _, [] => isTrue trivial
  | r, t :: ts =>
    have := decidableNoFlags (r.next t ts) ts
    inferInstanceAs (Decidable (_ ∧ _))

instance decidableAgrees : ∀ r inClass ts, Decidable (Agrees r inClass ts)
  | _, _, [] => isTrue trivial
  | r, inClass, t :: ts =>
    have := decidableAgrees (r.next t ts) (classBehind inClass t) ts
    inferInstanceAs (Decidable (_ ∧ _))

/-! ### Sources that differ in what `$` means -/

/-- What a token of a region becomes: an anchor `$` becomes the end of the text, and in comments it
does not matter. -/
def Region.Becomes : Region → Token → Token → Prop
  | .outside, t, t' => t' = if t = .char '$' then .escape 'Z' else t
  | .comment, t, t' => t' = t ∨ t = .char '$' ∧ t' = .escape 'Z'
  | _, t, t' => t' = t

/-- The second source is the first one with each anchor `$` read as the end of the text. -/
inductive Reads : Region → List Token → List Token → Prop
  | nil (r : Region) : Reads r [] []
  | cons {r : Region} {t t' : Token} {ts ts' : List Token} (ht : r.Becomes t t')
      (hts : Reads (r.next t ts) ts ts') : Reads r (t :: ts) (t' :: ts')

variable {r : Region} {t : Token} {ts ts' : List Token}

theorem reads_cons : Reads r (t :: ts) ts' ↔
    ∃ t' rest, ts' = t' :: rest ∧ r.Becomes t t' ∧ Reads (r.next t ts) ts rest := by
  constructor
  · intro h
    cases h with
    | cons ht hts => exact ⟨_, _, rfl, ht, hts⟩
  · rintro ⟨t', rest, rfl, ht, hts⟩
    exact .cons ht hts

theorem Reads.length_eq (h : Reads r ts ts') : ts.length = ts'.length := by
  induction h with
  | nil r => rfl
  | cons ht hts ih => rw [List.length_cons, List.length_cons, ih]

/-- A token other than `$` stays. -/
theorem becomes_of_ne {t' : Token} (ht : t ≠ .char '$') : r.Becomes t t' ↔ t' = t := by
  cases r <;> simp [Region.Becomes, ht]

theorem becomes_inClass {t' : Token} (hr : r.inClass = true) : r.Becomes t t' ↔ t' = t := by
  cases r with
  | outside | comment => cases hr
  | _ => rfl

/-! ### The scanner -/

section Scanner

variable {inClass : Bool}

/-- A scanner that takes each `$` for what it is exchanges the anchors. -/
theorem reads_anchorTokens (h : Agrees r inClass ts) : Reads r ts (anchorTokens inClass ts) := by
  induction ts generalizing r inClass with
  | nil => exact .nil r
  | cons t ts ih =>
    rw [anchorTokens_cons]
    refine .cons ?_ (ih h.2)
    by_cases ht : t = .char '$'
    · have hagrees := h.1 ht
      subst ht
      cases r with
      | outside =>
        cases hagrees (by decide)
        rfl
      | comment => cases inClass <;> simp [Region.Becomes, anchored]
      | opened | first | inside =>
        cases hagrees (by decide)
        rfl
    · rw [becomes_of_ne ht]
      exact (anchored_cases inClass t).resolve_right fun h => ht h.2.1

/-- Where classes and comments are plain, the scanner knows where it is. -/
theorem classBehind_of_plain (h : Plain r (t :: ts)) :
    classBehind r.inClass t = (r.next t ts).inClass := by
  obtain ⟨hclose, hopen, -⟩ := h
  cases r with
  | outside =>
    by_cases hbracket : t = .char '['
    · subst hbracket
      rfl
    · rw [Region.inClass, classBehind_false hbracket, Region.next, if_neg hbracket]
      split <;> rfl
  | opened =>
    rw [Region.inClass, classBehind_true (hclose (.inl rfl)), Region.next]
    split <;> rfl
  | first => exact classBehind_true (hclose (.inr rfl))
  | inside =>
    by_cases hbracket : t = .char ']'
    · subst hbracket
      rfl
    · rw [Region.inClass, classBehind_true hbracket, Region.next, if_neg hbracket]
      rfl
  | comment =>
    rw [Region.inClass, classBehind_false (hopen rfl), Region.next]
    split <;> rfl

theorem agrees_of_plain (h : Plain r ts) : Agrees r r.inClass ts := by
  induction ts generalizing r with
  | nil => trivial
  | cons t ts ih =>
    refine ⟨fun _ _ => rfl, ?_⟩
    rw [classBehind_of_plain h]
    exact ih h.2.2

end Scanner

end DocSchema.Pattern
