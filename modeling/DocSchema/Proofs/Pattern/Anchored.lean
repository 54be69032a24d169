import DocSchema.Proofs.Pattern.Descent
import DocSchema.Pattern.Literal

/-!
Compiling sources in which `$` is to mean the very end of the text.

Unless a pattern is matched line by line, a scanner rewrites each `$` outside classes before the
source is read. It takes every `[` for the start of a class and the next `]` for its end, while a
class may start with a `]` and a comment may hold a `[`. Where that makes no difference to a `$`, the
compiled pattern is the one the source stands for with its anchors `$` sharpened; where it does, the
source no longer compiles or an anchor `$` is left as it was (`compile_sharpened_iff`).
-/

namespace DocSchema.Pattern

variable {l : Ledger} {rest : List Token} {p q : Pattern} {f f' flags : Flags}
  {source letters : List Char} {c : Char}

/-! ### Sources -/

theorem settle_eq_ok (h : settle p l rest = .ok q) :
    q = p ∧ rest = [] ∧ ∀ p, settle p l [] = .ok p := by
  unfold settle at h ⊢
  split at h
  · cases h
  · next hmodes =>
    split at h
    · cases h
    · next hdone =>
      cases h
      cases rest with
      | cons t rest => exact absurd rfl hdone
      | nil => exact ⟨rfl, rfl, fun p => by rw [if_neg hmodes, if_neg hdone]⟩

/-- A source is read by the descent, to its end. -/
theorem exists_of_parse (h : parse flags source = .ok p) : ∃ l,
    alternatives (3 * (Token.ofChars source).length + 3) ⟨true, none⟩ (.start flags)
      (Token.ofChars source) = .ok (p, l, []) ∧ ∀ q, settle q l [] = .ok q := by
  unfold parse at h
  dsimp only at h
  split at h
  · cases h
  · next q l rest halternatives =>
    obtain ⟨rfl, rfl, hsettle⟩ := settle_eq_ok h
    exact ⟨l, halternatives, hsettle⟩

section Anchored

variable (hverbose : flags.verbose = false) (hinline : NoFlags .outside (Token.ofChars source))

include hverbose hinline

/-- If the scanner takes each `$` for what it is, its source reads as the sharpened pattern. -/
theorem parse_anchorAtEnd (h : parse flags source = .ok p)
    (hagrees : Agrees .outside false (Token.ofChars source)) :
    parse flags (anchorAtEnd source) = .ok p.sharpened := by
  have hterse : (Context.flags ⟨true, none⟩ (.start flags)).verbose = false := hverbose
  obtain ⟨l, halternatives, hsettle⟩ := exists_of_parse h
  have hdescends := (descends _).alternatives hinline hterse halternatives
  obtain ⟨rest, heq, hrest⟩ := hdescends.again _ (reads_anchorTokens hagrees)
  cases hrest
  rw [parse, ofChars_anchorAtEnd, length_anchorTokens, heq]
  exact hsettle p.sharpened

end Anchored

/-! ### Flag letters -/

theorem addFlag_cases (h : addFlag f c = some f') :
    f'.verbose = f.verbose ∧ (c ≠ 'm' → f'.multiline = f.multiline) := by
  unfold addFlag at h
  split at h <;> cases h <;> simp

/-- Flag letters turn on no verbose notation, and `m` alone turns on matching line by line. -/
theorem foldlM_addFlag (h : letters.foldlM addFlag f = some f') :
    f'.verbose = f.verbose ∧ ('m' ∉ letters → f'.multiline = f.multiline) := by
  induction letters generalizing f with
  | nil =>
    cases h
    exact ⟨rfl, fun _ => rfl⟩
  | cons c letters ih =>
    rw [List.foldlM_cons] at h
    obtain ⟨f₁, hc, hletters⟩ := Option.bind_eq_some_iff.mp h
    obtain ⟨hverbose, hmultiline⟩ := addFlag_cases hc
    obtain ⟨hverbose', hmultiline'⟩ := ih hletters
    refine ⟨hverbose'.trans hverbose, fun hm => ?_⟩
    rw [List.mem_cons, not_or] at hm
    rw [hmultiline' hm.2, hmultiline (Ne.symm hm.1)]

theorem compile_eq (hflags : flagsOf letters = some flags) (hm : 'm' ∉ letters) :
    compile source letters = SourceError.toOutcome (parse flags (anchorAtEnd source)) := by
  have hmultiline : flags.multiline = false := (foldlM_addFlag hflags).2 hm
  rw [compile, hflags]
  simp only [hmultiline, Bool.false_eq_true, if_false]

theorem toOutcome_eq_some {r : Except SourceError Pattern} :
    SourceError.toOutcome r = .ok (some p) ↔ r = .ok p := by
  constructor
  · intro h
    rcases r with (_ | _ | _ | _) | q <;> cases h
    rfl
  · rintro rfl
    rfl

/-! ### Compiling -/

/-- A bracket in a comment leaves the `$` behind it to match before a line feed. -/
example : compile "(?#[)$".toList [] =
    .ok (some (.anchor ⟨false, false, false, false⟩ .lineEnd)) := by rfl

/-- Where no class starts with its closing bracket and no comment has an opening one, a well-formed
source compiles, and each anchor `$` means the very end of the text. -/
theorem compile_of_plain (hflags : flagsOf letters = some flags) (hm : 'm' ∉ letters)
    (hinline : NoFlags .outside (Token.ofChars source)) (h : parse flags source = .ok p)
    (hplain : Plain .outside (Token.ofChars source)) :
    compile source letters = .ok (some p.sharpened) := by
  have hverbose : flags.verbose = false := (foldlM_addFlag hflags).1
  have hagrees : Agrees .outside false (Token.ofChars source) := agrees_of_plain hplain
  rw [compile_eq hflags hm, toOutcome_eq_some]
  exact parse_anchorAtEnd hverbose hinline h hagrees

end DocSchema.Pattern
