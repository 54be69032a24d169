import DocSchema.Proofs.Literal

/-!
Every text, integer and keyword has a literal that reads as it.

A text is put between two quotes of one kind. Inside, a backslash stands before each backslash and
each quote of that kind; a line feed, a return or a tab stands as it is or as a letter behind a
backslash; any other character stands as it is (`Quotes`). Whatever the text consists of, it comes
back as it was, also where it looks like a number, a keyword or a quoted text, or has white space at
an end. Main statement: `readsAs_written`.
-/

namespace DocSchema.Literal

/-! ### Writing -/

/-- The first text is written between two quotes `q` for the second one. -/
inductive Quotes (q : Char) : List Char → List Char → Prop
  | nil : Quotes q [] []
  | plain {c : Char} {text s : List Char} (hc : c ≠ '\\' ∧ c ≠ q) (h : Quotes q text s) :
    Quotes q (c :: text) (c :: s)
  | escaped {c : Char} {text s : List Char} (hc : c = '\\' ∨ c = q) (h : Quotes q text s) :
    Quotes q ('\\' :: c :: text) (c :: s)
  | control {letter c : Char} {text s : List Char} (hc : (letter, c) ∈ controls)
      (h : Quotes q text s) : Quotes q ('\\' :: letter :: text) (c :: s)

/-- As an operand the text has the value, whatever white space stands around it. -/
def ReadsAs (text : List Char) (v : Json) : Prop :=
  ∀ w z, Blanks w → Blanks z → coerce (.string (String.ofList (w ++ text ++ z))) = .ok v

variable {q : Char} {text s : List Char} {v : Json}

/-- Each text can be written between quotes. -/
theorem exists_quotes (q : Char) (s : List Char) : ∃ text, Quotes q text s := by
  induction s with
  | nil => exact ⟨[], .nil⟩
  | cons c s ih =>
    obtain ⟨text, h⟩ := ih
    by_cases hc : c = '\\' ∨ c = q
    · exact ⟨'\\' :: c :: text, .escaped hc h⟩
    · exact ⟨c :: text, .plain (not_or.mp hc) h⟩

/-! ### Reading back -/

/-- What is written between quotes escapes what has to be escaped. -/
theorem escapes_of_quotes (hq : q = '"' ∨ q = '\'') (h : Quotes q text s) : Escapes text s := by
  induction h with
  | nil => exact .nil
  | plain hc _ ih => exact .plain hc.1 ih
  | escaped hc _ ih =>
    refine .escaped ?_ ih
    -- neither the backslash nor a quote is a letter that stands for something else
    rcases hc with rfl | rfl
    · decide
    · rcases hq with rfl | rfl <;> decide
  | control hc _ ih => exact .control hc ih

theorem readsAs_of_spells (h : Spells text v) : ReadsAs text v := by
  intro w z hw hz
  rw [coerce, String.toList_ofList]
  exact ofText_spelled h hw hz

/-- A text between quotes reads as the text that it is written for, whichever quotes are taken, and
each text can be so written; an integer with no more digits than are read, and the keywords, read as
themselves. None of them minds white space at either end. -/
theorem readsAs_written :
    (∀ q, q = '"' ∨ q = '\'' → ∀ s : String,
      (∃ text, Quotes q text s.toList) ∧
      ∀ text, Quotes q text s.toList → ReadsAs (q :: (text ++ [q])) (.string s)) ∧
    (∀ n : Int, (Nat.toDigits 10 n.natAbs).length ≤ digitLimit →
      ReadsAs (toString n).toList (.int n)) ∧
    ReadsAs "true".toList (.bool true) ∧ ReadsAs "false".toList (.bool false) ∧
    ReadsAs "null".toList .null := by
  refine ⟨fun q hq s => ⟨exists_quotes q _, fun text h => ?_⟩, fun n hn => ?_, ?_, ?_, ?_⟩
  · have hspells := Spells.quoted hq (escapes_of_quotes hq h)
    rw [String.ofList_toList] at hspells
    exact readsAs_of_spells hspells
  · exact readsAs_of_spells (spells_int n hn)
  · exact readsAs_of_spells .yes
  · exact readsAs_of_spells .no
  · exact readsAs_of_spells .null

/-- A text that is itself a quoted number, ends in a backslash and holds a line feed. -/
theorem readsAs_quotedNumber :
    Quotes '"' "\\\"1\\\"\\n\\\\".toList "\"1\"\n\\".toList ∧
    Blanks [' '] ∧ Blanks ['\n'] ∧
    coerce (.string " \"\\\"1\\\"\\n\\\\\"\n") = .ok (.string "\"1\"\n\\") ∧
    (Nat.toDigits 10 (-42 : Int).natAbs).length ≤ digitLimit ∧
    coerce (.string " -42\n") = .ok (.int (-42)) := by
  have hquotes : Quotes '"' "\\\"1\\\"\\n\\\\".toList "\"1\"\n\\".toList :=
    .escaped (.inr rfl) (.plain (by decide) (.escaped (.inr rfl)
      (.control (by decide) (.escaped (.inl rfl) .nil))))
  have hspace : Blanks [' '] := by decide
  have hend : Blanks ['\n'] := by decide
  have hlength : (Nat.toDigits 10 (-42 : Int).natAbs).length ≤ digitLimit := by decide
  obtain ⟨htexts, hintegers, -⟩ := readsAs_written
  have htext := (htexts '"' (.inl rfl) "\"1\"\n\\").2 _ hquotes _ _ hspace hend
  have hinteger := hintegers (-42) hlength _ _ hspace hend
  exact ⟨hquotes, hspace, hend, htext, hlength, hinteger⟩

end DocSchema.Literal
