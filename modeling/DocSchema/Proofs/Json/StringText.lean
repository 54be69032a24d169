import DocSchema.Json.Reader
import DocSchema.Json.Writer
import Mathlib.Data.List.Basic

/-!
The text of a string reads back as that string.

Each character is written as itself, as one of the short escapes, or by its code, in two units that
form a surrogate pair beyond the basic plane. A character is no surrogate, so one unit never starts a
pair by accident, and each of these texts reads back as the character (`stringBody_escapeChar`)
whatever comes next. Main statement: `readString_text`.
-/

namespace DocSchema.Reader

/-! ### Hexadecimal digits -/

theorem hexValue?_toDigits (n : Nat) : hexValue? (Nat.toDigits 16 n) = some n := by
  induction n using Nat.strongRecOn with
  | ind n ih =>
    have hdigit : ∀ m < 16, hexDigit? m.digitChar = some m := by decide
    rcases Nat.lt_or_ge n 16 with hlt | hge
    · rw [Nat.toDigits_of_lt_base hlt]
      simp [hexValue?, hdigit n hlt]
    · have hrest := ih (n / 16) (by omega)
      rw [hexValue?] at hrest
      rw [Nat.toDigits_of_base_le (by decide) hge, hexValue?, List.foldlM_append, hrest]
      simp [hdigit _ (Nat.mod_lt n (by decide))]
      omega

theorem hexValue?_hexText (width n : Nat) : hexValue? (hexText width n) = some n := by
  have hzeros (k : Nat) : hexValue? (List.replicate k '0') = some 0 := by
    induction k with
    | zero => rfl
    | succ k ih => rw [List.replicate_succ]; exact ih
  have hdigits := hexValue?_toDigits n
  have hwidth := hzeros (width - (Nat.toDigits 16 n).length)
  rw [hexValue?] at hdigits hwidth
  rw [hexText, hexValue?, List.foldlM_append, hwidth]
  exact hdigits

theorem length_hexText {n : Nat} (hn : n < 0x10000) : (hexText 4 n).length = 4 := by
  have hle : (Nat.toDigits 16 n).length ≤ 4 :=
    (Nat.length_toDigits_le_iff (by decide) (by decide)).mpr hn
  rw [hexText, List.length_append, List.length_replicate]
  omega

/-- Four digits that do not end the text read back. -/
theorem unit?_hexText {n : Nat} (hn : n < 0x10000) {rest : List Char} (hrest : rest ≠ []) :
    unit? (hexText 4 n ++ rest) = some (n, rest) := by
  have hvalue := hexValue?_hexText 4 n
  have hlength := length_hexText hn
  generalize hexText 4 n = text at hvalue hlength
  obtain ⟨a, b, c, d, rfl⟩ := List.length_eq_four.mp hlength
  obtain ⟨e, tail, rfl⟩ := List.exists_cons_of_ne_nil hrest
  simp [unit?, hvalue]

/-! ### Escapes by code -/

/-- One unit that is no surrogate reads back as its character. -/
theorem unicodeEscape_unit {n : Nat} (hn : n < 0xD800 ∨ 0xE000 ≤ n ∧ n < 0x10000)
    {rest : List Char} (hrest : rest ≠ []) :
    unicodeEscape (hexText 4 n ++ rest) = .ok (Char.ofNat n, rest) := by
  have hhigh : isHighSurrogate n = false := by
    simp [isHighSurrogate]
    omega
  have hchar : charOf n = Char.ofNat n := if_neg (by omega)
  rw [unicodeEscape, unit?_hexText (by omega) hrest]
  dsimp only
  split
  · simp [hhigh, hchar]
  · rw [hchar]

/-- Two units that form a surrogate pair read back as one character. -/
theorem unicodeEscape_pair {m : Nat} (hm : m < 0x100000) {rest : List Char} (hrest : rest ≠ []) :
    unicodeEscape (hexText 4 (0xD800 + m / 0x400) ++ '\\' :: 'u' ::
      (hexText 4 (0xDC00 + m % 0x400) ++ rest)) = .ok (Char.ofNat (0x10000 + m), rest) := by
  have hhigh : isHighSurrogate (0xD800 + m / 0x400) = true := by
    simp [isHighSurrogate]
    omega
  have hlow : isLowSurrogate (0xDC00 + m % 0x400) = true := by
    simp [isLowSurrogate]
    omega
  have hmore : 5 ≤ (hexText 4 (0xDC00 + m % 0x400) ++ rest).length := by
    rw [List.length_append, length_hexText (by omega)]
    have := List.length_pos_iff.mpr hrest
    omega
  have hcode : 0x10000 + (0xD800 + m / 0x400 - 0xD800) * 0x400 +
      (0xDC00 + m % 0x400 - 0xDC00) = 0x10000 + m := by omega
  have hunit := unit?_hexText (n := 0xDC00 + m % 0x400) (by omega) hrest
  rw [unicodeEscape, unit?_hexText (by omega) (by simp)]
  simp only [hhigh, hmore, and_self, if_true, hunit, hlow, hcode]

/-! ### Strings -/

theorem stringBody_unicodeEscape {opening done text rest : List Char} {c : Char} {fuel : Nat}
    (h : unicodeEscape text = .ok (c, rest)) :
    stringBody opening (fuel + 1) done ('\\' :: 'u' :: text) =
      stringBody opening fuel (c :: done) rest := by
  simp only [stringBody, h]

theorem toNat_valid (c : Char) : c.toNat < 0xD800 ∨ 0xDFFF < c.toNat ∧ c.toNat < 0x110000 := by
  have h := c.valid
  rwa [UInt32.isValidChar, Nat.isValidChar, Char.toNat_val] at h

theorem stringBody_codeEscape (c : Char) (opening done : List Char) (fuel : Nat)
    {rest : List Char} (hrest : rest ≠ []) :
    stringBody opening (fuel + 1) done (Json.codeEscape c.toNat ++ rest) =
      stringBody opening fuel (c :: done) rest := by
  have hvalid := toNat_valid c
  simp only [Json.codeEscape, Json.unitEscape]
  split
  · next hbasic =>
    have hescape := unicodeEscape_unit (n := c.toNat) (by omega) hrest
    rw [Char.ofNat_toNat] at hescape
    rw [List.cons_append, List.cons_append]
    exact stringBody_unicodeEscape hescape
  · next hbeyond =>
    have hescape := unicodeEscape_pair (m := c.toNat - 0x10000) (by omega) hrest
    rw [Nat.add_sub_cancel' (Nat.le_of_not_lt hbeyond), Char.ofNat_toNat] at hescape
    rw [List.append_assoc, List.cons_append, List.cons_append, List.cons_append, List.cons_append]
    exact stringBody_unicodeEscape hescape

/-- A character that is neither a quote nor a backslash nor a control character stands for itself. -/
theorem stringBody_plain {c : Char} (hquote : c ≠ '"') (hbackslash : c ≠ '\\') (hcontrol : ¬c < ' ')
    (opening done rest : List Char) (fuel : Nat) :
    stringBody opening (fuel + 1) done (c :: rest) = stringBody opening fuel (c :: done) rest := by
  rw [stringBody, if_neg hcontrol]
  · exact hquote
  · rintro rfl
    contradiction
  · rintro _ rfl
    contradiction
  · rintro _ _ rfl
    contradiction

/-- One character reads back, whatever its text. -/
theorem stringBody_escapeChar (asciiOnly : Bool) (c : Char) (opening done : List Char) (fuel : Nat)
    {rest : List Char} (hrest : rest ≠ []) :
    stringBody opening (fuel + 1) done (Json.escapeChar asciiOnly c ++ rest) =
      stringBody opening fuel (c :: done) rest := by
  unfold Json.escapeChar
  split
  case h_8 hquote hbackslash _ _ _ _ _ =>
    split
    · exact stringBody_codeEscape c opening done fuel hrest
    · next hplain =>
      rw [Bool.or_eq_true, not_or, decide_eq_true_eq] at hplain
      exact stringBody_plain hquote hbackslash hplain.1 opening done rest fuel
  all_goals rfl

theorem stringBody_text (asciiOnly : Bool) (opening rest : List Char) :
    ∀ (cs done : List Char) (fuel : Nat), cs.length < fuel →
      stringBody opening fuel done (cs.flatMap (Json.escapeChar asciiOnly) ++ '"' :: rest) =
        .ok (String.ofList (done.reverse ++ cs), rest)
  | [], done, fuel + 1, _ => by simp [stringBody]
  | c :: cs, done, fuel + 1, h => by
    rw [List.flatMap_cons, List.append_assoc, stringBody_escapeChar _ _ _ _ _ (by simp),
      stringBody_text asciiOnly opening rest cs (c :: done) fuel (Nat.lt_of_succ_lt_succ h)]
    simp

theorem codeEscape_ne_nil (n : Nat) : Json.codeEscape n ≠ [] := by
  simp only [Json.codeEscape, Json.unitEscape]
  split <;> exact List.cons_ne_nil _ _

/-- No character is written as nothing. -/
theorem escapeChar_ne_nil (asciiOnly : Bool) (c : Char) : Json.escapeChar asciiOnly c ≠ [] := by
  unfold Json.escapeChar
  split
  case h_8 =>
    split
    · exact codeEscape_ne_nil _
    · simp
  all_goals simp

theorem length_le_flatMap (asciiOnly : Bool) (cs : List Char) :
    cs.length ≤ (cs.flatMap (Json.escapeChar asciiOnly)).length := by
  induction cs with
  | nil => simp
  | cons c cs ih =>
    have := List.length_pos_iff.mpr (escapeChar_ne_nil asciiOnly c)
    rw [List.flatMap_cons, List.length_append, List.length_cons]
    omega

/-- The text of a string reads back, from its opening quote on. -/
theorem readString_text (asciiOnly : Bool) (s : String) (opening rest : List Char) :
    readString opening (s.toList.flatMap (Json.escapeChar asciiOnly) ++ '"' :: rest) =
      .ok (s, rest) := by
  have hlength := length_le_flatMap asciiOnly s.toList
  rw [readString, stringBody_text asciiOnly opening rest s.toList [] _
    (by rw [List.length_append]; omega)]
  simp

end DocSchema.Reader
