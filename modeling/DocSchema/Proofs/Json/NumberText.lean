import DocSchema.Json.Reader
import DocSchema.Json.Writer
import DocSchema.Proofs.Number.Shortest
import Mathlib.Data.List.Induction

/-!
The text of a number reads back as that number.

A number literal is cut into whole digits, fraction and exponent from the front, so each part reads
back if what comes next does not go on with it (`Stops`). Integers are their digits. Of a double the
shortest decimal is laid out in one of five ways; each of them gives a literal with the same digits
up to zeros, and with the exponent that makes up for them (`lays_text`), so it reads as the
double by `Double.ofDecimal_of_units`. Main statement: `readScalar_numberText`.
-/

namespace DocSchema

namespace Reader

/-! ### Digits -/

theorem isDecimal_eq (c : Char) : isDecimal c = c.isDigit := by
  simp [isDecimal, Char.isDigit, Char.le_def]

theorem isDecimal_toDigits {n : Nat} {c : Char} (h : c ∈ Nat.toDigits 10 n) : isDecimal c = true := by
  rw [isDecimal_eq]
  exact Nat.isDigit_of_mem_toDigits (by decide) (by decide) h

theorem natOf_append (a b : List Char) : natOf (a ++ b) = natOf a * 10 ^ b.length + natOf b := by
  induction b using List.reverseRecOn with
  | nil => simp [natOf]
  | append_singleton b c ih =>
    simp only [natOf] at ih
    simp only [natOf, ← List.append_assoc, List.foldl_append, List.foldl_cons, List.foldl_nil, ih,
      List.length_append, List.length_singleton, Nat.pow_succ]
    ring

theorem natOf_toDigits (n : Nat) : natOf (Nat.toDigits 10 n) = n := by
  have h := Nat.ofDigitChars_ten_toDigits (n := n)
  rw [Nat.ofDigitChars] at h
  simpa only [natOf, Nat.mul_comm] using h

theorem natOf_zeros (k : Nat) : natOf (List.replicate k '0') = 0 := by
  induction k with
  | zero => rfl
  | succ k ih => rw [List.replicate_succ', natOf_append, ih]; rfl

theorem head?_toDigits {n : Nat} (hn : n ≠ 0) : (Nat.toDigits 10 n).head? ≠ some '0' := by
  induction n using Nat.strongRecOn with
  | ind n ih =>
    rcases Nat.lt_or_ge n 10 with hlt | hge
    · rw [Nat.toDigits_of_lt_base hlt]
      have hdigits : ∀ m < 10, m ≠ 0 → [m.digitChar].head? ≠ some '0' := by decide
      exact hdigits n hlt hn
    · have hhead := ih (n / 10) (by omega) (by omega)
      obtain ⟨d, tail, htext⟩ :=
        List.exists_cons_of_ne_nil (Nat.toDigits_ne_nil (b := 10) (n := n / 10))
      rw [Nat.toDigits_of_base_le (by decide) hge]
      rwa [htext] at hhead ⊢

/-- What comes next does not go on with a number. -/
def Stops (rest : List Char) : Prop :=
  ∀ c ∈ rest.head?, isDecimal c = false ∧ c ≠ '.' ∧ c ≠ 'e' ∧ c ≠ 'E'

theorem takeWhile_digits {ds rest : List Char} (hds : ∀ d ∈ ds, isDecimal d = true)
    (hrest : ∀ c ∈ rest.head?, isDecimal c = false) :
    (ds ++ rest).takeWhile isDecimal = ds ∧ (ds ++ rest).dropWhile isDecimal = rest := by
  rw [List.takeWhile_append_of_pos hds, List.dropWhile_append_of_pos hds]
  cases rest with
  | nil => simp
  | cons c rest => simp [hrest c rfl]

/-! ### The parts of a literal -/

/-- Digits that can stand in front of the point: a single zero, or digits that start with another
one. -/
structure IsWhole (ds : List Char) : Prop where
  ne_nil : ds ≠ []
  digits : ∀ d ∈ ds, isDecimal d = true
  zero : ds.head? = some '0' → ds = ['0']

theorem isDecimal_zero : ∀ d ∈ ['0'], isDecimal d = true := List.forall_mem_singleton.mpr rfl

theorem isWhole_zero : IsWhole ['0'] := ⟨by simp, isDecimal_zero, fun _ => rfl⟩

theorem isWhole_toDigits (n : Nat) : IsWhole (Nat.toDigits 10 n) where
  ne_nil := Nat.toDigits_ne_nil
  digits _ hd := isDecimal_toDigits hd
  zero hhead := by
    by_cases hn : n = 0
    · rw [hn, Nat.toDigits_zero]
    · exact absurd hhead (head?_toDigits hn)

namespace IsWhole

variable {ds : List Char}

/-- Digits that start with another one than zero can go on with any digits. -/
theorem append_of_head? (h : IsWhole ds) (hhead : ds.head? ≠ some '0') {more : List Char}
    (hmore : ∀ d ∈ more, isDecimal d = true) : IsWhole (ds ++ more) where
  ne_nil := by simp [h.ne_nil]
  digits d hd := (List.mem_append.mp hd).elim (h.digits d) (hmore d)
  zero hzero := by
    obtain ⟨c, tail, rfl⟩ := List.exists_cons_of_ne_nil h.ne_nil
    exact absurd hzero hhead

/-- Digits that start with another one than zero can end anywhere behind it. -/
theorem take_of_head? (h : IsWhole ds) (hhead : ds.head? ≠ some '0') {k : Nat} (hk : k ≠ 0) :
    IsWhole (ds.take k) := by
  obtain ⟨c, tail, rfl⟩ := List.exists_cons_of_ne_nil h.ne_nil
  obtain ⟨j, rfl⟩ := Nat.exists_eq_succ_of_ne_zero hk
  exact ⟨by simp, fun d hd => h.digits d (List.mem_of_mem_take hd), fun hzero => absurd hzero hhead⟩

end IsWhole

theorem wholePart_digits {ds rest : List Char} (h : IsWhole ds)
    (hrest : ∀ c ∈ rest.head?, isDecimal c = false) : wholePart (ds ++ rest) = some (ds, rest) := by
  obtain ⟨d, tail, rfl⟩ := List.exists_cons_of_ne_nil h.ne_nil
  by_cases hd : d = '0'
  · subst hd
    obtain rfl : tail = [] := by simpa using h.zero rfl
    rfl
  · obtain ⟨hhead, htail⟩ := List.forall_mem_cons.mp h.digits
    obtain ⟨htake, hdrop⟩ := takeWhile_digits htail hrest
    simp [wholePart, hhead, htake, hdrop]

theorem fractionPart_digits {ds rest : List Char} (hne : ds ≠ [])
    (hds : ∀ d ∈ ds, isDecimal d = true) (hrest : ∀ c ∈ rest.head?, isDecimal c = false) :
    fractionPart ('.' :: (ds ++ rest)) = (ds, rest) := by
  obtain ⟨htake, hdrop⟩ := takeWhile_digits hds hrest
  simp only [fractionPart, htake, hdrop]
  simp [hne]

theorem fractionPart_none {rest : List Char} (hrest : ∀ c ∈ rest.head?, c ≠ '.') :
    fractionPart rest = ([], rest) := by
  unfold fractionPart
  split
  · exact absurd rfl (hrest '.' rfl)
  · rfl

theorem exponentPart_none {rest : List Char} (hrest : ∀ c ∈ rest.head?, c ≠ 'e' ∧ c ≠ 'E') :
    exponentPart rest = none := by
  cases rest with
  | nil => rfl
  | cons c rest =>
    obtain ⟨he, hE⟩ := hrest c rfl
    simp [exponentPart, he, hE]

/-- The text of an exponent is a sign and digits. -/
theorem exists_exponentText (e : Int) : ∃ ds, ds ≠ [] ∧ (∀ d ∈ ds, isDecimal d = true) ∧
    natOf ds = e.natAbs ∧ Decimal.exponentText e = (if e < 0 then '-' else '+') :: ds := by
  by_cases hlength : (Nat.toDigits 10 e.natAbs).length < 2
  · refine ⟨'0' :: Nat.toDigits 10 e.natAbs, List.cons_ne_nil _ _, ?_, ?_, ?_⟩
    · exact List.forall_mem_cons.mpr ⟨by decide, fun d hd => isDecimal_toDigits hd⟩
    · rw [← List.singleton_append, natOf_append, natOf_toDigits]
      simp [natOf]
    · simp only [Decimal.exponentText, if_pos hlength]
  · refine ⟨_, Nat.toDigits_ne_nil, fun d hd => isDecimal_toDigits hd, natOf_toDigits _, ?_⟩
    simp only [Decimal.exponentText, if_neg hlength]

/-- The text of an exponent reads back. -/
theorem exponentPart_text (e : Int) {rest : List Char}
    (hrest : ∀ c ∈ rest.head?, isDecimal c = false) :
    exponentPart ('e' :: (Decimal.exponentText e ++ rest)) = some (e, rest) := by
  obtain ⟨ds, hne, hds, hvalue, htext⟩ := exists_exponentText e
  obtain ⟨htake, hdrop⟩ := takeWhile_digits hds hrest
  rw [htext]
  by_cases he : e < 0
  · have hsign : (natOf ds : Int) = -e := by omega
    simp [exponentPart, he, htake, hdrop, hne, hsign]
  · have hsign : (natOf ds : Int) = e := by omega
    simp [exponentPart, he, htake, hdrop, hne, hsign]

/-! ### Literals without sign -/

section Literal

variable {whole fraction rest : List Char}

/-- What follows the whole digits of a literal without sign. -/
theorem numberParts_whole (h : IsWhole whole) (hrest : ∀ c ∈ rest.head?, isDecimal c = false) :
    numberParts (whole ++ rest) = some (match exponentPart (fractionPart rest).2 with
      | some (e, rest') => (⟨false, whole, (fractionPart rest).1, e, false⟩, rest')
      | none => (⟨false, whole, (fractionPart rest).1, 0, (fractionPart rest).1.isEmpty⟩,
          (fractionPart rest).2)) := by
  have hwhole := wholePart_digits h hrest
  obtain ⟨d, tail, rfl⟩ := List.exists_cons_of_ne_nil h.ne_nil
  have hd : d ≠ '-' := by
    rintro rfl
    exact absurd (h.digits '-' List.mem_cons_self) (by decide)
  rw [List.cons_append] at hwhole ⊢
  rw [numberParts, hwhole]
  · dsimp only
    cases exponentPart (fractionPart rest).2 <;> rfl
  · rintro _ ⟨⟩
    exact hd rfl

/-- A text starts with a digit, and its parts are read off it in front of everything that does not go
on with it. -/
structure Spells (text : List Char) (p : NumberParts) : Prop where
  start : ∃ c tail, text = c :: tail ∧ isDecimal c = true
  parts : ∀ rest, Stops rest → numberParts (text ++ rest) = some (p, rest)

theorem IsWhole.start (h : IsWhole whole) (tail : List Char) :
    ∃ c tail', whole ++ tail = c :: tail' ∧ isDecimal c = true := by
  obtain ⟨d, ds, rfl⟩ := List.exists_cons_of_ne_nil h.ne_nil
  exact ⟨d, ds ++ tail, rfl, h.digits d List.mem_cons_self⟩

/-- An integer literal. -/
theorem spells_int (h : IsWhole whole) : Spells whole ⟨false, whole, [], 0, true⟩ where
  start := by simpa using h.start []
  parts rest hrest := by
    rw [numberParts_whole h fun c hc => (hrest c hc).1,
      fractionPart_none fun c hc => (hrest c hc).2.1, exponentPart_none fun c hc => (hrest c hc).2.2]
    rfl

/-- A literal with a fraction and no exponent. -/
theorem spells_point (h : IsWhole whole) (hne : fraction ≠ [])
    (hfraction : ∀ d ∈ fraction, isDecimal d = true) :
    Spells (whole ++ '.' :: fraction) ⟨false, whole, fraction, 0, false⟩ where
  start := h.start _
  parts rest hrest := by
    rw [List.append_assoc, List.cons_append, numberParts_whole h (by rintro c ⟨⟩; decide),
      fractionPart_digits hne hfraction fun c hc => (hrest c hc).1,
      exponentPart_none fun c hc => (hrest c hc).2.2]
    simp [hne]

/-- A literal with an exponent. -/
theorem spells_exponent (h : IsWhole whole) (hfraction : ∀ d ∈ fraction, isDecimal d = true)
    (e : Int) : Spells (whole ++ ((if fraction = [] then [] else '.' :: fraction) ++
      'e' :: Decimal.exponentText e)) ⟨false, whole, fraction, e, false⟩ where
  start := h.start _
  parts rest hrest := by
    have hexponent := exponentPart_text e fun c hc => (hrest c hc).1
    rw [List.append_assoc, List.append_assoc, List.cons_append]
    split
    · next hnil =>
      subst hnil
      rw [List.nil_append, numberParts_whole h (by rintro c ⟨⟩; decide),
        fractionPart_none (by rintro c ⟨⟩; decide), hexponent]
    · next hne =>
      rw [List.cons_append, numberParts_whole h (by rintro c ⟨⟩; decide),
        fractionPart_digits hne hfraction (by rintro c ⟨⟩; decide), hexponent]

end Literal

/-! ### Layouts of a decimal -/

/-- A text is a literal that rounds like the decimal. -/
def Lays (d : Decimal) (text : List Char) : Prop := ∃ whole fraction exponent,
  Spells text ⟨false, whole, fraction, exponent, false⟩ ∧
    Double.unitsOfDecimal (natOf (whole ++ fraction)) (exponent - fraction.length) = d.units

section Layout

variable {d : Decimal} {ds : List Char}

/-- Zeros that are added to the digits of a literal are made up for by its exponent. -/
theorem units_literal {whole fraction : List Char} {exponent : Int} (zeros : Nat)
    (hdigits : natOf (whole ++ fraction) = d.digits * 10 ^ zeros)
    (hexponent : exponent - fraction.length + zeros = d.exponent) :
    Double.unitsOfDecimal (natOf (whole ++ fraction)) (exponent - fraction.length) = d.units := by
  rw [hdigits, Double.unitsOfDecimal_shift, hexponent]
  rfl

theorem isDecimal_zeros {k : Nat} {c : Char} (h : c ∈ List.replicate k '0') : isDecimal c = true := by
  rw [(List.mem_replicate.mp h).2]
  decide

/-- All digits behind the point, and zeros in front of them. -/
theorem lays_behind (hwhole : IsWhole ds) (hvalue : natOf ds = d.digits) {k : Nat}
    (hpoint : (ds.length + d.exponent : Int) = -k) :
    Lays d ('0' :: '.' :: (List.replicate k '0' ++ ds)) := by
  refine ⟨['0'], List.replicate k '0' ++ ds, 0, ?_, units_literal 0 ?_ ?_⟩
  · refine spells_point isWhole_zero (by simp [hwhole.ne_nil]) fun c hc => ?_
    exact (List.mem_append.mp hc).elim isDecimal_zeros (hwhole.digits c)
  · rw [natOf_append, natOf_append, natOf_zeros, hvalue]
    simp [natOf]
  · rw [List.length_append, List.length_replicate]
    omega

/-- All digits in front of the point, and zeros behind them. -/
theorem lays_before (hwhole : IsWhole ds) (hhead : ds.head? ≠ some '0')
    (hvalue : natOf ds = d.digits) {k : Nat} (hpoint : (ds.length + d.exponent : Int) = k)
    (hle : ds.length ≤ k) : Lays d (ds ++ List.replicate (k - ds.length) '0' ++ ['.', '0']) := by
  refine ⟨ds ++ List.replicate (k - ds.length) '0', ['0'], 0, ?_,
    units_literal (k - ds.length + 1) ?_ ?_⟩
  · exact spells_point (hwhole.append_of_head? hhead fun c => isDecimal_zeros) (by simp)
      isDecimal_zero
  · rw [natOf_append, natOf_append, natOf_zeros, hvalue, List.length_replicate]
    simp [natOf, Nat.pow_succ, Nat.mul_assoc]
  · rw [List.length_singleton]
    omega

/-- The point between the digits. -/
theorem lays_between (hwhole : IsWhole ds) (hhead : ds.head? ≠ some '0')
    (hvalue : natOf ds = d.digits) {k : Nat} (hpoint : (ds.length + d.exponent : Int) = k)
    (hk : k ≠ 0) (hlt : k < ds.length) : Lays d (ds.take k ++ '.' :: ds.drop k) := by
  have hdrop : ds.drop k ≠ [] := by
    rw [Ne, List.drop_eq_nil_iff]
    omega
  refine ⟨ds.take k, ds.drop k, 0, ?_, units_literal 0 ?_ ?_⟩
  · exact spells_point (hwhole.take_of_head? hhead hk) hdrop fun c hc =>
      hwhole.digits c (List.mem_of_mem_drop hc)
  · rw [List.take_append_drop, hvalue]
    simp
  · rw [List.length_drop]
    omega

/-- One digit in front of the point, and an exponent. -/
theorem lays_exponent (hwhole : IsWhole ds) (hhead : ds.head? ≠ some '0')
    (hvalue : natOf ds = d.digits) :
    Lays d (ds.take 1 ++ (if ds.length = 1 then [] else '.' :: ds.drop 1) ++
      'e' :: Decimal.exponentText (ds.length + d.exponent - 1)) := by
  obtain ⟨c, tail, rfl⟩ := List.exists_cons_of_ne_nil hwhole.ne_nil
  have htail : (if (c :: tail).length = 1 then [] else '.' :: (c :: tail).drop 1) =
      if tail = [] then [] else '.' :: tail := by simp
  rw [htail, List.append_assoc]
  refine ⟨(c :: tail).take 1, tail, (c :: tail).length + d.exponent - 1, ?_, units_literal 0 ?_ ?_⟩
  · exact spells_exponent (hwhole.take_of_head? hhead Nat.one_ne_zero)
      (fun d hd => hwhole.digits d (List.mem_cons_of_mem c hd)) _
  · rw [List.take_succ_cons, List.take_zero, List.singleton_append, hvalue]
    simp
  · rw [List.length_cons]
    omega

end Layout

/-- The text of a decimal is a literal that rounds like the decimal. -/
theorem lays_text {d : Decimal} (hd : d.digits ≠ 0) : Lays d d.text := by
  have hvalue := natOf_toDigits d.digits
  have hwhole := isWhole_toDigits d.digits
  have hhead := head?_toDigits hd
  simp only [Decimal.text]
  generalize Nat.toDigits 10 d.digits = ds at hvalue hwhole hhead
  split
  · split
    · next k hpoint => exact lays_behind hwhole hvalue (k := k + 1) (hpoint.trans (by omega))
    · next hpoint => exact lays_behind hwhole hvalue (k := 0) hpoint
    · next k hzero hpoint =>
      split
      · next hle => exact lays_before hwhole hhead hvalue hpoint hle
      · next hlt =>
        refine lays_between hwhole hhead hvalue hpoint ?_ (Nat.lt_of_not_le hlt)
        rintro rfl
        exact hzero rfl
  · exact lays_exponent hwhole hhead hvalue

/-! ### Signs -/

theorem numberParts_minus {c : Char} {cs : List Char} (hc : isDecimal c = true) :
    numberParts ('-' :: c :: cs) =
      (numberParts (c :: cs)).map fun (p, rest) => ({ p with negative := true }, rest) := by
  have hminus (rest : List Char) : c :: cs ≠ '-' :: rest := by
    rintro ⟨⟩
    exact absurd hc (by decide)
  rw [numberParts, numberParts.eq_2 (c :: cs) hminus]
  cases wholePart (c :: cs) with
  | none => rfl
  | some x =>
    dsimp only
    cases exponentPart (fractionPart x.2).2 <;> rfl

/-- What starts with a digit is no number by name and no other scalar. -/
theorem readScalar_digit {strict : Bool} {c : Char} {cs rest : List Char} {p : NumberParts}
    (hc : isDecimal c = true) (h : numberParts (c :: cs) = some (p, rest)) :
    readScalar strict (c :: cs) = p.value.map (.number ·, rest) := by
  rw [readScalar, h]
  all_goals
    rintro _ ⟨⟩
    exact absurd hc (by decide)

theorem readScalar_minus {strict : Bool} {c : Char} {cs rest : List Char} {p : NumberParts}
    (hc : isDecimal c = true) (h : numberParts ('-' :: c :: cs) = some (p, rest)) :
    readScalar strict ('-' :: c :: cs) = p.value.map (.number ·, rest) := by
  rw [readScalar, h]
  all_goals
    intro rest heq
    have hI : c = 'I' := by simp_all
    exact absurd hc (by rw [hI]; decide)

/-- The sign of a literal. -/
def signText (negative : Bool) : List Char := if negative then ['-'] else []

/-- A literal is read as its value. -/
theorem readScalar_literal {strict : Bool} {text rest whole fraction : List Char} {exponent : Int}
    {isInt : Bool} (h : Spells text ⟨false, whole, fraction, exponent, isInt⟩) (negative : Bool)
    (hrest : Stops rest) : readScalar strict (signText negative ++ text ++ rest) =
      (NumberParts.value ⟨negative, whole, fraction, exponent, isInt⟩).map (.number ·, rest) := by
  have hparts := h.parts rest hrest
  obtain ⟨c, tail, rfl, hc⟩ := h.start
  cases negative with
  | false => exact readScalar_digit hc hparts
  | true =>
    refine readScalar_minus hc ?_
    rw [numberParts_minus hc]
    exact congrArg _ hparts

/-! ### Numbers -/

theorem numberText_int (n : Int) :
    Json.numberText (.int n) = signText (n < 0) ++ Nat.toDigits 10 n.natAbs := by
  rcases n with k | k
  · have hsign : ¬(Int.ofNat k < 0) := Int.not_lt.mpr (Int.natCast_nonneg k)
    simp only [Json.numberText, Int.toString_eq_repr, Int.repr, Nat.repr_eq_ofList_toDigits,
      String.toList_ofList, signText, hsign, decide_false]
    rfl
  · have hsign : Int.negSucc k < 0 := Int.negSucc_lt_zero k
    simp only [Json.numberText, Int.toString_eq_repr, Int.repr, Nat.repr_eq_ofList_toDigits,
      String.toList_append, String.toList_ofList, signText, hsign, decide_true]
    rfl

theorem numberText_finite (negative : Bool) (magnitude : Nat) (exact : Representable magnitude) :
    Json.numberText (.double (.finite negative magnitude exact)) = signText negative ++
      if magnitude = 0 then ['0', '.', '0'] else (Decimal.shortest magnitude).text := by
  have hbody (text : List Char) : (if magnitude = 0 then "0.0" else String.ofList text).toList =
      if magnitude = 0 then ['0', '.', '0'] else text := by
    split <;> simp
  cases negative <;> simp [Json.numberText, Double.text, signText, hbody]

/-- The text of a magnitude is a literal that rounds to it. -/
theorem exists_spells_magnitude {magnitude : Nat} (exact : Representable magnitude) :
    ∃ whole fraction exponent,
      Spells (if magnitude = 0 then ['0', '.', '0'] else (Decimal.shortest magnitude).text)
        ⟨false, whole, fraction, exponent, false⟩ ∧
      Double.unitsOfDecimal (natOf (whole ++ fraction)) (exponent - fraction.length) =
        magnitude := by
  split
  · next hzero =>
    refine ⟨['0'], ['0'], 0, spells_point isWhole_zero (by simp) isDecimal_zero, ?_⟩
    have hzeros : natOf (['0'] ++ ['0']) = 0 := rfl
    rw [hzero, hzeros, Double.unitsOfDecimal_zero]
  · next hpos =>
    obtain ⟨whole, fraction, exponent, hspells, hunits⟩ :=
      lays_text (Decimal.shortest_digits_ne_zero exact hpos)
    exact ⟨whole, fraction, exponent, hspells, hunits.trans (Decimal.units_shortest exact)⟩

end Reader

/-- An integer has no more digits than are read. -/
def Number.Readable : Number → Prop
  | .int n => (Nat.toDigits 10 n.natAbs).length ≤ digitLimit
  | .double _ => True

namespace Reader

/-- The text of a number reads back as that number. -/
theorem readScalar_numberText {n : Number} {rest : List Char} (hn : n.Readable)
    (hrest : Stops rest) :
    readScalar false (Json.numberText n ++ rest) = .ok (.number n, rest) := by
  rcases n with n | (_ | negative | ⟨negative, magnitude, exact⟩)
  · have hvalue : (if n < 0 then -(n.natAbs : Int) else n.natAbs) = n := by split <;> omega
    rw [numberText_int, readScalar_literal (spells_int (isWhole_toDigits n.natAbs)) _ hrest]
    simp only [NumberParts.value, if_true, natOf_toDigits]
    rw [if_neg (Nat.not_lt.mpr hn)]
    simp only [Except.map, decide_eq_true_eq, hvalue]
  · rfl
  · cases negative <;> rfl
  · obtain ⟨whole, fraction, exponent, hspells, hunits⟩ := exists_spells_magnitude exact
    rw [numberText_finite, readScalar_literal hspells _ hrest]
    simp only [NumberParts.value, Bool.false_eq_true, if_false,
      Double.ofDecimal_of_units exact hunits]
    rfl

end Reader

end DocSchema
