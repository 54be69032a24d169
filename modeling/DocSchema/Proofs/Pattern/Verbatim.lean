import DocSchema.Proofs.Pattern.Anchored

/-!
Patterns for one text.

Every text has a source that is found in that text and in no other: its characters between `\A` and
`\Z`, all but ASCII letters and digits behind a backslash. No character of it starts anything, so the
source compiles to the anchored sequence of the characters (`compile_verbatim`), and that is found in
a text exactly if it is the text (`found_verbatim`). The letter `m` keeps the source as it is.
-/

namespace DocSchema.Pattern

/-- ASCII letters and digits stand for themselves. -/
def isPlain (c : Char) : Bool := isAsciiLetter c || isDecimalDigit c

/-- The token that stands for a character and nothing else. -/
def verbatimToken (c : Char) : Token := if isPlain c then .char c else .escape c

/-- The tokens of the source for one text. -/
def verbatimTokens (cs : List Char) : List Token :=
  .escape 'A' :: (cs.map verbatimToken ++ [.escape 'Z'])

/-- The source for one text. -/
def verbatimSource (cs : List Char) : List Char := (verbatimTokens cs).flatMap Token.chars

/-- Every line counts, which makes no difference to the ends of a text. -/
def lines : Flags := { Flags.none with multiline := true }

/-- The characters one after the other, and then the end of the text. -/
def upToEnd : List Char → Pattern
  | [] => .anchor lines.mode .textEnd
  | c :: cs => .seq (.one lines.mode (.literal false c.toNat)) (upToEnd cs)

/-- The pattern for one text. -/
def verbatim (cs : List Char) : Pattern := .seq (.anchor lines.mode .textStart) (upToEnd cs)

variable {c d : Char} {cs : List Char}

/-! ### Reading -/

/-- A plain character is none of those with a meaning of their own. -/
theorem ne_of_isPlain (hc : isPlain c = true) (hd : isPlain d = false) : c ≠ d := by
  rintro rfl
  exact Bool.false_ne_true (hd.symm.trans hc)

theorem sound_verbatimTokens (cs : List Char) : Token.Sound (verbatimTokens cs) := by
  show Token.Sound (cs.map verbatimToken ++ [.escape 'Z'])
  induction cs with
  | nil => trivial
  | cons c cs ih =>
    rw [List.map_cons, List.cons_append, verbatimToken]
    split
    · next hc => exact ⟨ne_of_isPlain hc (by decide), ih⟩
    · exact ih

/-- The item that stands for a character. -/
def literalItem (f : Flags) (c : Char) : Item := .plain (.one f.mode (.literal false c.toNat))

theorem quantifier_of_isPlain (hc : isPlain c = true) (ts : List Token) :
    quantifier c ts = .ok none := by
  unfold quantifier
  split
  · cases hc
  · cases hc
  · cases hc
  · cases hc
  · rfl

theorem plainItem_of_isPlain (hc : isPlain c = true) (f : Flags) :
    plainItem f c = literalItem f c := by
  unfold plainItem
  split
  · cases hc
  · cases hc
  · cases hc
  · rfl

/-- Behind a backslash every other character stands for itself. -/
theorem outerEscape_of_not_isPlain (hc : isPlain c = false) (l : Ledger) (f : Flags)
    (ts : List Token) : outerEscape l f c ts = .ok (literalItem f c, ts) := by
  obtain ⟨hletter, hdigit⟩ := Bool.or_eq_false_iff.mp hc
  have hne {d : Char} (hd : isPlain d = true) : c ≠ d := (ne_of_isPlain hd hc).symm
  have hanchor : anchorEscape? c = none := by
    unfold anchorEscape?
    split <;> first | rfl | cases hc
  have hcategory : category? c = none := by
    unfold category?
    split <;> first | rfl | cases hc
  rw [outerEscape, hanchor, hcategory]
  by_cases hbackslash : c = '\\'
  · subst hbackslash
    rfl
  · have hcontrol : controlCode? c = none := by
      unfold controlCode?
      split <;> first | rfl | exact absurd rfl hbackslash | cases hc
    rw [hcontrol, codeEscape, if_neg (hne (by decide)), if_neg (hne (by decide)),
      if_neg (hne (by decide)), hletter, hdigit]
    rfl

section Items

variable {ctx : Context} {l : Ledger} (hv : (ctx.flags l).verbose = false)

include hv

theorem items_verbatimToken (fuel : Nat) (done : List Item) (c : Char) (ts : List Token) :
    items (fuel + 1) ctx done l (verbatimToken c :: ts) =
      items fuel ctx (literalItem (ctx.flags l) c :: done) l ts := by
  rw [verbatimToken]
  split
  · next hc =>
    have hend : ¬AtEnd (.char c :: ts) := by
      rintro (hnil | hbar | hclose)
      · cases hnil
      · cases hbar
        cases hc
      · cases hclose
        cases hc
    rw [items_char hv hend (ne_of_isPlain hc (by decide)), quantifier_of_isPlain hc]
    dsimp only
    rw [if_neg (ne_of_isPlain hc (by decide)), plainItem_of_isPlain hc]
  · next hc => rw [items_escape hv, outerEscape_of_not_isPlain (Bool.not_eq_true _ ▸ hc)]

theorem items_verbatim (fuel : Nat) (done : List Item) (cs : List Char) (ts : List Token) :
    items (fuel + cs.length) ctx done l (cs.map verbatimToken ++ ts) =
      items fuel ctx ((cs.map (literalItem (ctx.flags l))).reverse ++ done) l ts := by
  induction cs generalizing done with
  | nil => rfl
  | cons c cs ih =>
    rw [List.map_cons, List.cons_append, List.length_cons, ← Nat.add_assoc,
      items_verbatimToken hv, ih, List.map_cons, List.reverse_cons, List.append_assoc]
    rfl

end Items

theorem sequence_verbatim (cs : List Char) :
    sequence (.anchor (.anchor lines.mode .textEnd) ::
      ((cs.map (literalItem lines)).reverse ++ [.anchor (.anchor lines.mode .textStart)])) =
      verbatim cs := by
  rw [sequence, List.foldl_append, List.foldl_reverse, List.foldr_map]
  show Pattern.seq _ _ = _
  rw [verbatim]
  congr 1
  induction cs with
  | nil => rfl
  | cons c cs ih =>
    rw [List.foldr_cons, ih]
    rfl

/-- The tokens of a source for one text are read one by one. -/
theorem items_verbatimTokens (fuel : Nat) (l : Ledger) (hl : l.flags = lines) (cs : List Char) :
    items (fuel + 2 + cs.length + 1) ⟨true, none⟩ [] l (verbatimTokens cs) =
      .ok (verbatim cs, l, []) := by
  have hflags : Context.flags ⟨true, none⟩ l = lines := hl
  have hv : (Context.flags ⟨true, none⟩ l).verbose = false := by rw [hflags]; rfl
  have hstart (ts : List Token) :
      outerEscape l lines 'A' ts = .ok (.anchor (.anchor lines.mode .textStart), ts) := rfl
  have hend (ts : List Token) :
      outerEscape l lines 'Z' ts = .ok (.anchor (.anchor lines.mode .textEnd), ts) := rfl
  rw [verbatimTokens, items_escape hv, hflags, hstart]
  dsimp only
  rw [items_verbatim hv, items_escape hv, hflags, hend]
  dsimp only
  rw [items_of_atEnd hv (.inl rfl), sequence_verbatim]

/-- The source for a text compiles to the pattern for it. -/
theorem compile_verbatim (cs : List Char) :
    compile (verbatimSource cs) ['m'] = .ok (some (verbatim cs)) := by
  have hflags : flagsOf ['m'] = some lines := rfl
  have htokens : Token.ofChars (verbatimSource cs) = verbatimTokens cs :=
    Token.ofChars_chars (sound_verbatimTokens cs)
  have hfuel : 3 * (verbatimTokens cs).length + 3 =
      2 * cs.length + 5 + 2 + cs.length + 1 + 1 := by
    simp only [verbatimTokens, List.length_cons, List.length_append, List.length_map,
      List.length_nil]
    omega
  have hitems := items_verbatimTokens (2 * cs.length + 5) (.start lines) rfl cs
  have hend : ([] : List Token).head? ≠ some (.char '|') := by decide
  have hparse : parse lines (verbatimSource cs) = .ok (verbatim cs) := by
    rw [parse, htokens, hfuel, alternatives_of_head hitems hend]
    rfl
  rw [compile, hflags]
  simp only [lines, if_true] at hparse ⊢
  rw [hparse]
  rfl

/-! ### Matching -/

/-- A literal without flags is one character. -/
theorem holds_literal (c d : Char) :
    (Single.literal false c.toNat).holds lines.mode d = true ↔ d = c := by
  have hvariants : lines.mode.variants d = [d.toNat] := rfl
  rw [Single.holds, hvariants, Bool.bne_false, List.contains_iff_mem, List.mem_singleton]
  constructor
  · intro h
    exact (Char.toNat_inj.mp h).symm
  · rintro rfl
    rfl

theorem step?_literal (c : Char) (s : Cursor) :
    s.step? (fun d => (Single.literal false c.toNat).holds lines.mode d) =
      match s.after with
      | d :: rest => if d = c then some ⟨d :: s.before, rest, s.position + 1, s.groups⟩ else none
      | [] => none := by
  unfold Cursor.step?
  rcases s.after with _ | ⟨d, rest⟩
  · rfl
  · simp only [holds_literal]

theorem run_upToEnd (cs : List Char) (s : Cursor) :
    (run (upToEnd cs) some s).isSome = true ↔ s.after = cs := by
  induction cs generalizing s with
  | nil =>
    rw [upToEnd, run, Anchor.holds]
    rcases s.after with _ | ⟨d, rest⟩ <;> simp
  | cons c cs ih =>
    rw [upToEnd, run, run, step?_literal]
    rcases s.after with _ | ⟨d, rest⟩
    · simp
    · by_cases hd : d = c
      · subst hd
        simp [ih]
      · simp [hd]

/-- Behind the start of a text the pattern for one is not found. -/
theorem foundFrom_verbatim (cs : List Char) {before : List Char} (hbefore : before ≠ [])
    (position : Nat) (text : List Char) :
    (verbatim cs).foundFrom before position text = false := by
  have hrun (s : Cursor) (hs : s.before ≠ []) : run (verbatim cs) some s = none := by
    rw [verbatim, run, run, Anchor.holds, if_neg]
    simpa using hs
  induction text generalizing before position with
  | nil =>
    rw [foundFrom, hrun _ hbefore]
    rfl
  | cons c text ih =>
    rw [foundFrom, hrun _ hbefore, ih (List.cons_ne_nil _ _)]
    rfl

/-- The pattern for a text is found in that text alone. -/
theorem found_verbatim (cs : List Char) (text : String) :
    (verbatim cs).found text = true ↔ text.toList = cs := by
  have hrun (text : List Char) :
      (run (verbatim cs) some ⟨[], text, 0, []⟩).isSome = true ↔ text = cs :=
    run_upToEnd cs ⟨[], text, 0, []⟩
  rw [found]
  rcases text.toList with _ | ⟨c, rest⟩
  · exact hrun []
  · rw [foundFrom, foundFrom_verbatim cs (List.cons_ne_nil _ _), Bool.or_false]
    exact hrun (c :: rest)

end DocSchema.Pattern
