import DocSchema.Proofs.Pattern.Passage
import DocSchema.Proofs.Pattern.Sharpened
import DocSchema.Proofs.Text.Blank

/-!
Passages outside classes: escapes, quantifiers and what a parenthesis opens.

None of these depends on what an anchor `$` means, and none of the items that an escape makes is one.
A name or a number in an opening is made of characters that start nothing, so no `$` is read over as
part of it, and where no flags are set an opening never changes them (`opening_passes`).
-/

namespace DocSchema.Pattern

variable {l : Ledger} {f : Flags} {c : Char} {ts ts' rest : List Token} {i : Item}

theorem outside_settled : Region.Settled .outside := .inl rfl

/-! ### Escapes -/

theorem sharpened_reference {n : Nat} (h : reference l f n = .ok i) : i.sharpened = i := by
  unfold reference at h
  split at h
  · cases h
    rfl
  · cases h

theorem map_reference {n : Nat} {more : List Token}
    (h : (reference l f n).map (·, more) = .ok (i, rest)) :
    reference l f n = .ok i ∧ more = rest := by
  rcases hi : reference l f n with e | j <;> rw [hi] at h <;> cases h
  exact ⟨rfl, rfl⟩

/-- What a digit behind a backslash makes with the digits that follow it: `ds` is a second digit and
`es` a third, behind which stand `more` and `most`. -/
def digitsTaken (l : Ledger) (f : Flags) (c : Char) (ds es : List Char)
    (ts more most : List Token) : Read Item :=
  match ds with
  | [d] =>
    match isOctal c && isOctal d, es with
    | true, [e] =>
      if valueIn 8 [c, d, e] ≤ 0o377 then
        .ok (.plain (.one f.mode (.literal false (valueIn 8 [c, d, e]))), most)
      else .error .malformed
    | _, _ => (reference l f (valueIn 10 [c, d])).map (·, more)
  | _ => (reference l f (valueIn 10 [c])).map (·, ts)

theorem digitEscape_eq (hc : c ≠ '0') (ts : List Token) : digitEscape l f c ts =
    digitsTaken l f c (takeChars isDecimalDigit 1 ts).1
      (takeChars isOctal 1 (takeChars isDecimalDigit 1 ts).2).1 ts
      (takeChars isDecimalDigit 1 ts).2
      (takeChars isOctal 1 (takeChars isDecimalDigit 1 ts).2).2 := by
  rw [digitEscape, if_neg hc]
  rcases takeChars isDecimalDigit 1 ts with ⟨ds, more⟩
  unfold digitsTaken
  rcases ds with _ | ⟨d, _ | ⟨d', ds⟩⟩
  · rfl
  · dsimp only
    rcases takeChars isOctal 1 more with ⟨es, most⟩
    rcases isOctal c && isOctal d with _ | _
    · rfl
    · rcases es with _ | ⟨e, _ | ⟨e', es⟩⟩ <;> rfl
  · rfl

/-- Whatever stands behind them, the digits make the same item and leave the same place. -/
theorem digitsTaken_cases {ds es : List Char} {more most : List Token}
    (h : digitsTaken l f c ds es ts more most = .ok (i, rest)) : i.sharpened = i ∧
      (rest = ts ∧ (∀ ts more most, digitsTaken l f c ds es ts more most = .ok (i, ts)) ∨
        rest = more ∧ (∀ ts more most, digitsTaken l f c ds es ts more most = .ok (i, more)) ∨
        rest = most ∧ ∀ ts more most, digitsTaken l f c ds es ts more most = .ok (i, most)) := by
  unfold digitsTaken at h ⊢
  split at h
  · next d =>
    split at h
    · split at h
      · next hn =>
        cases h
        exact ⟨rfl, .inr (.inr ⟨rfl, fun ts more most => by rw [if_pos hn]⟩)⟩
      · cases h
    · next hother =>
      obtain ⟨hi, rfl⟩ := map_reference h
      refine ⟨sharpened_reference hi, .inr (.inl ⟨rfl, fun ts more most => ?_⟩)⟩
      rw [hi]
      rfl
  · next hother =>
    obtain ⟨hi, rfl⟩ := map_reference h
    refine ⟨sharpened_reference hi, .inl ⟨rfl, fun ts more most => ?_⟩⟩
    rw [hi]
    rfl

/-- A number behind a backslash, and whether it is a code point or a group. -/
theorem digitEscape_passes (h : digitEscape l f c ts = .ok (i, rest)) :
    Passes (digitEscape l f c) .outside ts (i, ·) .outside rest ∧ i.sharpened = i := by
  by_cases hc : c = '0'
  · have hdigits := takeChars_passes ordinary_isOctal outside_settled 2 ts
    rw [digitEscape, if_pos hc] at h
    cases h
    refine ⟨hdigits.map fun us more heq => ?_, rfl⟩
    rw [digitEscape, if_pos hc, Except.ok.inj heq]
  · have hsecond := takeChars_passes ordinary_isDecimalDigit outside_settled 1 ts
    have hthird := takeChars_passes ordinary_isOctal outside_settled 1
      (takeChars isDecimalDigit 1 ts).2
    have hagain (ts' : List Token) (hts' : Reads .outside ts ts') :
        ∃ more most, Reads .outside (takeChars isDecimalDigit 1 ts).2 more ∧
          Reads .outside (takeChars isOctal 1 (takeChars isDecimalDigit 1 ts).2).2 most ∧
          digitEscape l f c ts' = digitsTaken l f c (takeChars isDecimalDigit 1 ts).1
            (takeChars isOctal 1 (takeChars isDecimalDigit 1 ts).2).1 ts' more most := by
      obtain ⟨more, heq, hmore⟩ := hsecond.again ts' hts'
      obtain ⟨most, heq', hmost⟩ := hthird.again more hmore
      refine ⟨more, most, hmore, hmost, ?_⟩
      rw [digitEscape_eq hc, Except.ok.inj heq, Except.ok.inj heq']
    rw [digitEscape_eq hc] at h
    obtain ⟨hi, ⟨rfl, hsame⟩ | ⟨rfl, hsame⟩ | ⟨rfl, hsame⟩⟩ := digitsTaken_cases h
    · refine ⟨⟨.refl _ _, fun ts' hts' => ?_⟩, hi⟩
      obtain ⟨more, most, -, -, heq⟩ := hagain ts' hts'
      exact ⟨ts', heq.trans (hsame ..), hts'⟩
    · refine ⟨⟨hsecond.crosses, fun ts' hts' => ?_⟩, hi⟩
      obtain ⟨more, most, hmore, -, heq⟩ := hagain ts' hts'
      exact ⟨more, heq.trans (hsame ..), hmore⟩
    · refine ⟨⟨hsecond.crosses.trans hthird.crosses, fun ts' hts' => ?_⟩, hi⟩
      obtain ⟨more, most, -, hmost, heq⟩ := hagain ts' hts'
      exact ⟨most, heq.trans (hsame ..), hmost⟩

theorem sharpened_anchorEscape {a : Anchor} (h : anchorEscape? c = some a) : a.sharpened = a := by
  unfold anchorEscape? at h
  split at h <;> cases h <;> rfl

/-- An escape outside classes is no `$`, and passes over none. -/
theorem outerEscape_passes (h : outerEscape l f c ts = .ok (i, rest)) :
    Passes (outerEscape l f c) .outside ts (i, ·) .outside rest ∧ i.sharpened = i := by
  unfold outerEscape at h ⊢
  split at h
  · next a ha =>
    cases h
    refine ⟨.refl fun _ => rfl, ?_⟩
    rw [Item.sharpened, Pattern.sharpened, sharpened_anchorEscape ha]
  · cases h
    exact ⟨.refl fun _ => rfl, rfl⟩
  · cases h
    exact ⟨.refl fun _ => rfl, rfl⟩
  · split at h
    · next hdigit =>
      simp only [if_pos hdigit]
      exact digitEscape_passes h
    · next hdigit =>
      simp only [if_neg hdigit]
      rcases hcode : codeEscape c ts with e | ⟨n, more⟩ <;> rw [hcode] at h <;> cases h
      exact ⟨(codeEscape_passes outside_settled hcode).map fun us more heq => by rw [heq]; rfl, rfl⟩

/-! ### Quantifiers -/

/-- The digits of two counts between braces, and what follows them. -/
def bounds (ts : List Token) : (List Char × List Char) × List Token :=
  let (low, rest) := takeChars isDecimalDigit ts.length ts
  let (high, rest) := match rest with
    | .char ',' :: rest => takeChars isDecimalDigit rest.length rest
    | _ => (low, rest)
  ((low, high), rest)

/-- The counts that digits stand for. -/
def countsOf (low high : List Char) : Except SourceError (Nat × Option Nat) := do
  let least ← if low.isEmpty then .ok 0 else repeatCount low
  if high.isEmpty then return (least, none)
  let most ← repeatCount high
  if most < least then .error .malformed else return (least, some most)

/-- The counts, if a brace closes behind their digits. -/
def counted (digits : List Char × List Char) (ts : List Token) :
    Except SourceError (Option ((Nat × Option Nat) × List Token)) :=
  match ts with
  | [.char '\x7d', .dangling] => .error .malformed
  | .char '\x7d' :: rest => (countsOf digits.1 digits.2).map fun counts => some (counts, rest)
  | _ => .ok none

theorem counted_brace {digits : List Char × List Char} (h : rest ≠ [.dangling]) :
    counted digits (.char '\x7d' :: rest) =
      (countsOf digits.1 digits.2).map fun counts => some (counts, rest) :=
  counted.eq_2 digits rest h

theorem counted_of_head {digits : List Char × List Char} (h : ts.head? ≠ some (.char '\x7d')) :
    counted digits ts = .ok none := by
  rw [counted.eq_3]
  · rintro rfl
    exact h rfl
  · rintro rest rfl
    exact h rfl

theorem counted_eq (low high : List Char) (ts : List Token) :
    (match ts with
      | [.char '\x7d', .dangling] => .error .malformed
      | .char '\x7d' :: rest => do
        let least ← if low.isEmpty then .ok 0 else repeatCount low
        if high.isEmpty then return some ((least, none), rest)
        let most ← repeatCount high
        if most < least then .error .malformed else return some ((least, some most), rest)
      | _ => .ok none) = counted (low, high) ts := by
  unfold counted countsOf
  split
  · rfl
  · next more hmore =>
    have hmost (least : Nat) : (if high.isEmpty then pure (some ((least, none), more)) else do
          let most ← repeatCount high
          if most < least then .error .malformed else pure (some ((least, some most), more))) =
        (if high.isEmpty then pure (least, none) else do
          let most ← repeatCount high
          if most < least then .error .malformed else pure (least, some most) : Except _ _).map
            fun counts => some (counts, more) := by
      split
      · rfl
      · rcases repeatCount high with e | most
        · rfl
        · simp only [bind, Except.bind]
          split <;> rfl
    by_cases hlow : low.isEmpty = true
    · simp only [if_pos hlow]
      exact hmost 0
    · simp only [if_neg hlow]
      rcases repeatCount low with e | least
      · rfl
      · exact hmost least
  · rfl

theorem braces_eq (h : ts.head? ≠ some (.char '\x7d')) :
    braces ts = counted (bounds ts).1 (bounds ts).2 := by
  rw [braces, if_neg h]
  exact counted_eq _ _ _

theorem bounds_comma {low : List Char} {more : List Token}
    (h : takeChars isDecimalDigit ts.length ts = (low, .char ',' :: more)) :
    bounds ts = ((low, (takeChars isDecimalDigit more.length more).1),
      (takeChars isDecimalDigit more.length more).2) := by
  rw [bounds, h]
  rfl

theorem bounds_of_head {low : List Char}
    (h : takeChars isDecimalDigit ts.length ts = (low, rest))
    (hcomma : rest.head? ≠ some (.char ',')) : bounds ts = ((low, low), rest) := by
  rw [bounds, h]
  dsimp only
  split
  · exact absurd rfl hcomma
  · rfl

/-- Neither the digits of counts nor the comma between them depend on what `$` means. -/
theorem bounds_passes (ts : List Token) :
    Passes (fun ts => .ok (bounds ts)) .outside ts ((bounds ts).1, ·) .outside (bounds ts).2 := by
  have hlow := takeChars_passes ordinary_isDecimalDigit outside_settled ts.length ts
  rcases htake : takeChars isDecimalDigit ts.length ts with ⟨low, rest⟩
  rw [htake] at hlow
  by_cases hcomma : rest.head? = some (.char ',')
  · obtain ⟨more, rfl⟩ := List.head?_eq_some_iff.mp hcomma
    have hne : Token.char ',' ≠ .char '$' := by decide
    have hhigh := takeChars_passes ordinary_isDecimalDigit outside_settled more.length more
    rw [bounds_comma htake]
    refine ⟨hlow.crosses.trans (.step (fun _ => hne) nofun hhigh.crosses), ?_⟩
    intro ts' hts'
    obtain ⟨us, heq, hus⟩ := hlow.again ts' hts'
    obtain ⟨more', rfl, hmore⟩ := (reads_cons_of_ne hne).mp hus
    obtain ⟨rest', heq', hrest⟩ := hhigh.again more' hmore
    rw [hts'.length_eq] at heq
    rw [hmore.length_eq] at heq'
    refine ⟨rest', ?_, hrest⟩
    rw [bounds_comma (Except.ok.inj heq), Except.ok.inj heq', ← hmore.length_eq]
  · rw [bounds_of_head htake hcomma]
    refine hlow.mapReads fun us more hus hmore heq => ?_
    rw [hus.length_eq] at heq
    rw [bounds_of_head (Except.ok.inj heq) (hmore.head_ne hcomma)]

/-- Counts between braces, up to the closing one. -/
theorem braces_passes {counts : Nat × Option Nat} (h : braces ts = .ok (some (counts, rest))) :
    Passes braces .outside ts (fun rest => some (counts, rest)) .outside rest := by
  have hbounds := bounds_passes ts
  have hopen : ts.head? ≠ some (.char '\x7d') := by
    intro hhead
    rw [braces, if_pos hhead] at h
    cases h
  have hclose : (bounds ts).2.head? = some (.char '\x7d') := by
    by_contra hhead
    rw [braces_eq hopen, counted_of_head hhead] at h
    cases h
  obtain ⟨more, hmore⟩ := List.head?_eq_some_iff.mp hclose
  have hdangling : more ≠ [.dangling] := by
    rintro rfl
    rw [braces_eq hopen, hmore] at h
    cases h
  rw [braces_eq hopen, hmore, counted_brace hdangling] at h
  rw [hmore] at hbounds
  rcases hcounts : countsOf (bounds ts).1.1 (bounds ts).1.2 with e | counts' <;>
    rw [hcounts] at h <;> cases h
  have hne : Token.char '\x7d' ≠ .char '$' := by decide
  refine ⟨hbounds.crosses.trans (.step (fun _ => hne) nofun (.refl _ _)), ?_⟩
  intro ts' hts'
  obtain ⟨us, heq, hus⟩ := hbounds.again ts' hts'
  obtain ⟨rest', rfl, hrest⟩ := (reads_cons_of_ne hne).mp hus
  refine ⟨rest', ?_, hrest⟩
  rw [braces_eq (hts'.head_ne hopen), Except.ok.inj heq, counted_brace, hcounts]
  · rfl
  · rintro rfl
    obtain ⟨us, rfl, hnil⟩ := hrest.uncons nofun
    cases hnil
    exact hdangling rfl

/-- A brace that is a plain character stays one. -/
theorem braces_none (h : braces ts = .ok none) (hts' : Reads .outside ts ts') :
    braces ts' = .ok none := by
  by_cases hopen : ts.head? = some (.char '\x7d')
  · obtain ⟨more, rfl⟩ := List.head?_eq_some_iff.mp hopen
    obtain ⟨more', rfl, -⟩ := (reads_cons_of_ne (by decide)).mp hts'
    rfl
  · rw [braces_eq hopen] at h
    obtain ⟨us, heq, hus⟩ := (bounds_passes ts).again ts' hts'
    rw [braces_eq (hts'.head_ne hopen), Except.ok.inj heq]
    refine counted_of_head (hus.head_ne fun hclose => ?_)
    obtain ⟨more, hmore⟩ := List.head?_eq_some_iff.mp hclose
    rw [hmore] at h
    by_cases hdangling : more = [.dangling]
    · subst hdangling
      cases h
    · rw [counted_brace hdangling] at h
      rcases hcounts : countsOf (bounds ts).1.1 (bounds ts).1.2 with e | counts <;>
        rw [hcounts] at h <;> cases h

theorem quantifier_passes {counts : Nat × Option Nat}
    (h : quantifier c ts = .ok (some (counts, rest))) :
    Passes (quantifier c) .outside ts (fun rest => some (counts, rest)) .outside rest := by
  unfold quantifier at h
  split at h
  · cases h
    exact .refl fun _ => rfl
  · cases h
    exact .refl fun _ => rfl
  · cases h
    exact .refl fun _ => rfl
  · exact braces_passes h
  · cases h

theorem quantifier_none (h : quantifier c ts = .ok none) (hts' : Reads .outside ts ts') :
    quantifier c ts' = .ok none := by
  unfold quantifier at h ⊢
  split at h
  · cases h
  · cases h
  · cases h
  · exact braces_none h hts'
  · rfl

theorem greed_of_head (hlazy : ts.head? ≠ some (.char '?'))
    (hpossessive : ts.head? ≠ some (.char '+')) : greed ts = (.greedy, ts) := by
  unfold greed
  split
  · exact absurd rfl hlazy
  · exact absurd rfl hpossessive
  · rfl

theorem greed_passes (ts : List Token) :
    Passes (fun ts => .ok (greed ts)) .outside ts ((greed ts).1, ·) .outside (greed ts).2 := by
  by_cases hlazy : ts.head? = some (.char '?')
  · obtain ⟨rest, rfl⟩ := List.head?_eq_some_iff.mp hlazy
    exact .cons (by decide) nofun (.refl fun _ => rfl) fun _ => rfl
  · by_cases hpossessive : ts.head? = some (.char '+')
    · obtain ⟨rest, rfl⟩ := List.head?_eq_some_iff.mp hpossessive
      exact .cons (by decide) nofun (.refl fun _ => rfl) fun _ => rfl
    · rw [greed_of_head hlazy hpossessive]
      refine .stay fun ts' hts' => ?_
      rw [greed_of_head (hts'.head_ne hlazy) (hts'.head_ne hpossessive)]

/-! ### Names -/

/-- Nothing in the text starts or ends anything. -/
def Harmless (name : List Char) : Prop := ∀ c ∈ name, c ∉ special

theorem harmless_of_all {p : Char → Bool} {name : List Char} (hp : Ordinary p)
    (h : ∀ c ∈ name, p c = true) : Harmless name :=
  fun c hc hspecial => Bool.false_ne_true ((hp c hspecial).symm.trans (h c hc))

theorem harmless_of_isName {name : List Char} (h : isName name = true) : Harmless name := by
  have hstart : Ordinary startsName := by decide +kernel
  have hinner : Ordinary continuesName := by decide +kernel
  cases name with
  | nil => cases h
  | cons c cs =>
    obtain ⟨hc, hcs⟩ := (Bool.and_eq_true _ _).mp h
    rintro d (_ | ⟨_, hd⟩) hspecial
    · exact Bool.false_ne_true ((hstart c hspecial).symm.trans hc)
    · exact harmless_of_all hinner (List.all_eq_true.mp hcs) d hd hspecial

/-- The characters that a group number may have. -/
def isNumeral (c : Char) : Bool := c = '+' || c = '_' || isDigit c || isBlank c

theorem numerals_of_spacedDigits {afterDigit : Bool} {n k : Nat} {cs : List Char}
    (h : spacedDigits? afterDigit n cs = some k) : ∀ c ∈ cs, isNumeral c = true := by
  fun_induction spacedDigits? afterDigit n cs with
  | case1 | case2 => exact List.forall_mem_nil _
  | case3 n rest ih => exact List.forall_mem_cons.mpr ⟨rfl, ih h⟩
  | case4 => cases h
  | case5 afterDigit n c rest hc d hd ih =>
    refine List.forall_mem_cons.mpr ⟨?_, ih h⟩
    simp [isNumeral, isDigit, hd]
  | case6 => cases h

theorem harmless_of_groupNumber {name : List Char} {n : Nat} (h : groupNumber? name = some n) :
    Harmless name := by
  have hnumeral : Ordinary isNumeral := by decide +kernel
  refine harmless_of_all hnumeral fun c hc => ?_
  rcases mem_trim hc with htrim | hblank
  · unfold groupNumber? at h
    split at h
    · next ds hds =>
      rw [hds] at htrim
      rcases List.mem_cons.mp htrim with rfl | hmem
      · rfl
      · exact numerals_of_spacedDigits h c hmem
    · exact numerals_of_spacedDigits h c htrim
  · simp [isNumeral, hblank]

theorem harmless_of_conditionGroup {name : List Char} {n : Nat}
    (h : conditionGroup l name = .ok n) : Harmless name := by
  unfold conditionGroup at h
  split at h
  · next hname => exact harmless_of_isName hname
  · split at h
    · next n' hn => exact harmless_of_groupNumber hn
    · cases h

theorem subset_of_textUntil {close : Char} {done name : List Char}
    (h : textUntil close done ts = .ok (name, rest)) : done ⊆ name := by
  fun_induction textUntil close done ts with
  | case1 | case2 | case3 => cases h
  | case4 =>
    cases h
    exact List.Subset.refl _
  | case5 done t rest' hdangling ht ih =>
    exact fun c hc => ih h (List.mem_append_left _ hc)

theorem next_of_harmless (h : ∀ c ∈ t.chars, c ∉ special) (ts : List Token) :
    Region.outside.next t ts = .outside ∧ t ≠ .char '$' := by
  cases t with
  | char c =>
    have hc := h c List.mem_cons_self
    refine ⟨next_of_not_special outside_settled fun d hd => ?_, ?_⟩
    · rintro rfl
      exact hc hd
    · rintro heq
      cases heq
      exact hc (by decide)
  | escape c => exact ⟨rfl, nofun⟩
  | dangling => exact ⟨rfl, nofun⟩

/-- A text in which nothing starts, up to its closing character. -/
theorem textUntil_passes {close : Char} {done name : List Char} (hclose : close ∉ special)
    (hname : Harmless name) (h : textUntil close done ts = .ok (name, rest)) :
    Passes (textUntil close done) .outside ts (name, ·) .outside rest := by
  fun_induction textUntil close done ts with
  | case1 | case2 | case3 => cases h
  | case4 done rest' hempty =>
    cases h
    have hchars : ∀ c ∈ (Token.char close).chars, c ∉ special := by
      rintro c (_ | ⟨_, ⟨⟩⟩)
      exact hclose
    obtain ⟨hnext, hdollar⟩ := next_of_harmless hchars rest
    refine .cons hdollar nofun (by rw [hnext]; exact .refl fun _ => rfl) fun us => ?_
    have hdangling : Token.char close ≠ .dangling := nofun
    rw [textUntil.eq_3 _ _ _ _ hdangling, if_pos rfl, if_neg hempty]
  | case5 done t rest' hdangling ht ih =>
    have hchars : ∀ c ∈ t.chars, c ∉ special := fun c hc =>
      hname c (subset_of_textUntil h (List.mem_append_right _ hc))
    obtain ⟨hnext, hdollar⟩ := next_of_harmless hchars rest'
    refine .cons hdollar nofun (by rw [hnext]; exact ih h) fun us => ?_
    rw [textUntil.eq_3 _ _ _ _ hdangling, if_neg ht]

theorem eq_of_startsComment (h : startsComment ts = true) :
    ∃ more, ts = .char '?' :: .char '#' :: more := by
  unfold startsComment at h
  split at h
  · exact ⟨_, rfl⟩
  · cases h

/-- A parenthesis that starts no comment. -/
theorem next_paren (h : startsComment ts = false) :
    Region.outside.next (.char '(') ts = .outside := by
  rw [Region.next, if_neg (by decide), if_neg]
  rintro ⟨-, hcomment⟩
  exact Bool.false_ne_true (h.symm.trans hcomment)

/-- A comment is no name. -/
theorem startsComment_of_textUntil {name : List Char} (hname : Harmless name)
    (h : textUntil ')' [] ts = .ok (name, rest)) : startsComment ts = false := by
  rw [← Bool.not_eq_true]
  intro hcomment
  obtain ⟨us, rfl⟩ := eq_of_startsComment hcomment
  have hmark : textUntil ')' ['?'] (.char '#' :: us) = .ok (name, rest) := h
  exact hname '?' (subset_of_textUntil hmark List.mem_cons_self) (by decide)

theorem nameUntil_passes {close : Char} {name : List Char} (hclose : close ∉ special)
    (h : nameUntil close ts = .ok (name, rest)) :
    Passes (nameUntil close) .outside ts (name, ·) .outside rest := by
  unfold nameUntil at h
  split at h
  · next name' more htext =>
    split at h
    · next hname =>
      cases h
      refine (textUntil_passes hclose (harmless_of_isName hname) htext).map fun us more heq => ?_
      rw [nameUntil, heq]
      exact if_pos hname
    · cases h
  · cases h

/-! ### Groups -/

theorem afterComment_cons (hdangling : t ≠ .dangling) (hclose : t ≠ .char ')') (ts : List Token) :
    afterComment (t :: ts) = afterComment ts := by
  rw [afterComment.eq_3 _ _ hdangling, if_neg hclose]

/-- A comment ends where it does, whatever `$` means. -/
theorem afterComment_passes (h : afterComment ts = .ok rest) :
    Passes afterComment .comment ts id .outside rest := by
  fun_induction afterComment ts with
  | case1 | case2 => cases h
  | case3 rest' hdangling =>
    cases h
    exact .cons (by decide) nofun (.refl fun _ => rfl) fun _ => rfl
  | case4 t rest' hdangling ht ih =>
    have hnext : Region.comment.next t rest' = .comment := if_neg ht
    refine ⟨.step nofun nofun (by rw [hnext]; exact (ih h).crosses), ?_⟩
    intro ts' hts'
    obtain ⟨t', more, rfl, ht', hmore⟩ := reads_cons.mp hts'
    rw [hnext] at hmore
    have hstays : afterComment (t' :: more) = afterComment more := by
      rcases ht' with rfl | ⟨-, rfl⟩
      · exact afterComment_cons hdangling ht more
      · rfl
    rw [hstays]
    exact (ih h).again more hmore

/-- An extension that starts with no flag and no minus sign names no flags. -/
theorem flagGroup_ne_ok {g : FlagGroup} (h : setsFlags (.char '?' :: ts) = false) :
    flagGroup ts ≠ .ok (g, rest) := by
  intro hok
  rcases hon : flagsOn Flags.none ts with e | ⟨⟨on, close⟩, more⟩
  · rw [flagGroup, hon] at hok
    cases hok
  · -- the first character is no flag, so none is set, and no minus sign can follow
    obtain ⟨hnone, hclose⟩ : on = Flags.none ∧ (close = ')' ∨ close = ':') := by
      unfold flagsOn at hon
      split at hon
      · next c us =>
        obtain ⟨hflag, hminus⟩ := Bool.or_eq_false_iff.mp h
        rw [Option.isSome_eq_false_iff, Option.isNone_iff_eq_none] at hflag
        simp only [hflag] at hon
        split at hon
        · next hc =>
          cases hon
          exact ⟨rfl, hc.imp_right fun hc => hc.resolve_right (of_decide_eq_false hminus)⟩
        · cases hon
      · cases hon
    rw [flagGroup, hon, hnone] at hok
    rcases hclose with rfl | rfl <;> cases hok

/-- An opening that sets no flags. -/
def Opening.Flagless : Opening → Prop
  | .flags _ => False
  | .plain on off => on = Flags.none ∧ off = Flags.none
  | _ => True

theorem extension_passes {o : Opening} (hflags : setsFlags (.char '?' :: ts) = false)
    (hcomment : ts.head? ≠ some (.char '#')) (h : extension l ts = .ok (o, rest)) :
    Passes (extension l) .outside ts (o, ·) .outside rest ∧ o.Flagless := by
  unfold extension at h
  split at h
  · next more =>
    rcases hname : nameUntil '>' more with e | ⟨n, us⟩ <;> rw [hname] at h <;> cases h
    refine ⟨.cons₂ (by decide) (by decide) nofun nofun
      ((nameUntil_passes (by decide) hname).map fun us more heq => ?_) fun _ => rfl, trivial⟩
    rw [extension, heq]
    rfl
  · next more =>
    rcases hname : nameUntil ')' more with e | ⟨n, us⟩ <;> rw [hname] at h <;> cases h
    refine ⟨.cons₂ (by decide) (by decide) nofun nofun
      ((nameUntil_passes (by decide) hname).map fun us more heq => ?_) fun _ => rfl, trivial⟩
    rw [extension, heq]
    rfl
  · cases h
    exact ⟨.cons (by decide) nofun (.refl fun _ => rfl) fun _ => rfl, rfl, rfl⟩
  · exact absurd rfl hcomment
  · cases h
    exact ⟨.cons (by decide) nofun (.refl fun _ => rfl) fun _ => rfl, trivial⟩
  · cases h
    exact ⟨.cons (by decide) nofun (.refl fun _ => rfl) fun _ => rfl, trivial⟩
  · cases h
    exact ⟨.cons₂ (by decide) (by decide) nofun nofun (.refl fun _ => rfl) fun _ => rfl, trivial⟩
  · cases h
    exact ⟨.cons₂ (by decide) (by decide) nofun nofun (.refl fun _ => rfl) fun _ => rfl, trivial⟩
  · cases h
    exact ⟨.cons (by decide) nofun (.refl fun _ => rfl) fun _ => rfl, trivial⟩
  · next more =>
    rcases htext : textUntil ')' [] more with e | ⟨name, us⟩ <;> rw [htext] at h
    · cases h
    · dsimp only at h
      rcases hgroup : conditionGroup l name with e | n <;> rw [hgroup] at h <;> cases h
      have hname := harmless_of_conditionGroup hgroup
      have hpass := textUntil_passes (by decide) hname htext
      have hnext := next_paren (startsComment_of_textUntil hname htext)
      have hrest : Passes (fun us => extension l (.char '(' :: us)) .outside more
          (.condition n, ·) .outside rest :=
        hpass.map fun us more heq => by
          rw [extension, heq]
          dsimp only
          rw [hgroup]
          rfl
      exact ⟨.cons (by decide) nofun (by rw [hnext]; exact hrest) fun _ => rfl, trivial⟩
  · split at h
    · cases h
    · next hgroup => exact absurd hgroup (flagGroup_ne_ok hflags)
    · next hgroup => exact absurd hgroup (flagGroup_ne_ok hflags)

theorem opening_of_head (h : ts.head? ≠ some (.char '?')) :
    opening l ts = .ok (.capture none, ts) := by
  rw [opening.eq_2]
  rintro rest rfl
  exact h rfl

/-- What a parenthesis opens does not depend on what `$` means, and where it sets no flags there is
none to set. -/
theorem opening_passes {o : Opening} (hflags : setsFlags ts = false)
    (h : opening l ts = .ok (o, rest)) :
    Passes (opening l) (Region.outside.next (.char '(') ts) ts (o, ·) .outside rest ∧
      o.Flagless := by
  by_cases hmark : ts.head? = some (.char '?')
  · obtain ⟨more, rfl⟩ := List.head?_eq_some_iff.mp hmark
    by_cases hcomment : more.head? = some (.char '#')
    · -- the only opening behind which another region begins
      obtain ⟨us, rfl⟩ := List.head?_eq_some_iff.mp hcomment
      rw [opening, extension.eq_4] at h
      rcases hafter : afterComment us with e | more <;> rw [hafter] at h <;> cases h
      refine ⟨.cons₂ (by decide) (by decide) nofun nofun
        ((afterComment_passes hafter).map fun us more heq => ?_) fun _ => rfl, trivial⟩
      rw [opening, extension.eq_4, heq]
      rfl
    · have hnext : Region.outside.next (.char '(') (.char '?' :: more) = .outside := by
        refine next_paren (Bool.eq_false_iff.mpr fun hstarts => ?_)
        obtain ⟨us, heq⟩ := eq_of_startsComment hstarts
        cases heq
        exact hcomment rfl
      obtain ⟨hpass, ho⟩ := extension_passes hflags hcomment h
      exact ⟨by rw [hnext]; exact .cons (by decide) nofun hpass fun _ => rfl, ho⟩
  · have hnext : Region.outside.next (.char '(') ts = .outside := by
      refine next_paren (Bool.eq_false_iff.mpr fun hstarts => ?_)
      obtain ⟨us, rfl⟩ := eq_of_startsComment hstarts
      exact hmark rfl
    rw [hnext]
    rw [opening_of_head hmark] at h
    cases h
    exact ⟨.stay fun ts' hts' => opening_of_head (hts'.head_ne hmark), trivial⟩

end DocSchema.Pattern
