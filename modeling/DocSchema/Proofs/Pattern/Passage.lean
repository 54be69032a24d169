import DocSchema.Proofs.Pattern.Region

/-!
Passages of a source: the escapes and classes of a pattern.

A reader that passes from one place of a source to another gives the same outcome at every source
that differs only in what an anchor `$` means, and what it passes over holds no such anchor:
`Passes`. So it is with the characters of a number, with escapes outside and inside a class, and,
by induction on its members, with a class as a whole (`charClass_passes`).
-/

namespace DocSchema.Pattern

/-- What lies between two places of a source holds no anchor `$`, and no class with the end of the
text for a member. -/
inductive Crosses : Region → List Token → Region → List Token → Prop
  | refl (r : Region) (ts : List Token) : Crosses r ts r ts
  | step {r r' : Region} {t : Token} {ts rest : List Token} (hdollar : r = .outside → t ≠ .char '$')
      (hend : r.inClass = true → t ≠ .escape 'Z') (h : Crosses (r.next t ts) ts r' rest) :
      Crosses r (t :: ts) r' rest

/-- A reader passes to another place, with an outcome that does not depend on what `$` means. -/
structure Passes {α : Type} (read : List Token → Except SourceError α) (r : Region)
    (ts : List Token) (outcome : List Token → α) (r' : Region) (rest : List Token) : Prop where
  crosses : Crosses r ts r' rest
  again : ∀ ts', Reads r ts ts' → ∃ rest', read ts' = .ok (outcome rest') ∧ Reads r' rest rest'

variable {r r' r'' : Region} {t : Token} {ts ts' rest rest' : List Token} {c : Char}
  {p : Char → Bool}

theorem Crosses.trans (h : Crosses r ts r' rest) (h' : Crosses r' rest r'' rest') :
    Crosses r ts r'' rest' := by
  induction h with
  | refl => exact h'
  | step hdollar hend _ ih => exact .step hdollar hend (ih h')

theorem Crosses.noFlags (h : Crosses r ts r' rest) (hts : NoFlags r ts) : NoFlags r' rest := by
  induction h with
  | refl => exact hts
  | step _ _ _ ih => exact ih hts.2

theorem Crosses.clean (h : Crosses r ts r' rest) (hrest : Clean r' rest) : Clean r ts := by
  induction h with
  | refl => exact hrest
  | step hdollar hend _ ih => exact ⟨hdollar, hend, ih hrest⟩

/-- Behind a token that stays, the sources differ as they did. -/
theorem reads_cons_of_ne (ht : t ≠ .char '$') : Reads r (t :: ts) ts' ↔
    ∃ rest, ts' = t :: rest ∧ Reads (r.next t ts) ts rest := by
  simp only [reads_cons, becomes_of_ne ht]
  constructor
  · rintro ⟨t', rest, rfl, rfl, h⟩
    exact ⟨rest, rfl, h⟩
  · rintro ⟨rest, rfl, h⟩
    exact ⟨t, rest, rfl, rfl, h⟩

/-- In a class every token stays. -/
theorem reads_cons_inClass (hr : r.inClass = true) : Reads r (t :: ts) ts' ↔
    ∃ rest, ts' = t :: rest ∧ Reads (r.next t ts) ts rest := by
  simp only [reads_cons, becomes_inClass hr]
  constructor
  · rintro ⟨t', rest, rfl, rfl, h⟩
    exact ⟨rest, rfl, h⟩
  · rintro ⟨rest, rfl, h⟩
    exact ⟨t, rest, rfl, rfl, h⟩

/-- A token of the second source stands in the first as well, unless it may stand for a `$`. -/
theorem Reads.uncons (h : Reads r ts (t :: rest)) (ht : t ≠ .escape 'Z') :
    ∃ more, ts = t :: more ∧ Reads (r.next t more) more rest := by
  cases h with
  | @cons _ u _ us _ hu hrest =>
    have hsame : t = u := by
      by_cases hdollar : u = .char '$'
      · subst hdollar
        cases r with
        | outside => exact absurd hu ht
        | comment => exact hu.resolve_right fun h => ht h.2
        | opened | first | inside => exact hu
      · exact (becomes_of_ne hdollar).mp hu
    exact ⟨us, by rw [hsame], by rwa [hsame]⟩

theorem Reads.char (h : Reads r ts (.char c :: rest)) : ∃ more, ts = .char c :: more := by
  obtain ⟨more, hts, -⟩ := h.uncons nofun
  exact ⟨more, hts⟩

/-- Where a character does not stand, it does not stand in the other source. -/
theorem Reads.head_ne (h : Reads r ts ts') (hc : ts.head? ≠ some (.char c)) :
    ts'.head? ≠ some (.char c) := by
  intro hhead
  obtain ⟨more', rfl⟩ := List.head?_eq_some_iff.mp hhead
  obtain ⟨more, rfl⟩ := h.char
  exact hc rfl

/-! ### Readers made of readers -/

section Readers

variable {α β : Type} {read : List Token → Except SourceError α} {outcome : List Token → α}
  {next whole : List Token → Except SourceError β} {result : List Token → β}

/-- A reader that reads nothing here, nor in the other source. -/
theorem Passes.stay (h : ∀ ts', Reads r ts ts' → read ts' = .ok (outcome ts')) :
    Passes read r ts outcome r ts :=
  ⟨.refl r ts, fun ts' hts' => ⟨ts', h ts' hts', hts'⟩⟩

/-- A reader that reads nothing anywhere. -/
theorem Passes.refl (h : ∀ ts, read ts = .ok (outcome ts)) : Passes read r ts outcome r ts :=
  .stay fun ts' _ => h ts'

/-- A reader whose result follows from what another one reads here and in the other source. -/
theorem Passes.mapReads (h : Passes read r ts outcome r' rest)
    (hwhole : ∀ us more, Reads r ts us → Reads r' rest more → read us = .ok (outcome more) →
      whole us = .ok (result more)) :
    Passes whole r ts result r' rest := by
  refine ⟨h.crosses, ?_⟩
  intro ts' hts'
  obtain ⟨rest', hread, hrest⟩ := h.again ts' hts'
  exact ⟨rest', hwhole ts' rest' hts' hrest hread, hrest⟩

/-- A reader whose result follows from what another one reads anywhere. -/
theorem Passes.map (h : Passes read r ts outcome r' rest)
    (hwhole : ∀ us more, read us = .ok (outcome more) → whole us = .ok (result more)) :
    Passes whole r ts result r' rest :=
  h.mapReads fun us more _ _ => hwhole us more

/-- A reader that goes on where another one stops. -/
theorem Passes.trans (h : Passes read r ts outcome r' rest)
    (hnext : Passes next r' rest result r'' rest')
    (hwhole : ∀ us more, read us = .ok (outcome more) → whole us = next more) :
    Passes whole r ts result r'' rest' := by
  refine ⟨h.crosses.trans hnext.crosses, ?_⟩
  intro ts' hts'
  obtain ⟨more, hread, hmore⟩ := h.again ts' hts'
  obtain ⟨rest'', hagain, hrest⟩ := hnext.again more hmore
  exact ⟨rest'', (hwhole ts' more hread).trans hagain, hrest⟩

/-- A reader that goes on behind a token. -/
theorem Passes.cons (ht : t ≠ .char '$') (hend : r.inClass = true → t ≠ .escape 'Z')
    (h : Passes next (r.next t ts) ts result r' rest) (hwhole : ∀ us, whole (t :: us) = next us) :
    Passes whole r (t :: ts) result r' rest := by
  refine ⟨.step (fun _ => ht) hend h.crosses, ?_⟩
  intro ts' hts'
  obtain ⟨more, rfl, hmore⟩ := (reads_cons_of_ne ht).mp hts'
  obtain ⟨rest', hread, hrest⟩ := h.again more hmore
  exact ⟨rest', (hwhole more).trans hread, hrest⟩

/-- A reader that goes on behind two tokens. -/
theorem Passes.cons₂ {t' : Token} (ht : t ≠ .char '$') (ht' : t' ≠ .char '$')
    (hend : r.inClass = true → t ≠ .escape 'Z')
    (hend' : (r.next t (t' :: ts)).inClass = true → t' ≠ .escape 'Z')
    (h : Passes next ((r.next t (t' :: ts)).next t' ts) ts result r' rest)
    (hwhole : ∀ us, whole (t :: t' :: us) = next us) :
    Passes whole r (t :: t' :: ts) result r' rest := by
  have hrest : Passes (fun us => whole (t :: us)) (r.next t (t' :: ts)) (t' :: ts) result r' rest :=
    .cons ht' hend' h hwhole
  exact .cons ht hend hrest fun _ => rfl

end Readers

/-! ### Characters of a number -/

/-- Characters that start or end something. -/
def special : List Char := ['$', '[', ']', '(', '?']

/-- Only characters are accepted that start and end nothing. -/
def Ordinary (p : Char → Bool) : Prop := ∀ c ∈ special, p c = false

instance : Decidable (Ordinary p) :=
  decidable_of_iff ((special.all fun c => !p c) = true) (by simp [Ordinary])

theorem ordinary_hexDigit : Ordinary fun c => (hexDigit? c).isSome := by decide

theorem ordinary_isOctal : Ordinary isOctal := by decide

theorem ordinary_isDecimalDigit : Ordinary isDecimalDigit := by decide

/-- The regions in which characters of a number may stand, outside classes or inside one. -/
def Region.Settled (r : Region) : Prop := r = .outside ∨ r = .inside

theorem Ordinary.ne (hp : Ordinary p) (hc : p c = true) {d : Char} (hd : d ∈ special) : c ≠ d := by
  rintro rfl
  exact Bool.false_ne_true ((hp c hd).symm.trans hc)

theorem next_of_not_special (hr : r.Settled) (hc : ∀ d ∈ special, c ≠ d) :
    r.next (.char c) ts = r := by
  have hopen := hc '[' (by decide)
  have hclose := hc ']' (by decide)
  have hparen := hc '(' (by decide)
  rcases hr with rfl | rfl <;> simp [Region.next, hopen, hclose, hparen]

theorem takeChars_of_head {n : Nat} (h : ∀ c rest, ts = .char c :: rest → p c = false) :
    takeChars p n ts = ([], ts) := by
  unfold takeChars
  split
  · next n c rest => rw [h c rest rfl, if_neg Bool.false_ne_true]
  · rfl

/-- Characters of a number are the same wherever `$` means something else. -/
theorem takeChars_passes (hp : Ordinary p) (hr : r.Settled) (n : Nat) (ts : List Token) :
    Passes (fun ts => .ok (takeChars p n ts)) r ts ((takeChars p n ts).1, ·) r
      (takeChars p n ts).2 := by
  fun_induction takeChars p n ts with
  | case1 n c rest hc cs rest' htake ih =>
    rw [htake] at ih
    have hnext : r.next (.char c) rest = r := next_of_not_special hr fun d hd => hp.ne hc hd
    have hdollar : Token.char c ≠ .char '$' := by
      intro h
      exact hp.ne hc (by decide) (Token.char.inj h)
    have hrest : Passes (fun ts => .ok (takeChars p (n + 1) (.char c :: ts))) r rest (c :: cs, ·) r
        rest' :=
      ih.map fun us more heq => by rw [takeChars, if_pos hc, Except.ok.inj heq]
    exact .cons hdollar nofun (by rw [hnext]; exact hrest) fun _ => rfl
  | case2 n c rest hc =>
    refine .stay fun ts' hts' => ?_
    rw [takeChars_of_head]
    rintro d more rfl
    obtain ⟨rest, heq⟩ := hts'.char
    cases heq
    exact Bool.eq_false_iff.mpr hc
  | case3 n ts hts =>
    refine .stay fun ts' hts' => ?_
    cases n with
    | zero => rfl
    | succ n =>
      rw [takeChars_of_head]
      rintro d more rfl
      obtain ⟨rest, heq⟩ := hts'.char
      exact absurd heq (hts n d rest rfl)

theorem hexCode_passes {width n : Nat} (hr : r.Settled) (h : hexCode width ts = .ok (n, rest)) :
    Passes (hexCode width) r ts (n, ·) r rest := by
  have hdigits := takeChars_passes ordinary_hexDigit hr width ts
  rw [hexCode] at h
  rcases htake : takeChars (fun c => (hexDigit? c).isSome) width ts with ⟨ds, more⟩
  simp only [htake] at h hdigits
  split at h
  · next hds =>
    cases h
    refine hdigits.map fun us more heq => ?_
    simp only [hexCode, Except.ok.inj heq, hds]
    simp
  · cases h

/-! ### Escapes inside a class -/

theorem codeEscape_passes {n : Nat} (hr : r.Settled) (h : codeEscape c ts = .ok (n, rest)) :
    Passes (codeEscape c) r ts (n, ·) r rest := by
  unfold codeEscape at h ⊢
  split at h
  · next hc => simpa only [if_pos hc] using hexCode_passes hr h
  · next hx =>
    simp only [if_neg hx]
    split at h
    · next hc => simpa only [if_pos hc] using hexCode_passes hr h
    · next hu =>
      simp only [if_neg hu]
      split at h
      · next hc => simpa only [if_pos hc] using hexCode_passes hr h
      · next hU =>
        simp only [if_neg hU]
        split at h
        · cases h
        · next hplain =>
          cases h
          exact .refl fun ts => by rw [if_neg hplain]

theorem classEscape_passes {i : ClassItem} (h : classEscape c ts = .ok (i, rest)) :
    Passes (classEscape c) .inside ts (i, ·) .inside rest := by
  have hinside : Region.Settled .inside := .inr rfl
  unfold classEscape at h ⊢
  rcases hcontrol : controlCode? c with _ | n
  · rcases hcategory : category? c with _ | ⟨negated, k⟩
    · simp only [hcontrol, hcategory] at h ⊢
      split at h
      · next hc =>
        have hdigits := takeChars_passes ordinary_isOctal hinside 2 ts
        simp only [if_pos hc]
        rcases htake : takeChars isOctal 2 ts with ⟨ds, more⟩
        simp only [htake] at h hdigits
        split at h
        · next hds =>
          cases h
          exact hdigits.map fun us more heq => by simp only [Except.ok.inj heq, if_pos hds]
        · cases h
      · next hc =>
        simp only [if_neg hc]
        rcases hcode : codeEscape c ts with e | ⟨n, more⟩
        · rw [hcode] at h
          cases h
        · rw [hcode] at h
          cases h
          exact (codeEscape_passes hinside hcode).map fun us more heq => by rw [heq]; rfl
    · simp only [hcontrol, hcategory] at h ⊢
      cases h
      exact .refl fun _ => rfl
  · simp only [hcontrol] at h ⊢
    cases h
    exact .refl fun _ => rfl

/-! ### Classes -/

/-- There is no escape for the end of the text in a class. -/
theorem ne_of_classEscape {i : ClassItem} (h : classEscape c ts = .ok (i, rest)) : c ≠ 'Z' := by
  rintro rfl
  cases h

/-- A member of a class; behind its first token the reader is inside the class. -/
theorem classMember_passes {i : ClassItem} (hr : r.inClass = true) (hnext : r.next t ts = .inside)
    (h : classMember (t :: ts) = .ok (i, rest)) :
    Passes classMember r (t :: ts) (i, ·) .inside rest := by
  cases t with
  | char c =>
    cases h
    refine ⟨.step ?_ nofun (by rw [hnext]; exact .refl _ _), fun ts' hts' => ?_⟩
    · rintro rfl
      cases hr
    · obtain ⟨rest', rfl, hrest⟩ := (reads_cons_inClass hr).mp hts'
      rw [hnext] at hrest
      exact ⟨rest', rfl, hrest⟩
  | escape c =>
    have hpass := classEscape_passes h
    refine ⟨.step nofun ?_ (by rw [hnext]; exact hpass.crosses), fun ts' hts' => ?_⟩
    · rintro - heq
      exact ne_of_classEscape h (Token.escape.inj heq)
    · obtain ⟨rest', rfl, hrest⟩ := (reads_cons_inClass hr).mp hts'
      rw [hnext] at hrest
      exact hpass.again rest' hrest
  | dangling => cases h

/-- What is read behind a member of a class: the end of the class, or further members. -/
def behindMember (done : List ClassItem) (first : ClassItem) (ts : List Token) :
    Read (Bool × List ClassItem) :=
  match ts with
  | .char '-' :: .char ']' :: rest => .ok ((true, .code 45 :: first :: done), rest)
  | .char '-' :: rest =>
    match classMember rest with
    | .error e => .error e
    | .ok (last, rest) =>
      match first, last with
      | .code a, .code b =>
        if b < a then .error .malformed else .ok ((false, .range a b :: done), rest)
      | _, _ => .error .malformed
  | rest => .ok ((false, first :: done), rest)

/-- The next step in a class. -/
def classStep (done : List ClassItem) (ts : List Token) : Read (Bool × List ClassItem) :=
  if ts.head? = some (.char ']') ∧ done ≠ [] then .ok ((true, done), ts.tail)
  else
    match classMember ts with
    | .error e => .error e
    | .ok (first, rest) => behindMember done first rest

/-- A class is read step by step. -/
theorem classItems_succ (fuel : Nat) (done : List ClassItem) (ts : List Token) :
    classItems (fuel + 1) done ts =
      match classStep done ts with
      | .error e => .error e
      | .ok ((true, is), rest) => .ok (is, rest)
      | .ok ((false, is), rest) => classItems fuel is rest := by
  by_cases hend : ts.head? = some (.char ']') ∧ done ≠ []
  · obtain ⟨hhead, hdone⟩ := hend
    obtain ⟨rest, rfl⟩ := List.head?_eq_some_iff.mp hhead
    obtain ⟨i, is, rfl⟩ := List.exists_cons_of_ne_nil hdone
    rfl
  · rw [classStep, if_neg hend, classItems.eq_3]
    · rcases classMember ts with e | ⟨first, rest⟩
      · rfl
      · dsimp only
        split
        · rfl
        · next rest hmore =>
          rw [behindMember.eq_2 _ _ _ hmore]
          rcases classMember rest with e | ⟨last, rest⟩
          · rfl
          · cases first <;> cases last <;> try rfl
            dsimp only
            split <;> rfl
        · next rest hclose hmore => rw [behindMember.eq_3 _ _ _ hclose hmore]
    · rintro rest i is rfl rfl
      exact hend ⟨rfl, List.cons_ne_nil i is⟩

/-- The region behind a step in a class. -/
def regionBehind (ended : Bool) : Region := if ended then .outside else .inside

theorem behindMember_passes {done is : List ClassItem} {first : ClassItem} {ended : Bool}
    (h : behindMember done first ts = .ok ((ended, is), rest)) :
    Passes (behindMember done first) .inside ts ((ended, is), ·) (regionBehind ended) rest ∧
      is ≠ [] := by
  unfold behindMember at h
  split at h
  · next more =>
    cases h
    exact ⟨.cons₂ (by decide) (by decide) (fun _ => Token.char_ne_escape _ _)
      (fun _ => Token.char_ne_escape _ _) (.refl fun _ => rfl) fun _ => rfl, List.cons_ne_nil _ _⟩
  · next more hmore =>
    split at h
    · cases h
    · next last behind hlast =>
      obtain ⟨a, b, hab, hfirst, hmember, heq⟩ : ∃ a b, ¬b < a ∧ first = .code a ∧
          last = .code b ∧ ((ended, is), rest) = ((false, .range a b :: done), behind) := by
        split at h
        · next a b =>
          split at h
          · cases h
          · next hab => exact ⟨a, b, hab, rfl, rfl, (Except.ok.inj h).symm⟩
        · cases h
      cases heq
      subst hfirst hmember
      -- the last of a range is a member as well, and no bracket that ends the class
      obtain ⟨t, us, rfl⟩ : ∃ t us, more = t :: us := by
        cases more with
        | nil => cases hlast
        | cons t us => exact ⟨t, us, rfl⟩
      have hpass : Passes classMember .inside (t :: us) (.code b, ·) .inside rest := by
        refine classMember_passes rfl ?_ hlast
        rw [Region.next, if_neg]
        rintro rfl
        exact hmore us rfl
      refine ⟨⟨.step (fun _ => by decide) (fun _ => Token.char_ne_escape _ _) hpass.crosses,
        fun ts' hts' => ?_⟩, List.cons_ne_nil _ _⟩
      obtain ⟨more', rfl, hreads⟩ := (reads_cons_inClass rfl).mp hts'
      obtain ⟨rest', hagain, hrest⟩ := hpass.again more' hreads
      refine ⟨rest', ?_, hrest⟩
      rw [behindMember.eq_2, hagain]
      · simp only [if_neg hab]
      · rintro us' rfl
        obtain ⟨us'', heq⟩ := hreads.char
        exact hmore us'' heq
  · next hclose hmore =>
    cases h
    refine ⟨.stay fun ts' hts' => ?_, List.cons_ne_nil _ _⟩
    rw [behindMember.eq_3]
    · rintro us rfl
      obtain ⟨us', heq⟩ := hts'.char
      exact hmore us' heq
    · rintro us rfl
      obtain ⟨us', heq⟩ := hts'.char
      exact hmore us' heq

/-- The reader of members knows where in a class it stands: in the first place exactly if it has
read none, and past the caret that negates the class. -/
structure Region.Reading (r : Region) (done : List ClassItem) (ts : List Token) : Prop where
  inClass : r.inClass = true
  inside : r = .inside ↔ done ≠ []
  caret : r = .opened → ts.head? ≠ some (.char '^')

theorem classStep_passes {done is : List ClassItem} {ended : Bool} (hr : r.Reading done ts)
    (h : classStep done ts = .ok ((ended, is), rest)) :
    Passes (classStep done) r ts ((ended, is), ·) (regionBehind ended) rest ∧ is ≠ [] := by
  unfold classStep at h
  split at h
  · next hend =>
    obtain ⟨hhead, hdone⟩ := hend
    obtain ⟨more, rfl⟩ := List.head?_eq_some_iff.mp hhead
    cases h
    obtain rfl := hr.inside.mpr hdone
    refine ⟨⟨.step nofun nofun (.refl _ _), fun ts' hts' => ?_⟩, hdone⟩
    obtain ⟨rest', rfl, hrest⟩ := (reads_cons_inClass rfl).mp hts'
    exact ⟨rest', by rw [classStep, if_pos ⟨rfl, hdone⟩]; rfl, hrest⟩
  · next hend =>
    split at h
    · cases h
    · next first more hfirst =>
      obtain ⟨t, us, rfl⟩ : ∃ t us, ts = t :: us := by
        cases ts with
        | nil => cases hfirst
        | cons t us => exact ⟨t, us, rfl⟩
      have hnext : r.next t us = .inside := by
        cases r with
        | opened => exact if_neg fun ht => hr.caret rfl (congrArg some ht)
        | first => rfl
        | inside => exact if_neg fun ht => hend ⟨congrArg some ht, hr.inside.mp rfl⟩
        | outside | comment => cases hr.inClass
      have hmember := classMember_passes hr.inClass hnext hfirst
      obtain ⟨hbehind, his⟩ := behindMember_passes h
      refine ⟨⟨hmember.crosses.trans hbehind.crosses, fun ts' hts' => ?_⟩, his⟩
      obtain ⟨more', hagain, hmore⟩ := hmember.again ts' hts'
      obtain ⟨rest', hagain', hrest⟩ := hbehind.again more' hmore
      refine ⟨rest', ?_, hrest⟩
      obtain ⟨us', rfl, -⟩ := (reads_cons_inClass hr.inClass).mp hts'
      have hend' : ¬((t :: us').head? = some (.char ']') ∧ done ≠ []) := hend
      rw [classStep, if_neg hend', hagain]
      exact hagain'

theorem classItems_passes {fuel : Nat} {done is : List ClassItem} (hr : r.Reading done ts)
    (h : classItems fuel done ts = .ok (is, rest)) :
    Passes (classItems fuel done) r ts (is, ·) .outside rest := by
  induction fuel generalizing r done ts with
  | zero => cases h
  | succ fuel ih =>
    rw [classItems_succ] at h
    split at h
    · cases h
    · next hstep =>
      cases h
      obtain ⟨hpass, -⟩ := classStep_passes hr hstep
      exact hpass.map fun us more heq => by rw [classItems_succ, heq]
    · next more hstep =>
      obtain ⟨hpass, hmore⟩ := classStep_passes hr hstep
      have hreading : Region.Reading .inside _ more := ⟨rfl, iff_of_true rfl hmore, nofun⟩
      have hitems := ih hreading h
      exact hpass.trans hitems fun us more heq => by rw [classItems_succ, heq]

/-- What is read behind the bracket of a class, and behind the caret that negates it. -/
def classBody (negated : Bool) (ts : List Token) : Read Single :=
  match classItems (ts.length + 1) [] ts with
  | .error e => .error e
  | .ok (items, rest) =>
    match items.reverse.eraseDups with
    | [.code n] => .ok (.literal negated n, rest)
    | items => .ok (.oneOf negated items, rest)

theorem charClass_caret (ts : List Token) : charClass (.char '^' :: ts) = classBody true ts := rfl

theorem charClass_of_head (h : ts.head? ≠ some (.char '^')) : charClass ts = classBody false ts := by
  unfold charClass
  split
  next negated us hus =>
  split at hus
  · next more => exact absurd rfl h
  · cases hus
    rfl

theorem classBody_passes {negated : Bool} {s : Single} (hr : r.Reading [] ts)
    (h : classBody negated ts = .ok (s, rest)) :
    Passes (classBody negated) r ts (s, ·) .outside rest := by
  unfold classBody at h
  split at h
  · cases h
  · next is more hitems =>
    have hpass := classItems_passes hr hitems
    obtain ⟨hs, rfl⟩ : (match is.reverse.eraseDups with
        | [.code n] => Single.literal negated n
        | items => .oneOf negated items) = s ∧ more = rest := by
      split at h <;> cases h <;> exact ⟨rfl, rfl⟩
    -- the fuel is the length of the source, which is that of the other
    refine hpass.mapReads fun us more hus _ heq => ?_
    rw [hus.length_eq] at heq
    rw [classBody, heq, ← hs]
    dsimp only
    split <;> rfl

/-- A class means the same wherever `$` means something else, and the end of the text is no member
of it. -/
theorem charClass_passes {s : Single} (h : charClass ts = .ok (s, rest)) :
    Passes charClass .opened ts (s, ·) .outside rest := by
  by_cases hcaret : ts.head? = some (.char '^')
  · obtain ⟨more, rfl⟩ := List.head?_eq_some_iff.mp hcaret
    have hpass := classBody_passes (r := .first) ⟨rfl, by simp, nofun⟩ h
    exact .cons nofun nofun hpass charClass_caret
  · have hr : Region.Reading .opened [] ts := ⟨rfl, by simp, fun _ => hcaret⟩
    rw [charClass_of_head hcaret] at h
    have hpass := classBody_passes hr h
    refine hpass.mapReads fun us more hus _ heq => ?_
    rw [charClass_of_head (hus.head_ne hcaret), heq]

end DocSchema.Pattern
