import DocSchema.Proofs.Pattern.Opening

/-!
The descent into a pattern, with `$` read in two ways.

Where no flags are set and the notation is not verbose, reading a source in which each anchor `$` is
read as the end of the text takes the same steps as reading the source itself, and yields the
sharpened pattern. In turn a source is clean if the pattern read off it has no `$`. Both are said of
alternatives, items and parentheses at once (`Descends`), one step at a time: what an escape, a
quantifier, a class, a `$`, a plain character or a group adds is a lemma of its own, and `descends`
puts them together by induction on the fuel.
-/

namespace DocSchema.Pattern

/-- A reader of patterns yields the sharpened pattern at every source with each anchor `$` read as
the end of the text; and a source is clean if the pattern that is read off it has no `$`. -/
structure Sharpens (again : List Token → Part) (l : Ledger) (done : List Item) (r : Region)
    (ts : List Token) (p : Pattern) (l' : Ledger) (rest : List Token) : Prop where
  noFlags : NoFlags .outside rest
  flags : l'.flags = l.flags
  items : p.sharpened = p → ∀ i ∈ done, i.sharpened = i
  clean : p.sharpened = p → Clean .outside rest → Clean r ts
  again : ∀ ts', Reads r ts ts' →
    ∃ rest', again ts' = .ok (p.sharpened, l', rest') ∧ Reads .outside rest rest'

/-- What is known of the descent at some fuel. -/
structure Descends (fuel : Nat) : Prop where
  alternatives : ∀ {ctx l ts p l' rest}, NoFlags .outside ts → (ctx.flags l).verbose = false →
    alternatives fuel ctx l ts = .ok (p, l', rest) →
    Sharpens (alternatives fuel ctx l) l [] .outside ts p l' rest
  items : ∀ {ctx done l ts p l' rest}, NoFlags .outside ts → (ctx.flags l).verbose = false →
    items fuel ctx done l ts = .ok (p, l', rest) →
    Sharpens (items fuel ctx (done.map Item.sharpened) l) l done .outside ts p l' rest
  parenthesis : ∀ {ctx done l ts p l' rest}, setsFlags ts = false →
    NoFlags (Region.outside.next (.char '(') ts) ts → (ctx.flags l).verbose = false →
    parenthesis fuel ctx done l ts = .ok (p, l', rest) →
    Sharpens (parenthesis fuel ctx (done.map Item.sharpened) l) l done
      (Region.outside.next (.char '(') ts) ts p l' rest

variable {fuel : Nat} {ctx : Context} {done done₁ : List Item} {l l₁ l' : Ledger} {f : Flags}
  {r : Region} {ts ts' rest more : List Token} {p q : Pattern} {i : Item} {c : Char}
  {again again₁ : List Token → Part}

/-- The flags in force depend on the ledger by its flags alone. -/
theorem flags_congr (h : l₁.flags = l.flags) : ctx.flags l₁ = ctx.flags l := by
  rw [Context.flags, Context.flags, h]

/-! ### Steps -/

/-- A reader that passes to the items after it. -/
theorem Sharpens.step {α : Type} {read : List Token → Except SourceError α}
    {outcome : List Token → α} (hpass : Passes read r ts outcome .outside more)
    (h : Sharpens again₁ l₁ done₁ .outside more p l' rest) (hflags : l₁.flags = l.flags)
    (hdone : (∀ i ∈ done₁, i.sharpened = i) → ∀ i ∈ done, i.sharpened = i)
    (hagain : ∀ us more, read us = .ok (outcome more) → again us = again₁ more) :
    Sharpens again l done r ts p l' rest where
  noFlags := h.noFlags
  flags := h.flags.trans hflags
  items hp := hdone (h.items hp)
  clean hp hrest := hpass.crosses.clean (h.clean hp hrest)
  again ts' hts' := by
    obtain ⟨us, hread, hus⟩ := hpass.again ts' hts'
    obtain ⟨rest', heq, hrest⟩ := h.again us hus
    exact ⟨rest', (hagain ts' us hread).trans heq, hrest⟩

/-- A token that stays. -/
theorem Sharpens.cons {t : Token} (ht : t ≠ .char '$')
    (h : Sharpens again₁ l done (Region.outside.next t ts) ts p l' rest)
    (hagain : ∀ us, again (t :: us) = again₁ us) :
    Sharpens again l done .outside (t :: ts) p l' rest where
  noFlags := h.noFlags
  flags := h.flags
  items := h.items
  clean hp hrest := ⟨fun _ => ht, nofun, h.clean hp hrest⟩
  again ts' hts' := by
    obtain ⟨us, rfl, hus⟩ := (reads_cons_of_ne ht).mp hts'
    obtain ⟨rest', heq, hrest⟩ := h.again us hus
    exact ⟨rest', (hagain us).trans heq, hrest⟩

section Behind

variable {t : Token} (h : Sharpens again l done r ts p l' (t :: rest)) (ht : t ≠ .char '$')

include h ht

/-- The reader stops at the same token of the other source. -/
theorem Sharpens.again_cons (hts' : Reads r ts ts') : ∃ more,
    again ts' = .ok (p.sharpened, l', t :: more) ∧
      Reads (Region.outside.next t rest) rest more := by
  obtain ⟨us, heq, hus⟩ := h.again ts' hts'
  obtain ⟨more, rfl, hmore⟩ := (reads_cons_of_ne ht).mp hus
  exact ⟨more, heq, hmore⟩

theorem Sharpens.clean_cons (hp : p.sharpened = p)
    (hrest : Clean (Region.outside.next t rest) rest) : Clean r ts :=
  h.clean hp ⟨fun _ => ht, nofun, hrest⟩

end Behind

theorem forall_of_cons (h : ∀ j ∈ i :: done, j.sharpened = j) : ∀ j ∈ done, j.sharpened = j :=
  (List.forall_mem_cons.mp h).2

/-! ### Alternatives -/

theorem alternatives_of_head (h : items fuel ctx [] l ts = .ok (p, l₁, rest))
    (hbar : rest.head? ≠ some (.char '|')) :
    alternatives (fuel + 1) ctx l ts = .ok (p, l₁, rest) := by
  rw [alternatives, h]
  split
  · next heq => cases heq
  · next heq =>
    cases heq
    exact absurd rfl hbar
  · next heq =>
    cases heq
    rfl

theorem Descends.alternatives_succ (ih : Descends fuel) (hts : NoFlags .outside ts)
    (hv : (ctx.flags l).verbose = false)
    (h : Pattern.alternatives (fuel + 1) ctx l ts = .ok (p, l', rest)) :
    Sharpens (Pattern.alternatives (fuel + 1) ctx l) l [] .outside ts p l' rest := by
  rcases hitems : Pattern.items fuel ctx [] l ts with e | ⟨p₁, l₁, rest₁⟩
  · rw [Pattern.alternatives, hitems] at h
    cases h
  · have hfirst := ih.items hts hv hitems
    by_cases hbar : rest₁.head? = some (.char '|')
    · obtain ⟨more, rfl⟩ := List.head?_eq_some_iff.mp hbar
      rw [alternatives_bar hitems] at h
      rcases halternatives : Pattern.alternatives fuel { ctx with first := false } l₁ more with
        e | ⟨q, l₂, rest₂⟩ <;> rw [halternatives] at h <;> cases h
      have hv' : (Context.flags { ctx with first := false } l₁).verbose = false := by
        rw [← hv, Context.flags, Context.flags, hfirst.flags]
      have hothers := ih.alternatives hfirst.noFlags.2 hv' halternatives
      have hne : Token.char '|' ≠ .char '$' := by decide
      refine ⟨hothers.noFlags, hothers.flags.trans hfirst.flags, fun _ => List.forall_mem_nil _,
        ?_, ?_⟩
      · intro hp hrest
        obtain ⟨hp₁, hq⟩ := Pattern.alt.inj hp
        exact hfirst.clean_cons hne hp₁ (hothers.clean hq hrest)
      · intro ts' hts'
        obtain ⟨more', heq, hmore⟩ := hfirst.again_cons hne hts'
        obtain ⟨rest', heq', hrest⟩ := hothers.again more' hmore
        refine ⟨rest', ?_, hrest⟩
        rw [alternatives_bar heq, heq']
        rfl
    · rw [alternatives_of_head hitems hbar] at h
      cases h
      refine ⟨hfirst.noFlags, hfirst.flags, fun _ => List.forall_mem_nil _, hfirst.clean,
        ?_⟩
      intro ts' hts'
      obtain ⟨rest', heq, hrest⟩ := hfirst.again ts' hts'
      exact ⟨rest', alternatives_of_head heq (hrest.head_ne hbar), hrest⟩

/-! ### Items -/

/-- Where a sequence of items ends. -/
def AtEnd (ts : List Token) : Prop :=
  ts = [] ∨ ts.head? = some (.char '|') ∨ ts.head? = some (.char ')')

instance (ts : List Token) : Decidable (AtEnd ts) := inferInstanceAs (Decidable (_ ∨ _))

/-- The item that a character makes which is no quantifier and opens nothing. -/
def plainItem (f : Flags) : Char → Item
  | '.' => .plain (.one f.mode .any)
  | '^' => .anchor (.anchor f.mode .lineStart)
  | '$' => .anchor (.anchor f.mode .lineEnd)
  | c => .plain (.one f.mode (.literal false c.toNat))

section Items

variable (hv : (ctx.flags l).verbose = false)

include hv

theorem items_of_atEnd (hend : AtEnd ts) :
    items (fuel + 1) ctx done l ts = .ok (sequence done, l, ts) := by
  rcases hend with rfl | hbar | hclose
  · rw [items, hv]
    rfl
  · obtain ⟨more, rfl⟩ := List.head?_eq_some_iff.mp hbar
    rw [items, hv]
    rfl
  · obtain ⟨more, rfl⟩ := List.head?_eq_some_iff.mp hclose
    rw [items, hv]
    rfl

theorem items_escape (ts : List Token) : items (fuel + 1) ctx done l (.escape c :: ts) =
    match outerEscape l (ctx.flags l) c ts with
    | .error e => .error e
    | .ok (i, rest) => items fuel ctx (i :: done) l rest := by
  rw [items, hv]
  rfl

theorem items_parenthesis (ts : List Token) : items (fuel + 1) ctx done l (.char '(' :: ts) =
    parenthesis fuel ctx done l ts := by
  rw [items, hv]
  rfl

theorem items_char (hend : ¬AtEnd (.char c :: ts)) (hparen : c ≠ '(') :
    items (fuel + 1) ctx done l (.char c :: ts) =
      match quantifier c ts with
      | .error e => .error e
      | .ok (some (counts, rest)) =>
        match repeatLast (greed rest).1 counts done with
        | .error e => .error e
        | .ok done => items fuel ctx done { l with repeats := true } (greed rest).2
      | .ok none =>
        if c = '[' then
          match charClass ts with
          | .error e => .error e
          | .ok (s, rest) => items fuel ctx (.plain (.one (ctx.flags l).mode s) :: done) l rest
        else items fuel ctx (plainItem (ctx.flags l) c :: done) l ts := by
  have hbar : c ≠ '|' := fun hc => hend (.inr (.inl (congrArg (some ∘ Token.char) hc)))
  have hclose : c ≠ ')' := fun hc => hend (.inr (.inr (congrArg (some ∘ Token.char) hc)))
  by_cases hclass : c = '['
  · subst hclass
    rw [items, hv]
    rfl
  · simp only [if_neg hclass]
    by_cases hdot : c = '.'
    · subst hdot
      rw [items, hv]
      rfl
    · by_cases hcaret : c = '^'
      · subst hcaret
        rw [items, hv]
        rfl
      · by_cases hdollar : c = '$'
        · subst hdollar
          rw [items, hv]
          rfl
        · rw [items.eq_12 _ _ _ _ _ _ hbar hclose hparen hclass hdot hcaret hdollar, hv,
            plainItem.eq_4 _ _ hdot hcaret hdollar]
          rfl

end Items

/-- A character that is no `$` makes an item without one. -/
theorem sharpened_plainItem (h : c ≠ '$') : (plainItem f c).sharpened = plainItem f c := by
  unfold plainItem
  split
  · rfl
  · rfl
  · exact absurd rfl h
  · rfl

theorem repeatLast_cases {g : Greed} {counts : Nat × Option Nat}
    (h : repeatLast g counts done = .ok done₁) :
    repeatLast g counts (done.map Item.sharpened) = .ok (done₁.map Item.sharpened) ∧
      ((∀ i ∈ done₁, i.sharpened = i) → ∀ i ∈ done, i.sharpened = i) := by
  unfold repeatLast at h
  split at h
  · next p more =>
    cases h
    refine ⟨rfl, fun hdone => ?_⟩
    obtain ⟨hp, hmore⟩ := List.forall_mem_cons.mp hdone
    simp only [Item.sharpened, Pattern.sharpened, Item.repetition.injEq, Pattern.times.injEq,
      true_and] at hp
    refine List.forall_mem_cons.mpr ⟨?_, hmore⟩
    rw [Item.sharpened, hp]
  · cases h

/-- Where a sequence ends, it ends in the other source. -/
theorem AtEnd.of_reads {us : List Token} (h : AtEnd ts) (hus : Reads .outside ts us) : AtEnd us := by
  rcases h with rfl | hbar | hclose
  · cases hus
    exact .inl rfl
  · obtain ⟨more, rfl⟩ := List.head?_eq_some_iff.mp hbar
    obtain ⟨us, rfl, -⟩ := (reads_cons_of_ne (by decide)).mp hus
    exact .inr (.inl rfl)
  · obtain ⟨more, rfl⟩ := List.head?_eq_some_iff.mp hclose
    obtain ⟨us, rfl, -⟩ := (reads_cons_of_ne (by decide)).mp hus
    exact .inr (.inr rfl)

theorem not_atEnd_char (h : ¬AtEnd (.char c :: ts)) (us : List Token) : ¬AtEnd (.char c :: us) := by
  rintro (hnil | hbar | hclose)
  · cases hnil
  · exact h (.inr (.inl hbar))
  · exact h (.inr (.inr hclose))

/-- A character that starts nothing leaves the reader outside classes. -/
theorem next_plain (hclass : c ≠ '[') (hparen : c ≠ '(') :
    Region.outside.next (.char c) ts = .outside := by
  simp [Region.next, hclass, hparen]

section Step

variable (ih : Descends fuel) (hv : (ctx.flags l).verbose = false)

include ih hv

theorem Descends.escape_step (hts : NoFlags .outside ts)
    (h : Pattern.items (fuel + 1) ctx done l (.escape c :: ts) = .ok (p, l', rest)) :
    Sharpens (Pattern.items (fuel + 1) ctx (done.map Item.sharpened) l) l done .outside
      (.escape c :: ts) p l' rest := by
  rw [items_escape hv] at h
  rcases houter : outerEscape l (ctx.flags l) c ts with e | ⟨i, us⟩ <;> rw [houter] at h
  · cases h
  · obtain ⟨hpass, hi⟩ := outerEscape_passes houter
    have hitems := ih.items (hpass.crosses.noFlags hts) hv h
    rw [List.map_cons, hi] at hitems
    exact .cons nofun (hitems.step hpass rfl forall_of_cons fun us more heq => by rw [heq])
      (items_escape hv)

section Char

variable (hts : NoFlags (Region.outside.next (.char c) ts) ts) (hend : ¬AtEnd (.char c :: ts))
  (hparen : c ≠ '(')

include hts hend hparen

theorem Descends.quantifier_step {counts : Nat × Option Nat} {us : List Token}
    (hquantifier : quantifier c ts = .ok (some (counts, us)))
    (h : Pattern.items (fuel + 1) ctx done l (.char c :: ts) = .ok (p, l', rest)) :
    Sharpens (Pattern.items (fuel + 1) ctx (done.map Item.sharpened) l) l done .outside
      (.char c :: ts) p l' rest := by
  have hclass : c ≠ '[' := by
    rintro rfl
    cases hquantifier
  have hdollar : Token.char c ≠ .char '$' := by
    rintro ⟨⟩
    cases hquantifier
  have hnext : Region.outside.next (.char c) ts = .outside := next_plain hclass hparen
  rw [hnext] at hts
  have hcounts := quantifier_passes hquantifier
  have hgreed := greed_passes us
  rw [items_char hv hend hparen, hquantifier] at h
  dsimp only at h
  rcases hrepeat : repeatLast (greed us).1 counts done with e | done₁ <;> rw [hrepeat] at h
  · cases h
  · obtain ⟨hrepeat', hdone⟩ := repeatLast_cases hrepeat
    have hus := hgreed.crosses.noFlags (hcounts.crosses.noFlags hts)
    have hv' : (ctx.flags { l with repeats := true }).verbose = false := hv
    have hitems := ih.items hus hv' h
    -- counts, greed and further items are passed one behind the other, from the last one back
    have hbehind : Sharpens (fun us => match repeatLast (greed us).1 counts
          (done.map Item.sharpened) with
        | .error e => .error e
        | .ok done => Pattern.items fuel ctx done { l with repeats := true } (greed us).2)
        l done .outside us p l' rest := by
      refine hitems.step hgreed rfl hdone fun us more heq => ?_
      rw [Except.ok.inj heq]
      dsimp only
      rw [hrepeat']
    refine .cons hdollar ?_ fun us => items_char hv (not_atEnd_char hend us) hparen
    rw [hnext]
    exact hbehind.step hcounts rfl id fun us more heq => by rw [heq]

theorem Descends.class_step (hclass : c = '[')
    (h : Pattern.items (fuel + 1) ctx done l (.char c :: ts) = .ok (p, l', rest)) :
    Sharpens (Pattern.items (fuel + 1) ctx (done.map Item.sharpened) l) l done .outside
      (.char c :: ts) p l' rest := by
  subst hclass
  rw [items_char hv hend hparen] at h
  rcases hclass : charClass ts with e | ⟨s, us⟩
  · rw [hclass] at h
    cases h
  · rw [hclass] at h
    have hpass := charClass_passes hclass
    have hitems := ih.items (hpass.crosses.noFlags hts) hv h
    refine .cons (by decide) ?_ fun us => items_char hv (not_atEnd_char hend us) hparen
    exact hitems.step hpass rfl forall_of_cons fun us more heq => by rw [heq]; rfl

theorem Descends.dollar_step (hdollar : c = '$')
    (h : Pattern.items (fuel + 1) ctx done l (.char c :: ts) = .ok (p, l', rest)) :
    Sharpens (Pattern.items (fuel + 1) ctx (done.map Item.sharpened) l) l done .outside
      (.char c :: ts) p l' rest := by
  subst hdollar
  rw [items_char hv hend hparen] at h
  have hitems := ih.items hts hv h
  -- with a `$` among its items the pattern is never its own sharpened pattern
  have hanchor (hp : p.sharpened = p) : False := by
    have hi := hitems.items hp _ List.mem_cons_self
    cases hi
  refine ⟨hitems.noFlags, hitems.flags, fun hp => (hanchor hp).elim, fun hp => (hanchor hp).elim,
    ?_⟩
  intro ts' hts'
  obtain ⟨t', us, rfl, rfl, hus⟩ := reads_cons.mp hts'
  obtain ⟨rest', heq, hrest⟩ := hitems.again us hus
  refine ⟨rest', ?_, hrest⟩
  rw [if_pos rfl, items_escape hv]
  exact heq

theorem Descends.plain_step (hclass : c ≠ '[') (hdollar : c ≠ '$')
    (hquantifier : quantifier c ts = .ok none)
    (h : Pattern.items (fuel + 1) ctx done l (.char c :: ts) = .ok (p, l', rest)) :
    Sharpens (Pattern.items (fuel + 1) ctx (done.map Item.sharpened) l) l done .outside
      (.char c :: ts) p l' rest := by
  have hne : Token.char c ≠ .char '$' := fun heq => hdollar (Token.char.inj heq)
  have hnext : Region.outside.next (.char c) ts = .outside := next_plain hclass hparen
  rw [hnext] at hts
  rw [items_char hv hend hparen, hquantifier] at h
  dsimp only at h
  rw [if_neg hclass] at h
  have hitems := ih.items hts hv h
  rw [List.map_cons, sharpened_plainItem hdollar] at hitems
  refine ⟨hitems.noFlags, hitems.flags, fun hp => forall_of_cons (hitems.items hp),
    fun hp hrest => ⟨fun _ => hne, nofun, by rw [hnext]; exact hitems.clean hp hrest⟩,
    ?_⟩
  intro ts' hts'
  obtain ⟨us, rfl, hus⟩ := (reads_cons_of_ne hne).mp hts'
  rw [hnext] at hus
  obtain ⟨rest', heq, hrest⟩ := hitems.again us hus
  refine ⟨rest', ?_, hrest⟩
  rw [items_char hv (not_atEnd_char hend us) hparen, quantifier_none hquantifier hus]
  dsimp only
  rw [if_neg hclass, heq]

end Char

theorem Descends.char_step (hts : NoFlags (Region.outside.next (.char c) ts) ts)
    (hend : ¬AtEnd (.char c :: ts)) (hparen : c ≠ '(')
    (h : Pattern.items (fuel + 1) ctx done l (.char c :: ts) = .ok (p, l', rest)) :
    Sharpens (Pattern.items (fuel + 1) ctx (done.map Item.sharpened) l) l done .outside
      (.char c :: ts) p l' rest := by
  by_cases hclass : c = '['
  · exact ih.class_step hv hts hend hparen hclass h
  · by_cases hdollar : c = '$'
    · exact ih.dollar_step hv hts hend hparen hdollar h
    · rcases hquantifier : quantifier c ts with e | _ | ⟨counts, us⟩
      · rw [items_char hv hend hparen, hquantifier] at h
        cases h
      · exact ih.plain_step hv hts hend hparen hclass hdollar hquantifier h
      · exact ih.quantifier_step hv hts hend hparen hquantifier h

end Step

theorem Descends.items_succ (ih : Descends fuel) (hts : NoFlags .outside ts)
    (hv : (ctx.flags l).verbose = false)
    (h : Pattern.items (fuel + 1) ctx done l ts = .ok (p, l', rest)) :
    Sharpens (Pattern.items (fuel + 1) ctx (done.map Item.sharpened) l) l done .outside ts p l'
      rest := by
  by_cases hend : AtEnd ts
  · rw [items_of_atEnd hv hend] at h
    cases h
    refine ⟨hts, rfl, sharpened_of_sequence, fun _ hrest => hrest, fun ts' hts' => ⟨ts', ?_, hts'⟩⟩
    rw [items_of_atEnd hv (hend.of_reads hts'), sequence_sharpened]
  · cases ts with
    | nil => exact absurd (.inl rfl) hend
    | cons t more =>
      cases t with
      | dangling =>
        rw [items_dangling hv] at h
        cases h
      | escape c => exact ih.escape_step hv hts.2 h
      | char c =>
        by_cases hparen : c = '('
        · subst hparen
          rw [items_parenthesis hv] at h
          exact .cons (by decide) (ih.parenthesis (hts.1 rfl rfl) hts.2 hv h) (items_parenthesis hv)
        · exact ih.char_step hv hts.2 hend hparen h

/-! ### Groups -/

/-- Reads a body up to its closing parenthesis, and what follows it. -/
def enclosed (body : List Token → Part) (follow : Pattern → Ledger → List Token → Part)
    (ts : List Token) : Part := do
  let (p, l, rest) ← body ts
  let rest ← expectClose rest
  follow p l rest

section Enclosed

variable {body : List Token → Part} {follow : Pattern → Ledger → List Token → Part}

theorem enclosed_close (h : body ts = .ok (p, l, .char ')' :: more)) :
    enclosed body follow ts = follow p l more := by
  rw [enclosed, h]
  rfl

theorem exists_of_enclosed {x : Pattern × Ledger × List Token}
    (h : enclosed body follow ts = .ok x) :
    ∃ p l more, body ts = .ok (p, l, .char ')' :: more) ∧ follow p l more = .ok x := by
  rcases hbody : body ts with e | ⟨p, l, more⟩
  · rw [enclosed, hbody] at h
    cases h
  · by_cases hclose : more.head? = some (.char ')')
    · obtain ⟨more, rfl⟩ := List.head?_eq_some_iff.mp hclose
      exact ⟨p, l, more, rfl, by rwa [enclosed_close hbody] at h⟩
    · have hexpect : expectClose more = .error .malformed := by
        rw [expectClose.eq_2]
        rintro rest rfl
        exact hclose rfl
      rw [enclosed, hbody] at h
      simp only [bind, Except.bind, hexpect] at h
      cases h

/-- A body in parentheses, which becomes part of the item before what follows. -/
theorem Sharpens.enclosed {l₀ l₂ : Ledger}
    (hbody : Sharpens body l₀ [] .outside ts q l₁ (.char ')' :: more))
    (hfollow : Sharpens again₁ l₂ (i :: done) .outside more p l' rest)
    (henter : l₀.flags = l.flags) (hleave : l₂.flags = l₁.flags)
    (hi : i.sharpened = i → q.sharpened = q)
    (hagain : ∀ us, follow q.sharpened l₁ us = again₁ us) :
    Sharpens (Pattern.enclosed body follow) l done .outside ts p l' rest := by
  have hne : Token.char ')' ≠ .char '$' := by decide
  refine ⟨hfollow.noFlags, hfollow.flags.trans (hleave.trans (hbody.flags.trans henter)),
    fun hp => forall_of_cons (hfollow.items hp), ?_, ?_⟩
  · intro hp hrest
    have hq := hi (hfollow.items hp i List.mem_cons_self)
    exact hbody.clean_cons hne hq (hfollow.clean hp hrest)
  · intro ts' hts'
    obtain ⟨more', heq, hmore⟩ := hbody.again_cons hne hts'
    obtain ⟨rest', heq', hrest⟩ := hfollow.again more' hmore
    exact ⟨rest', by rw [enclosed_close heq, hagain, heq'], hrest⟩

end Enclosed

/-- What a group does with its body: the flags and the ledger it is read under, the pattern made of
it, and the ledger behind it. -/
structure Enclosure where
  scope : Flags
  enter : Ledger
  wrap : Ledger → Pattern → Pattern
  leave : Ledger → Pattern → Ledger

/-- Reads a group and the items after it. -/
def Enclosure.read (g : Enclosure) (fuel : Nat) (ctx : Context) (done : List Item) :
    List Token → Part :=
  enclosed (alternatives fuel (.inner g.scope) g.enter) fun p l rest =>
    items fuel ctx (.plain (g.wrap l p) :: done) (g.leave l p) rest

/-- A group does the same with a sharpened pattern, and changes no flags. -/
structure Enclosure.Natural (g : Enclosure) (l : Ledger) : Prop where
  scope : g.scope.verbose = false
  enter : g.enter.flags = l.flags
  leave : ∀ l p, (g.leave l p).flags = l.flags
  leave_sharpened : ∀ l p, g.leave l p.sharpened = g.leave l p
  wrap_sharpened : ∀ l p, g.wrap l p.sharpened = (g.wrap l p).sharpened
  sharpened_of_wrap : ∀ l p, (g.wrap l p).sharpened = g.wrap l p → p.sharpened = p

theorem Descends.enclosure_step {g : Enclosure} (ih : Descends fuel) (hg : g.Natural l)
    (hts : NoFlags .outside ts) (hv : (ctx.flags l).verbose = false)
    (h : g.read fuel ctx done ts = .ok (p, l', rest)) :
    Sharpens (g.read fuel ctx (done.map Item.sharpened)) l done .outside ts p l' rest := by
  obtain ⟨q, l₁, more, hbody, hfollow⟩ := exists_of_enclosed h
  have hscope : ((Context.inner g.scope).flags g.enter).verbose = false := hg.scope
  have hq := ih.alternatives hts hscope hbody
  have hflags : (g.leave l₁ q).flags = l.flags := by rw [hg.leave, hq.flags, hg.enter]
  have hv' : (ctx.flags (g.leave l₁ q)).verbose = false := by rwa [flags_congr hflags]
  have hitems := ih.items hq.noFlags.2 hv' hfollow
  refine hq.enclosed hitems hg.enter (hg.leave l₁ q) (fun hi => ?_) fun us => ?_
  · exact hg.sharpened_of_wrap l₁ q (Item.plain.inj hi)
  · rw [hg.wrap_sharpened, hg.leave_sharpened]
    rfl

/-! ### The groups -/

/-- A group that is counted. -/
def captured (f : Flags) (l : Ledger) (n : Nat) : Enclosure :=
  ⟨f, l, fun _ p => .group n p, fun l p => l.close n p⟩

/-- A group that leaves the ledger as it is. -/
def grouped (f : Flags) (l : Ledger) (wrap : Pattern → Pattern) : Enclosure :=
  ⟨f, l, fun _ p => wrap p, fun l _ => l⟩

/-- A lookbehind. -/
def lookingBehind (f : Flags) (l : Ledger) (negative : Bool) : Enclosure :=
  ⟨f, l.enterBehind, fun l p => .behind negative (p.widths l.width).1 p,
    fun inside p => inside.leaveBehind l p⟩

section Kinds

variable (hf : f.verbose = false)

include hf

theorem natural_captured {n : Nat} (hl : l₁.flags = l.flags) : (captured f l₁ n).Natural l where
  scope := hf
  enter := hl
  leave _ _ := rfl
  leave_sharpened l p := by simp only [captured, Ledger.close, widths_sharpened]
  wrap_sharpened _ _ := rfl
  sharpened_of_wrap _ _ h := (Pattern.group.inj h).2

theorem natural_grouped (wrap : Pattern → Pattern)
    (hwrap : ∀ p, (wrap p).sharpened = wrap p.sharpened) (hinj : ∀ p q, wrap p = wrap q → p = q) :
    (grouped f l wrap).Natural l where
  scope := hf
  enter := rfl
  leave _ _ := rfl
  leave_sharpened _ _ := rfl
  wrap_sharpened _ p := (hwrap p).symm
  sharpened_of_wrap _ p h := hinj _ _ ((hwrap p).symm.trans h)

theorem natural_lookingBehind {negative : Bool} : (lookingBehind f l negative).Natural l where
  scope := hf
  enter := rfl
  leave _ _ := rfl
  leave_sharpened l p := by simp only [lookingBehind, Ledger.leaveBehind, widths_sharpened]
  wrap_sharpened l p := by simp only [lookingBehind, widths_sharpened, Pattern.sharpened]
  sharpened_of_wrap _ _ h := (Pattern.behind.inj h).2.2

end Kinds

section Parenthesis

variable {fuel : Nat} {ctx : Context} {done : List Item} {l : Ledger} {ts rest : List Token}

theorem parenthesis_capture {name : Option (List Char)}
    (h : opening l ts = .ok (.capture name, rest)) :
    parenthesis (fuel + 1) ctx done l ts =
      match l.open? name with
      | .error e => .error e
      | .ok (n, l₁) => (captured (ctx.flags l) l₁ n).read fuel ctx done rest := by
  rw [parenthesis, h]
  dsimp only
  rcases l.open? name with e | ⟨n, l₁⟩ <;> rfl

theorem parenthesis_plain {on off : Flags} (h : opening l ts = .ok (.plain on off, rest)) :
    parenthesis (fuel + 1) ctx done l ts =
      (grouped ((ctx.flags l).adjust on off) l id).read fuel ctx done rest := by
  rw [parenthesis, h]
  rfl

theorem parenthesis_atomic (h : opening l ts = .ok (.atomic, rest)) :
    parenthesis (fuel + 1) ctx done l ts =
      (grouped (ctx.flags l) l .atomic).read fuel ctx done rest := by
  rw [parenthesis, h]
  rfl

theorem parenthesis_ahead {negative : Bool} (h : opening l ts = .ok (.look false negative, rest)) :
    parenthesis (fuel + 1) ctx done l ts =
      (grouped (ctx.flags l) l (.ahead negative)).read fuel ctx done rest := by
  rw [parenthesis, h]
  rfl

theorem parenthesis_behind {negative : Bool} (h : opening l ts = .ok (.look true negative, rest)) :
    parenthesis (fuel + 1) ctx done l ts =
      (lookingBehind (ctx.flags l) l negative).read fuel ctx done rest := by
  rw [parenthesis, h]
  rfl

/-- The item of a reference by name. -/
def referenceTo (l : Ledger) (f : Flags) (name : List Char) : Except SourceError Item :=
  match l.named? name with
  | none => .error .malformed
  | some n => reference l f n

theorem sharpened_referenceTo {name : List Char} (h : referenceTo l f name = .ok i) :
    i.sharpened = i := by
  unfold referenceTo at h
  split at h
  · cases h
  · exact sharpened_reference h

theorem parenthesis_reference {name : List Char} (h : opening l ts = .ok (.reference name, rest)) :
    parenthesis (fuel + 1) ctx done l ts =
      match referenceTo l (ctx.flags l) name with
      | .error e => .error e
      | .ok i => items fuel ctx (i :: done) l rest := by
  rw [parenthesis, h]
  unfold referenceTo
  dsimp only
  rcases l.named? name with _ | n
  · rfl
  · rcases hi : reference l (ctx.flags l) n with e | i <;> simp only [hi]

/-- A condition reads one sequence, and another one behind a bar if there is one. -/
def conditional (fuel : Nat) (ctx : Context) (done : List Item) (f : Flags) (n : Nat) (l : Ledger)
    (ts : List Token) : Part := do
  let (yes, l, rest) ← items fuel (.inner f) [] l ts
  match rest with
  | .char '|' :: rest =>
    enclosed (items fuel (.inner f) [] l)
      (fun no l rest => items fuel ctx (.plain (.ifGroup n yes no) :: done) l rest) rest
  | rest => do
    let rest ← expectClose rest
    items fuel ctx (.plain (.ifGroup n yes .empty) :: done) l rest

theorem parenthesis_condition {n : Nat} (h : opening l ts = .ok (.condition n, rest)) :
    parenthesis (fuel + 1) ctx done l ts =
      if l.admits n then
        conditional fuel ctx done (ctx.flags l) n { l with wanted := max l.wanted n } rest
      else .error .malformed := by
  rw [parenthesis, h]
  dsimp only
  rcases l.admits n with _ | _ <;> rfl

theorem conditional_bar {n : Nat} (h : items fuel (.inner f) [] l ts = .ok (p, l₁, .char '|' :: rest)) :
    conditional fuel ctx done f n l ts =
      enclosed (items fuel (.inner f) [] l₁)
        (fun q l rest => items fuel ctx (.plain (.ifGroup n p q) :: done) l rest) rest := by
  rw [conditional, h]
  rfl

theorem conditional_of_head {n : Nat} (h : items fuel (.inner f) [] l ts = .ok (p, l₁, rest))
    (hbar : rest.head? ≠ some (.char '|')) :
    conditional fuel ctx done f n l ts =
      enclosed (items fuel (.inner f) [] l)
        (fun p l rest => items fuel ctx (.plain (.ifGroup n p .empty) :: done) l rest) ts := by
  rw [conditional, enclosed, h]
  simp only [bind, Except.bind]
  split
  · exact absurd rfl hbar
  · rfl

end Parenthesis

section Condition

variable {n : Nat} (ih : Descends fuel) (hv : (ctx.flags l).verbose = false)

include ih hv

/-- A condition with a bar: each side is read as a sequence of its own. -/
theorem Descends.condition_bar (hf : f.verbose = false)
    (hfirst : Sharpens (Pattern.items fuel (.inner f) [] l) l [] .outside ts q l₁
      (.char '|' :: more))
    (hyes : Pattern.items fuel (.inner f) [] l ts = .ok (q, l₁, .char '|' :: more))
    (h : conditional fuel ctx done f n l ts = .ok (p, l', rest)) :
    Sharpens (conditional fuel ctx (done.map Item.sharpened) f n l) l done .outside ts p l'
      rest := by
  rw [conditional_bar hyes] at h
  obtain ⟨no, l₂, us, hno, hfollow⟩ := exists_of_enclosed h
  have hscope : ((Context.inner f).flags l₁).verbose = false := hf
  have hsecond := ih.items hfirst.noFlags.2 hscope hno
  have hv' : (ctx.flags l₂).verbose = false := by
    rwa [flags_congr (hsecond.flags.trans hfirst.flags)]
  have hitems := ih.items hsecond.noFlags.2 hv' hfollow
  have hbehind : Sharpens (Pattern.enclosed (Pattern.items fuel (.inner f) [] l₁) fun no l rest =>
      Pattern.items fuel ctx (.plain (.ifGroup n q.sharpened no) :: done.map Item.sharpened) l
        rest) l₁ done .outside more p l' rest :=
    hsecond.enclosed hitems rfl rfl
      (fun hi => (Pattern.ifGroup.inj (Item.plain.inj hi)).2.2) fun _ => rfl
  have hne : Token.char '|' ≠ .char '$' := by decide
  refine ⟨hbehind.noFlags, hbehind.flags.trans hfirst.flags, hbehind.items, ?_, ?_⟩
  · intro hp hrest
    have hgroup := hitems.items hp _ List.mem_cons_self
    have hq : q.sharpened = q := (Pattern.ifGroup.inj (Item.plain.inj hgroup)).2.1
    exact hfirst.clean_cons hne hq (hbehind.clean hp hrest)
  · intro ts' hts'
    obtain ⟨more', heq, hmore⟩ := hfirst.again_cons hne hts'
    rw [conditional_bar heq]
    exact hbehind.again more' hmore

/-- A condition without a bar is a group with one sequence. -/
theorem Descends.condition_single
    (hfirst : Sharpens (Pattern.items fuel (.inner f) [] l) l [] .outside ts q l₁ more)
    (hyes : Pattern.items fuel (.inner f) [] l ts = .ok (q, l₁, more))
    (hbar : more.head? ≠ some (.char '|'))
    (h : conditional fuel ctx done f n l ts = .ok (p, l', rest)) :
    Sharpens (conditional fuel ctx (done.map Item.sharpened) f n l) l done .outside ts p l'
      rest := by
  -- without a bar the body that was read first is the body of the parenthesis
  rw [conditional_of_head hyes hbar] at h
  obtain ⟨q', l₂, us, hyes', hfollow⟩ := exists_of_enclosed h
  rw [hyes] at hyes'
  cases hyes'
  have hv' : (ctx.flags l₁).verbose = false := by rwa [flags_congr hfirst.flags]
  have hitems := ih.items hfirst.noFlags.2 hv' hfollow
  have hwhole : Sharpens (Pattern.enclosed (Pattern.items fuel (.inner f) [] l) fun yes l rest =>
      Pattern.items fuel ctx (.plain (.ifGroup n yes .empty) :: done.map Item.sharpened) l rest)
        l done .outside ts p l' rest :=
    hfirst.enclosed hitems rfl rfl
      (fun hi => (Pattern.ifGroup.inj (Item.plain.inj hi)).2.1) fun _ => rfl
  refine ⟨hwhole.noFlags, hwhole.flags, hwhole.items, hwhole.clean, ?_⟩
  intro ts' hts'
  obtain ⟨more', heq, hmore⟩ := hfirst.again ts' hts'
  rw [conditional_of_head heq (hmore.head_ne hbar)]
  exact hwhole.again ts' hts'

theorem Descends.condition_step (hf : f.verbose = false) (hts : NoFlags .outside ts)
    (h : conditional fuel ctx done f n l ts = .ok (p, l', rest)) :
    Sharpens (conditional fuel ctx (done.map Item.sharpened) f n l) l done .outside ts p l'
      rest := by
  have hscope : ((Context.inner f).flags l).verbose = false := hf
  rcases hyes : Pattern.items fuel (.inner f) [] l ts with e | ⟨yes, l₁, more⟩
  · rw [conditional, hyes] at h
    cases h
  · have hfirst := ih.items hts hscope hyes
    by_cases hbar : more.head? = some (.char '|')
    · obtain ⟨more, rfl⟩ := List.head?_eq_some_iff.mp hbar
      exact ih.condition_bar hv hf hfirst hyes h
    · exact ih.condition_single hv hfirst hyes hbar h

end Condition

theorem flags_of_open {name : Option (List Char)} {n : Nat} (h : l.open? name = .ok (n, l₁)) :
    l₁.flags = l.flags := by
  unfold Ledger.open? at h
  split at h
  · cases h
    rfl
  · split at h <;> cases h
    rfl

/-- Flags of a group that names none are those around it. -/
theorem adjust_none (f : Flags) : f.adjust Flags.none Flags.none = f := by
  simp [Flags.adjust, Flags.none]

theorem Descends.parenthesis_succ (ih : Descends fuel) (hflags : setsFlags ts = false)
    (hts : NoFlags (Region.outside.next (.char '(') ts) ts) (hv : (ctx.flags l).verbose = false)
    (h : Pattern.parenthesis (fuel + 1) ctx done l ts = .ok (p, l', rest)) :
    Sharpens (Pattern.parenthesis (fuel + 1) ctx (done.map Item.sharpened) l) l done
      (Region.outside.next (.char '(') ts) ts p l' rest := by
  rcases hopening : opening l ts with e | ⟨o, more⟩
  · rw [Pattern.parenthesis, hopening] at h
    cases h
  · obtain ⟨hpass, ho⟩ := opening_passes hflags hopening
    have hmore := hpass.crosses.noFlags hts
    cases o with
    | flags on => cases ho
    | comment =>
      rw [parenthesis_comment hopening] at h
      exact (ih.items hmore hv h).step hpass rfl id fun us more heq => parenthesis_comment heq
    | reference name =>
      rw [parenthesis_reference hopening] at h
      rcases hi : referenceTo l (ctx.flags l) name with e | i <;> rw [hi] at h
      · cases h
      · have hitems := ih.items hmore hv h
        rw [List.map_cons, sharpened_referenceTo hi] at hitems
        refine hitems.step hpass rfl forall_of_cons fun us more heq => ?_
        rw [parenthesis_reference heq, hi]
    | capture name =>
      rw [parenthesis_capture hopening] at h
      rcases hopen : l.open? name with e | ⟨n, l₁⟩ <;> rw [hopen] at h
      · cases h
      · have hgroup := ih.enclosure_step (natural_captured hv (flags_of_open hopen)) hmore hv h
        refine hgroup.step hpass rfl id fun us more heq => ?_
        rw [parenthesis_capture heq, hopen]
    | plain on off =>
      obtain ⟨rfl, rfl⟩ := ho
      rw [parenthesis_plain hopening, adjust_none] at h
      have hgroup := ih.enclosure_step
        (natural_grouped hv id (fun _ => rfl) fun _ _ heq => heq) hmore hv h
      refine hgroup.step hpass rfl id fun us more heq => ?_
      rw [parenthesis_plain heq, adjust_none]
    | atomic =>
      rw [parenthesis_atomic hopening] at h
      have hgroup := ih.enclosure_step
        (natural_grouped hv .atomic (fun _ => rfl) fun _ _ heq => Pattern.atomic.inj heq) hmore hv h
      exact hgroup.step hpass rfl id fun us more heq => parenthesis_atomic heq
    | look behind negative =>
      cases behind with
      | false =>
        rw [parenthesis_ahead hopening] at h
        have hgroup := ih.enclosure_step (natural_grouped hv (.ahead negative) (fun _ => rfl)
          fun _ _ heq => (Pattern.ahead.inj heq).2) hmore hv h
        exact hgroup.step hpass rfl id fun us more heq => parenthesis_ahead heq
      | true =>
        rw [parenthesis_behind hopening] at h
        have hgroup := ih.enclosure_step (natural_lookingBehind hv) hmore hv h
        exact hgroup.step hpass rfl id fun us more heq => parenthesis_behind heq
    | condition n =>
      rw [parenthesis_condition hopening] at h
      split at h
      · next hadmits =>
        have hv' : (ctx.flags { l with wanted := max l.wanted n }).verbose = false := hv
        have hgroup := ih.condition_step hv' hv hmore h
        refine hgroup.step hpass rfl id fun us more heq => ?_
        rw [parenthesis_condition heq, if_pos hadmits]
      · cases h

/-- By induction on the fuel: the descent yields the sharpened pattern. -/
theorem descends (fuel : Nat) : Descends fuel := by
  induction fuel with
  | zero => exact ⟨nofun, nofun, nofun⟩
  | succ fuel ih => exact ⟨ih.alternatives_succ, ih.items_succ, ih.parenthesis_succ⟩

end DocSchema.Pattern
