import DocSchema.Proofs.Constraint.Invariance
import DocSchema.Proofs.Walk.Document

/-!
Equal documents get equal reports.

Two documents can say the same with keys in another order and with whole numbers written as integers
or as doubles. Guards, types and constraints do not see that, so only the order in which a dictionary
is gone through is left to differ, and with it the order of the diagnostics, or which of several
faults comes first (`Outcome.Alike`). The walk is followed over both documents in step
(`step_agrees`), and `validate_perm` says of whole validations that their diagnostics are the same up
to order.
-/

namespace DocSchema

/-! ### Outcomes up to order -/

theorem eq_nil_iff_of_perm {ds es : List Diagnostic} (h : ds.Perm es) : ds = [] ↔ es = [] := by
  rw [← List.length_eq_zero_iff, h.length_eq, List.length_eq_zero_iff]

/-- Two outcomes have the same diagnostics in some order, or a fault each. -/
inductive Outcome.Alike : Outcome → Outcome → Prop
  | ok {ds es : List Diagnostic} (hperm : ds.Perm es) : Alike (.ok ds) (.ok es)
  | error {f f' : Fault} : Alike (.error f) (.error f')

namespace Outcome.Alike

variable {o o' o'' t t' : Outcome}

theorem refl (o : Outcome) : o.Alike o := by
  cases o with
  | error f => exact .error
  | ok ds => exact .ok (.refl ds)

theorem trans (h : o.Alike o') (h' : o'.Alike o'') : o.Alike o'' := by
  cases h with
  | error => cases h'; exact .error
  | ok hperm =>
    cases h' with
    | ok hperm' => exact .ok (hperm.trans hperm')

theorem under (path : String) (h : o.Alike o') : (o.under path).Alike (o'.under path) := by
  cases h with
  | error => exact .error
  | ok hperm => exact .ok (hperm.map _)

theorem andThen (h : o.Alike o') (h' : t.Alike t') : (o.andThen t).Alike (o'.andThen t') := by
  cases h with
  | error => exact .error
  | ok hperm =>
    cases h' with
    | error => exact .error
    | ok hperm' => exact .ok (hperm.append hperm')

end Outcome.Alike

/-- Several parts of which one has to be clean are judged alike if the parts are alike. -/
theorem anyClean_alike {α β : Type} {f : α → Outcome} {f' : β → Outcome} {l : List α} {l' : List β}
    (h : List.Forall₂ (fun a b => (f a).Alike (f' b)) l l') :
    (∃ clean, anyClean f l = .ok clean ∧ anyClean f' l' = .ok clean) ∨
      ∃ e e', anyClean f l = .error e ∧ anyClean f' l' = .error e' := by
  induction h with
  | nil => exact .inl ⟨false, rfl, rfl⟩
  | @cons a b l l' hab _ ih =>
    rw [anyClean_cons, anyClean_cons]
    generalize f a = o at hab ⊢
    generalize f' b = o' at hab ⊢
    cases hab with
    | error => exact .inr ⟨_, _, rfl, rfl⟩
    | @ok ds es hperm =>
      have hempty : ds.isEmpty = es.isEmpty := by
        rw [Bool.eq_iff_iff, List.isEmpty_iff, List.isEmpty_iff, eq_nil_iff_of_perm hperm]
      simp only [bind, Except.bind, hempty]
      split
      · exact .inl ⟨true, rfl, rfl⟩
      · exact ih

/-- Outcomes put together from outcomes that are the same up to order are so, too. -/
theorem alike_congruence : Congruence Outcome.Alike where
  refl := .refl
  under := .under
  andThen := .andThen
  any h := by
    simp only [Catalog.anyOutcome]
    rcases anyClean_alike h with ⟨clean, hl, hr⟩ | ⟨e, e', hl, hr⟩
    · rw [hl, hr]; exact .refl _
    · rw [hl, hr]; exact .error

/-- The order of the parts makes no difference up to order. -/
theorem collect_perm {α : Type} {f : α → Outcome} {l l' : List α} (h : l.Perm l') :
    (collect f l).Alike (collect f l') := by
  induction h with
  | nil => exact .refl _
  | cons a _ ih => exact .andThen (.refl _) ih
  | swap a b l =>
    simp only [collect_cons]
    rcases f a with e | own <;> rcases f b with e' | others <;> rcases collect f l with e'' | rest
    case ok.ok.ok =>
      refine .ok (show (others ++ (own ++ rest)).Perm (own ++ (others ++ rest)) from ?_)
      rw [← List.append_assoc, ← List.append_assoc]
      exact List.perm_append_comm.append_right rest
    all_goals exact .error
  | trans _ _ ih ih' => exact ih.trans ih'

/-! ### Constraints on equal values -/

/-- No constraint of the node is divisibility. -/
def Node.NoMultiples : Node → Prop
  | .named _ us => ∀ u ∈ us, u.name ≠ .string "multipleOf"
  | .arrayOf _ us => ∀ u ∈ us, u.name ≠ .string "multipleOf"
  | _ => True

theorem ValidatorEntry.KeepsEquality.verdict_eq {e : ValidatorEntry} (he : e.KeepsEquality)
    {s t : Slot} (h : Slot.Alike s t) (u : Usage) : e.verdict u s = e.verdict u t := by
  cases e with
  | builtin k =>
    simp only [ValidatorEntry.verdict]
    exact congrArg (u.resolved >>= ·) (funext fun a => h.evaluate_eq he a)
  | custom v =>
    simp only [ValidatorEntry.verdict]
    exact congrArg (fun judge => (v.bind u).map judge) (funext fun b => h.rule_eq he b)

namespace Catalog

variable {c : Catalog} {w : Call → Outcome} {s t g h : Slot}

/-- Uses of constraints report the same on equal values. -/
theorem usesOutcome_eq (hc : c.NoPatterns) (target : Json) {us : List Usage}
    (hus : ∀ u ∈ us, u.name ≠ .string "multipleOf") (hslot : Slot.Alike s t) :
    collect (fun u => c.useOutcome target u s) us = collect (fun u => c.useOutcome target u t) us := by
  have huse : ∀ u ∈ us, c.useOutcome target u s = c.useOutcome target u t := by
    intro u hu
    simp only [useOutcome]
    rcases hentry : c.validator? target u.name with f | (_ | e)
    · rfl
    · rfl
    · simp only [(validator?_keeps hc (hus u hu) hentry).verdict_eq hslot u]
  exact eq_congruence.collect huse

/-! ### One visit -/

/-- Calls about equal values under equal subjects have answers that are alike. -/
def Agrees (w : Call → Outcome) : Prop := ∀ n s t g h, n.Everywhere Node.NoMultiples →
  Slot.Alike s t → Slot.Alike g h → (w ⟨n, s, g⟩).Alike (w ⟨n, t, h⟩)

theorem namedOutcome_agrees (hc : c.NoPatterns) {name : Json} {us : List Usage}
    (hus : ∀ u ∈ us, u.name ≠ .string "multipleOf") (hslot : Slot.Alike s t)
    (hdefined : ∀ n, c.type? name = .ok (some (.defined n)) →
      (w ⟨n, s, g⟩).Alike (w ⟨n, t, h⟩)) :
    (c.namedOutcome w name us s g).Alike (c.namedOutcome w name us t h) := by
  simp only [namedOutcome, usesOutcome_eq hc name hus hslot]
  rcases hname : c.type? name with f | (_ | (type | n))
  · exact .refl _
  · exact .refl _
  · simp only [typeOutcome, hslot.accepts_eq type]
    exact .refl _
  · exact .andThen (hdefined n hname) (.refl _)

/-- Items that are related one by one are so with their indices. -/
theorem forall₂_zipIdx {R : Json → Json → Prop} {as bs : List Json} (h : List.Forall₂ R as bs) :
    ∀ start, List.Forall₂ (fun x y : Json × Nat => x.2 = y.2 ∧ R x.1 y.1)
      (as.zipIdx start) (bs.zipIdx start) := by
  induction h with
  | nil => exact fun _ => .nil
  | cons hab _ ih =>
    intro start
    rw [List.zipIdx_cons, List.zipIdx_cons]
    exact .cons ⟨rfl, hab⟩ (ih (start + 1))

theorem itemsOutcome_agrees {item : Node} {as bs : List Json}
    (h : List.Forall₂ (fun a b => (w ⟨item, some a, some (.array as)⟩).Alike
      (w ⟨item, some b, some (.array bs)⟩)) as bs) :
    (itemsOutcome w item as).Alike (itemsOutcome w item bs) := by
  refine alike_congruence.collect_forall₂ ((forall₂_zipIdx h 0).imp ?_)
  rintro ⟨a, i⟩ ⟨b, _⟩ ⟨rfl, hab⟩
  exact hab.under _

theorem fieldOutcome_agrees {fs gs : List (String × Json)} {declared : FieldHead × Node}
    (hfields : ∀ key, Slot.Alike (lookup key fs) (lookup key gs))
    (hvalue : ∀ key v u, declared.1.name = .string key → lookup key fs = some v → v.Alike u →
      (w ⟨declared.2, some v, g⟩).Alike (w ⟨declared.2, some u, h⟩)) :
    (fieldOutcome w fs g declared).Alike (fieldOutcome w gs h declared) := by
  obtain ⟨⟨name, optional, default⟩, type⟩ := declared
  cases name with
  | string key =>
    have hkey := hfields key
    have hvalue := hvalue key
    simp only [fieldOutcome]
    generalize lookup key fs = a at hkey hvalue ⊢
    generalize lookup key gs = b at hkey ⊢
    cases hkey with
    | none => exact .refl _
    | some hvu => exact (hvalue _ _ rfl rfl hvu).under _
  | _ => exact .refl _

/-- A visit agrees if its calls do. -/
theorem step_agrees (hpatterns : c.NoPatterns) (hc : c.Everywhere Node.NoMultiples)
    (hw : Agrees w) : Agrees (c.step w) := by
  intro n s t g h hn hslot hsubject
  have call {m : Node} {a b : Slot} {p q : Slot}
      (hy : c.Calls (fun _ => True) ⟨n, s, g⟩ ⟨m, a, p⟩) (hab : Slot.Alike a b)
      (hpq : Slot.Alike p q) : (w ⟨m, a, p⟩).Alike (w ⟨m, b, q⟩) :=
    hw m a b p q (hy.everywhere hc hn) hab hpq
  have here {m : Node} (hy : c.Calls (fun _ => True) ⟨n, s, g⟩ ⟨m, s, g⟩) :
      (w ⟨m, s, g⟩).Alike (w ⟨m, t, h⟩) := call hy hslot hsubject
  have any {members : List Node} {message : String}
      (hcalls : ∀ before m after, members = before ++ m :: after →
        c.Calls (fun _ => True) ⟨n, s, g⟩ ⟨m, s, g⟩) :
      (anyOutcome w s g message members).Alike (anyOutcome w t h message members) := by
    refine alike_congruence.any (List.forall₂_same.mpr fun m hm => ?_)
    obtain ⟨before, after, hsplit⟩ := List.append_of_mem hm
    exact here (hcalls before m after hsplit)
  have hnull : s = some .null ↔ t = some .null := hslot.null_iff
  cases n with
  | named name us =>
    exact namedOutcome_agrees hpatterns hn.here hslot fun m hm => here (.named hm)
  | nullableNamed name =>
    by_cases hs : s = some .null
    · rw [hs, hnull.mp hs]; exact .refl _
    · have ht : t ≠ some .null := mt hnull.mpr hs
      simp only [step]
      exact namedOutcome_agrees hpatterns (by simp) hslot fun m hm => here (.nullableNamed hs hm)
  | nullable inner =>
    by_cases hs : s = some .null
    · rw [hs, hnull.mp hs]; exact .refl _
    · have ht : t ≠ some .null := mt hnull.mpr hs
      simp only [step]
      exact here (.nullable hs)
  | arrayOf item us =>
    cases hslot with
    | none => exact .refl _
    | some hvw =>
      cases hvw.layer with
      | @array as bs hitems =>
        simp only [step, usesOutcome_eq hpatterns (.string "Array") hn.here (.some hvw)]
        refine .andThen (.refl _) (itemsOutcome_agrees (forall₂_imp_of_mem hitems ?_))
        exact fun a ha b hab => call (.item ha) (.some hab) (.some hvw)
      | _ => exact .refl _
  | record declared =>
    cases hslot with
    | none => exact .refl _
    | some hvw =>
      cases hvw.layer with
      | @object fs gs =>
        refine alike_congruence.collect fun d hd => ?_
        refine fieldOutcome_agrees (fun key => hvw.get? key) fun key v u hkey hv hvu => ?_
        exact call (.field hd hkey hv) (.some hvu) (.some hvw)
      | _ => exact .refl _
  | dict key value =>
    cases hslot with
    | none => exact .refl _
    | some hvw =>
      cases hvw.layer with
      | @object fs gs hs hkeys hfields hperm =>
        -- entry by entry in the order of the left one, and then in the order of the right one
        refine (alike_congruence.collect_forall₂ (forall₂_imp_of_mem hfields ?_)).trans
          (collect_perm hperm)
        rintro ⟨k, v⟩ hf ⟨_, u⟩ ⟨rfl, hvu⟩
        refine .andThen (.under _ ?_) (.under _ ?_)
        · exact call (.key hf) (.some (Json.alike_string k)) (.some hvw)
        · exact call (.value hf) (.some hvu) (.some hvw)
      | _ => exact .refl _
  | union members => exact any fun before m after hm => .member hm fun _ _ => trivial
  | intersection members => exact alike_congruence.collect fun m hm => here (.part hm)
  | conditional condition yes no =>
    simp only [step, ← hsubject.guard_eq condition.guard]
    rcases hg : condition.guard.evaluate g with _ | (_ | _)
    · exact any fun before m after hm => .undecided hg hm fun _ _ => trivial
    · exact here (.no hg)
    · exact here (.yes hg)
  | literal u =>
    simp only [step, hslot.holds_eq u]
    exact .refl _
  | absent => cases hslot <;> exact .refl _

/-- The walk agrees with any fuel. -/
theorem outcome_agrees (hpatterns : c.NoPatterns) (hc : c.Everywhere Node.NoMultiples) (fuel : Nat) :
    Agrees (c.outcome fuel) := by
  induction fuel with
  | zero => exact fun _ _ _ _ _ _ _ _ => .refl _
  | succ fuel ih =>
    intro n s t g h
    rw [outcome_succ, outcome_succ]
    exact step_agrees hpatterns hc ih n s t g h

/-- What is reported on a slot within its budget is reported on an equal one within its own. -/
theorem budget_agrees (hpatterns : c.NoPatterns) (hc : c.Everywhere Node.NoMultiples) {n : Node}
    (hn : n.Everywhere Node.NoMultiples) (hslot : Slot.Alike s t) (hsubject : Slot.Alike g h)
    {ds : List Diagnostic} (hds : c.outcome (c.budget n s) ⟨n, s, g⟩ = .ok ds) :
    ∃ es, c.outcome (c.budget n t) ⟨n, t, h⟩ = .ok es ∧ ds.Perm es := by
  have hagree := outcome_agrees hpatterns hc (c.budget n s) n s t g h hn hslot hsubject
  rw [hds] at hagree
  cases hother : c.outcome (c.budget n s) ⟨n, t, h⟩ with
  | error f => rw [hother] at hagree; cases hagree
  | ok es =>
    have hbudget : c.outcome (c.budget n t) ⟨n, t, h⟩ = c.outcome (c.budget n s) ⟨n, t, h⟩ :=
      outcome_budget (by rw [hother]; simp)
    rw [hother] at hagree hbudget
    cases hagree with
    | ok hperm => exact ⟨es, hbudget, hperm⟩

end Catalog

/-! ### Whole validations -/

/-- Two documents say the same: they are read as equal values, or are equal values as they are handed
over, text among them that may not even be readable. -/
inductive Document.Same : Document → Document → Prop
  | read {document other : Document} {v w : Json} (hread : document.read = .ok v)
      (hread' : other.read = .ok w) (hsame : v.same w = true) : Same document other
  | value {v w : Json} (hsame : v.same w = true) : Same (.value v) (.value w)

namespace Catalog

variable {c : Catalog}

theorem validate_perm_of_read {document other : Document} {root v w : Json} {ds : List Diagnostic}
    (hpatterns : c.NoPatterns) (hc : c.Everywhere Node.NoMultiples)
    (hread : document.read = .ok v) (hread' : other.read = .ok w) (hvw : v.Alike w)
    (h : c.validate (m := Except Fault) document root = .ok ds) :
    ∃ es, c.validate (m := Except Fault) other root = .ok es ∧ ds.Perm es := by
  rw [validate_of_read hread] at h
  rw [validate_of_read hread']
  cases hroot : c.resolveRoot root with
  | error e =>
    rw [hroot] at h
    cases e <;> cases h
    all_goals exact ⟨_, rfl, .refl _⟩
  | ok name =>
    rw [hroot] at h
    obtain ⟨own, hown, rfl⟩ := Outcome.under_eq_ok.mp h
    have hnode : (Node.named (.string name) []).Everywhere Node.NoMultiples :=
      .intro (by simp [Node.NoMultiples]) (by simp [Node.parts])
    obtain ⟨es, hes, hperm⟩ := budget_agrees hpatterns hc hnode (.some hvw) (.some hvw) hown
    exact ⟨es.map (Diagnostic.under rootPath), congrArg (Outcome.under rootPath) hes, hperm.map _⟩

/-- Documents that say the same have the same diagnostics up to order, if no custom validator looks
for a pattern and no constraint is divisibility: if one of them is validated, so is the other, with a
permutation of the same list, and one is accepted exactly if the other is. -/
theorem validate_perm {document other : Document} {root : Json} {ds : List Diagnostic}
    (hpatterns : c.NoPatterns) (hc : c.Everywhere Node.NoMultiples)
    (hd : document.Distinct) (ho : other.Distinct) (hsame : document.Same other)
    (h : c.validate (m := Except Fault) document root = .ok ds) :
    ∃ es, c.validate (m := Except Fault) other root = .ok es ∧ ds.Perm es ∧ (ds = [] ↔ es = []) := by
  have hperm : ∃ es, c.validate (m := Except Fault) other root = .ok es ∧ ds.Perm es := by
    cases hsame with
    | read hread hread' hsame =>
      have hvw : Json.Alike _ _ := ⟨hsame, Document.distinct_of_read hd hread,
        Document.distinct_of_read ho hread'⟩
      exact validate_perm_of_read hpatterns hc hread hread' hvw h
    | @value v w hsame =>
      have hvw : v.Alike w := ⟨hsame, hd, ho⟩
      cases hvw.layer with
      | string => exact ⟨ds, h, .refl ds⟩
      | _ => exact validate_perm_of_read hpatterns hc rfl rfl hvw h
  obtain ⟨es, hes, hperm⟩ := hperm
  exact ⟨es, hes, hperm, eq_nil_iff_of_perm hperm⟩

/-- Stock: counts of at least one by name. -/
def stock : Catalog where
  version := .null
  root := .null
  types := [("Stock", .dict (.named (.string "String") [])
    (.named (.string "Int") [⟨.string "min", [], .int 1⟩]))]
  validators := []

theorem stock_noMultiples : stock.Everywhere Node.NoMultiples := by
  simp only [Everywhere, stock, List.forall_mem_singleton]
  refine .intro trivial ?_
  simp only [Node.parts, List.forall_mem_cons]
  exact ⟨.intro (by simp [Node.NoMultiples]) (by simp [Node.parts]),
    .intro (by simp [Node.NoMultiples]) (by simp [Node.parts]), by simp⟩

/-- A stock, written in two ways. -/
def stocks : Document × Document :=
  (.text "\x7b\"apples\": 0, \"pears\": 2.5\x7d",
    .text "\x7b\"pears\": 25e-1, \"apples\": -0.0\x7d")

/-- Both ways lack apples, and have half a pear. -/
theorem stock_perm :
    stock.NoPatterns ∧ stock.Everywhere Node.NoMultiples ∧ stocks.1.Distinct ∧ stocks.2.Distinct ∧
    stocks.1.Same stocks.2 ∧
    stock.validate (m := Except Fault) stocks.1 .null = .ok
      [⟨"$.apples", .constraintViolation, "Constraint failed: Int.min"⟩,
        ⟨"$.pears", .typeMismatch, "Expected Int."⟩] ∧
    ∃ es, stock.validate (m := Except Fault) stocks.2 .null = .ok es ∧
      List.Perm [⟨"$.apples", .constraintViolation, "Constraint failed: Int.min"⟩,
        ⟨"$.pears", .typeMismatch, "Expected Int."⟩] es ∧ es ≠ [] := by
  have patterns : stock.NoPatterns := by simp [NoPatterns, stock]
  have distinct : stocks.1.Distinct ∧ stocks.2.Distinct := ⟨trivial, trivial⟩
  have same : stocks.1.Same stocks.2 := by
    have hsame : (match stocks.1.read, stocks.2.read with
      | .ok v, .ok w => v.same w
      | _, _ => false) = true := by decide +kernel
    split at hsame
    · next hread hread' => exact .read hread hread' hsame
    · cases hsame
  have found : stock.validate (m := Except Fault) stocks.1 .null = .ok
      [⟨"$.apples", .constraintViolation, "Constraint failed: Int.min"⟩,
        ⟨"$.pears", .typeMismatch, "Expected Int."⟩] := by decide +kernel
  obtain ⟨es, hes, hperm, hempty⟩ :=
    validate_perm patterns stock_noMultiples distinct.1 distinct.2 same found
  exact ⟨patterns, stock_noMultiples, distinct.1, distinct.2, same, found, es, hes, hperm,
    mt hempty.mpr (by simp)⟩

end Catalog

end DocSchema
