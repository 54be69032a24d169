import DocSchema.Check.Validate
import DocSchema.Proofs.Constraint.Verdict
import DocSchema.Proofs.Walk.Conformance
import DocSchema.Proofs.Walk.Everywhere
import Mathlib.Logic.Relation

/-!
When a validation comes to an answer.

A walk that ends either has an answer or breaks off, and it breaks off exactly if one of the visits
it makes asks something that has no answer: a builtin type, or a constraint. Which visits it makes
depends on the document, since the members of a union after the first one that conforms are not
visited; `Reaches` follows the calls with that in mind. `Traced` relates an outcome to what the
visit asks itself and to its calls, `step_traced` is one visit, and induction on fuel gives
`outcome_answers` and `outcome_breaks`. The main statement, `validate_answers_iff`, says it for
whole validations, and `validate_huge_integer` is a validation that breaks off.
-/

namespace DocSchema

open Literal (Oversized)

/-! ### What a visit asks itself -/

/-- What a constraint needs to have a verdict under a use: arguments with values, or parameters that
can be bound. -/
def ValidatorEntry.Judges (e : ValidatorEntry) (u : Usage) (s : Slot) : Prop :=
  match e with
  | .builtin k => (∀ a ∈ u.args, ¬Oversized a) ∧ ∀ a, u.resolved = .ok a → k.Judges s a
  | .custom v => Parameter.BindAll v.parameters u.incoming

theorem ValidatorEntry.verdict_answers (e : ValidatorEntry) (u : Usage) (s : Slot) :
    Answers (e.verdict u s) ↔ e.Judges u s := by
  cases e with
  | builtin k =>
    simp only [verdict, Judges, ← u.resolved_answers, ← k.evaluate_answers, answers_bind]
    cases u.resolved <;> simp
  | custom v => rw [verdict, answers_map, v.bind_answers, Judges]

/-- The names of types, constraints and fields are texts. -/
def Node.NamesText : Node → Prop
  | .named name us => (∃ t, name = .string t) ∧ ∀ u ∈ us, ∃ t, u.name = .string t
  | .nullableNamed name => ∃ t, name = .string t
  | .arrayOf _ us => ∀ u ∈ us, ∃ t, u.name = .string t
  | .record declared => ∀ f ∈ declared, ∃ t, f.1.name = .string t
  | _ => True

namespace Catalog

/-- A use of a constraint has a verdict, if the constraint is known. -/
def Judges (c : Catalog) (target : Json) (u : Usage) (s : Slot) : Prop :=
  ∀ e, c.validator? target u.name = .ok (some e) → e.Judges u s

/-- A builtin type by name has an answer. -/
def TypeAnswers (c : Catalog) (name : Json) (s : Slot) : Prop :=
  ∀ t, c.type? name = .ok (some (.builtin t)) → ¬(t.AsksNumber ∧ BuiltinType.Beyond s)

/-- All that a visit asks itself, besides its calls, has an answer. -/
def AnswersHere (c : Catalog) (x : Call) : Prop :=
  match x.node, x.slot with
  | .named name us, s => c.TypeAnswers name s ∧
    ((∃ e, c.type? name = .ok (some e)) → ∀ u ∈ us, c.Judges name u s)
  | .nullableNamed name, s => c.TypeAnswers name s
  | .arrayOf _ us, some (.array items) =>
    ∀ u ∈ us, c.Judges (.string "Array") u (some (.array items))
  | _, _ => True

/-- A call that a walk comes to from another: members of a union are tried until one conforms. -/
def Reaches (c : Catalog) : Call → Call → Prop :=
  Relation.ReflTransGen (c.Calls fun b => ¬c.Conforms b.slot b.node b.subject)

variable {c : Catalog} {w : Call → Outcome}

/-! ### Lookups by text -/

theorem type?_answers (c : Catalog) (t : String) : Answers (c.type? (.string t)) := answers_ok _

theorem exists_text_of_aliasOf? (hc : c.Everywhere Node.NamesText) {t : String} {next : Json}
    (h : c.aliasOf? t = some next) : ∃ u, next = .string u := by
  obtain ⟨n, hn, halias⟩ := Option.bind_eq_some_iff.mp h
  have hnames := (hc _ (mem_of_lookup hn)).here
  cases n with
  | named name us =>
    obtain rfl : name = next := by simpa [Node.alias?] using halias
    exact hnames.1
  | nullableNamed name =>
    obtain rfl : name = next := by simpa [Node.alias?] using halias
    exact hnames
  | _ => simp [Node.alias?] at halias

theorem search_answers (hc : c.Everywhere Node.NamesText) (name : String) :
    ∀ (fuel : Nat) (t : String), Answers (c.search (.string name) fuel (.string t))
  | 0, _ => answers_ok _
  | fuel + 1, t => by
    simp only [search]
    cases c.registered? t name with
    | some e => exact answers_ok _
    | none =>
      cases halias : c.aliasOf? t with
      | none => exact answers_ok _
      | some next =>
        obtain ⟨u, rfl⟩ := exists_text_of_aliasOf? hc halias
        exact search_answers hc name fuel u

/-! ### Traced outcomes -/

/-- Where the outcome is answered, `p` holds and all calls were answered; where it broke off, `p`
fails or a call broke off for the same reason. -/
structure Traced (w : Call → Outcome) (o : Outcome) (p : Prop) (calls : Call → Prop) : Prop where
  of_ok : ∀ {ds}, o = .ok ds → p ∧ ∀ y, calls y → Answers (w y)
  of_error : ∀ {f}, o = .error f → ¬p ∨ ∃ y, calls y ∧ w y = .error f

namespace Traced

variable {o t : Outcome} {p q : Prop} {a b : Call → Prop}

theorem congr (h : Traced w o p a) (hpq : p ↔ q) (hab : ∀ y, a y ↔ b y) : Traced w o q b where
  of_ok ho := by
    obtain ⟨hp, ha⟩ := h.of_ok ho
    exact ⟨hpq.mp hp, fun y hy => ha y ((hab y).mpr hy)⟩
  of_error ho := (h.of_error ho).imp (mt hpq.mpr) fun ⟨y, hy, hf⟩ => ⟨y, (hab y).mp hy, hf⟩

/-- An outcome without calls. -/
theorem here (h : Answers o ↔ p) : Traced w o p fun _ => False where
  of_ok ho := ⟨h.mp ⟨_, ho⟩, fun _ hy => hy.elim⟩
  of_error ho := .inl fun hp => by
    obtain ⟨ds, hds⟩ := h.mpr hp
    rw [ho] at hds
    cases hds

theorem ok (ds : List Diagnostic) (hp : p) : Traced w (.ok ds) p fun _ => False :=
  here (iff_of_true (answers_ok _) hp)

/-- The outcome of a call. -/
theorem call (y : Call) : Traced w (w y) True (· = y) where
  of_ok ho := ⟨trivial, fun _ hy => hy ▸ ⟨_, ho⟩⟩
  of_error ho := .inr ⟨y, rfl, ho⟩

theorem under (path : String) (h : Traced w o p a) : Traced w (o.under path) p a where
  of_ok ho := by
    obtain ⟨own, hown, -⟩ := Outcome.under_eq_ok.mp ho
    exact h.of_ok hown
  of_error ho := h.of_error (Outcome.under_eq_error.mp ho)

theorem andThen (ho : Traced w o p a) (ht : Traced w t q b) :
    Traced w (o.andThen t) (p ∧ q) fun y => a y ∨ b y where
  of_ok h := by
    obtain ⟨own, others, hown, hothers, -⟩ := Outcome.andThen_eq_ok.mp h
    obtain ⟨hp, ha⟩ := ho.of_ok hown
    obtain ⟨hq, hb⟩ := ht.of_ok hothers
    exact ⟨⟨hp, hq⟩, fun y hy => hy.elim (ha y) (hb y)⟩
  of_error h := by
    rcases Outcome.andThen_eq_error.mp h with h | ⟨-, h⟩
    · exact (ho.of_error h).imp (fun hp h => hp h.1) fun ⟨y, hy, hf⟩ => ⟨y, .inl hy, hf⟩
    · exact (ht.of_error h).imp (fun hq h => hq h.2) fun ⟨y, hy, hf⟩ => ⟨y, .inr hy, hf⟩

theorem collect {α : Type} {f : α → Outcome} {p : α → Prop} {a : α → Call → Prop} :
    ∀ {l : List α}, (∀ i ∈ l, Traced w (f i) (p i) (a i)) →
      Traced w (DocSchema.collect f l) (∀ i ∈ l, p i) fun y => ∃ i ∈ l, a i y
  | [], _ => (ok [] (by simp)).congr Iff.rfl (by simp)
  | i :: l, h =>
    ((h i List.mem_cons_self).andThen (collect fun j hj => h j (List.mem_cons_of_mem i hj))).congr
      (List.forall_mem_cons).symm (fun y => by simp)

/-- Members are tried in order, up to the first one that conforms. -/
theorem any (hw : c.DecidesConforms w) {s g : Slot} {message : String} {members : List Node} :
    Traced w (anyOutcome w s g message members) True fun y => ∃ before n after,
      members = before ++ n :: after ∧ (∀ m ∈ before, ¬c.Conforms s m g) ∧ y = ⟨n, s, g⟩ where
  of_ok ho := by
    refine ⟨trivial, ?_⟩
    rintro _ ⟨before, n, after, hsplit, hbefore, rfl⟩
    cases hany : anyClean (fun n => w ⟨n, s, g⟩) members with
    | error f => simp only [anyOutcome, hany] at ho; cases ho
    | ok clean =>
      cases clean with
      | false =>
        have hmem : n ∈ members := hsplit ▸ List.mem_append_right _ List.mem_cons_self
        obtain ⟨d, ds, hds⟩ := anyClean_eq_false hany n hmem
        exact ⟨_, hds⟩
      | true =>
        obtain ⟨tried, k, rest, rfl, hk, htried⟩ := anyClean_eq_true hany
        have hconforms : c.Conforms s k g := (hw ⟨k, s, g⟩ [] hk).mp rfl
        -- the split at `n` is not behind `k`, which conforms
        rcases List.append_eq_append_iff.mp hsplit with ⟨l, rfl, hl⟩ | ⟨l, rfl, hl⟩
        · rcases List.cons_eq_append_iff.mp hl with ⟨rfl, hl⟩ | ⟨l', rfl, -⟩
          · obtain ⟨rfl, -⟩ := List.cons.inj hl
            exact ⟨_, hk⟩
          · exact absurd hconforms (hbefore k (by simp))
        · rcases List.cons_eq_append_iff.mp hl with ⟨rfl, hl⟩ | ⟨l', rfl, -⟩
          · obtain ⟨rfl, -⟩ := List.cons.inj hl
            exact ⟨_, hk⟩
          · obtain ⟨d, ds, hds⟩ := htried n (by simp)
            exact ⟨_, hds⟩
  of_error ho := by
    cases hany : anyClean (fun n => w ⟨n, s, g⟩) members with
    | ok clean => simp only [anyOutcome, hany] at ho; cases clean <;> cases ho
    | error f =>
      simp only [anyOutcome, hany] at ho
      cases ho
      obtain ⟨before, n, after, hsplit, hn, hbefore⟩ := anyClean_eq_error hany
      refine .inr ⟨⟨n, s, g⟩, ⟨before, n, after, hsplit, fun m hm hconforms => ?_, rfl⟩, hn⟩
      obtain ⟨d, ds, hds⟩ := hbefore m hm
      exact absurd ((hw ⟨m, s, g⟩ _ hds).mpr hconforms) (List.cons_ne_nil d ds)

end Traced

/-! ### One visit -/

theorem useOutcome_traced (hc : c.Everywhere Node.NamesText) {t : String} {u : Usage}
    (hu : ∃ name, u.name = .string name) (s : Slot) :
    Traced w (c.useOutcome (.string t) u s) (c.Judges (.string t) u s) fun _ => False := by
  refine .here ?_
  obtain ⟨name, hname⟩ := hu
  obtain ⟨entry, hentry⟩ : Answers (c.validator? (.string t) u.name) :=
    hname ▸ search_answers hc name _ t
  simp only [useOutcome, Judges, hentry]
  cases entry with
  | none => simp
  | some e => simp [e.verdict_answers]

theorem usesOutcome_traced (hc : c.Everywhere Node.NamesText) {t : String} {us : List Usage}
    (hus : ∀ u ∈ us, ∃ name, u.name = .string name) (s : Slot) :
    Traced w (collect (fun u => c.useOutcome (.string t) u s) us)
      (∀ u ∈ us, c.Judges (.string t) u s) fun _ => False :=
  (Traced.collect fun u hu => useOutcome_traced hc (hus u hu) s).congr Iff.rfl (by simp)

theorem namedOutcome_traced (hc : c.Everywhere Node.NamesText) {t : String} {us : List Usage}
    (hus : ∀ u ∈ us, ∃ name, u.name = .string name) (s g : Slot) :
    Traced w (c.namedOutcome w (.string t) us s g)
      (c.TypeAnswers (.string t) s ∧ ((∃ e, c.type? (.string t) = .ok (some e)) →
        ∀ u ∈ us, c.Judges (.string t) u s))
      fun y => ∃ n, c.type? (.string t) = .ok (some (.defined n)) ∧ y = ⟨n, s, g⟩ := by
  obtain ⟨entry, hentry⟩ := type?_answers c t
  simp only [namedOutcome, TypeAnswers, hentry]
  have uses := usesOutcome_traced (w := w) hc hus (t := t) s
  rcases entry with _ | (b | n)
  · exact (Traced.ok _ trivial).congr (by simp) (by simp)
  · have type : Traced w (typeOutcome w (.string t) s g (.builtin b))
        (¬(b.AsksNumber ∧ BuiltinType.Beyond s)) fun _ => False :=
      .here (by rw [typeOutcome, answers_map, b.accepts_answers])
    exact (type.andThen uses).congr (by simp) (by simp)
  · exact ((Traced.call ⟨n, s, g⟩).andThen uses).congr (by simp) (by simp)

theorem itemsOutcome_traced (item : Node) (items : List Json) :
    Traced w (itemsOutcome w item items) True
      fun y => ∃ v ∈ items, y = ⟨item, some v, some (.array items)⟩ := by
  have hitems : Traced w (itemsOutcome w item items) (∀ i ∈ items.zipIdx, True)
      fun y => ∃ i ∈ items.zipIdx, y = ⟨item, some i.1, some (.array items)⟩ :=
    .collect fun i _ => (Traced.call ⟨item, some i.1, some (.array items)⟩).under _
  refine hitems.congr (by simp) fun y => ⟨?_, ?_⟩
  · rintro ⟨i, hi, rfl⟩
    exact ⟨i.1, List.fst_mem_of_mem_zipIdx hi, rfl⟩
  · rintro ⟨v, hv, rfl⟩
    rw [← List.zipIdx_map_fst 0 items] at hv
    obtain ⟨i, hi, rfl⟩ := List.mem_map.mp hv
    exact ⟨i, hi, rfl⟩

theorem fieldOutcome_traced (fields : List (String × Json)) (g : Slot) {f : FieldHead × Node}
    (hf : ∃ key, f.1.name = .string key) : Traced w (fieldOutcome w fields g f) True
      fun y => ∃ key v, f.1.name = .string key ∧ lookup key fields = some v ∧
        y = ⟨f.2, some v, g⟩ := by
  obtain ⟨⟨name, optional, default⟩, type⟩ := f
  obtain ⟨key, rfl⟩ := hf
  simp only [fieldOutcome]
  cases hv : lookup key fields with
  | some v => exact ((Traced.call ⟨type, some v, g⟩).under _).congr Iff.rfl (by simp [hv])
  | none =>
    refine (Traced.here (p := True) (iff_of_true ?_ trivial)).congr Iff.rfl (by simp [hv])
    simp only [missingOutcome]
    split <;> simp

/-- A visit is answered exactly if what it asks and what it calls is. -/
theorem step_traced (hc : c.Everywhere Node.NamesText) (hw : c.DecidesConforms w) {x : Call}
    (hx : x.node.Everywhere Node.NamesText) : Traced w (c.step w x) (c.AnswersHere x)
      (c.Calls (fun b => ¬c.Conforms b.slot b.node b.subject) x) := by
  obtain ⟨n, s, g⟩ := x
  have hnames := hx.here
  cases n with
  | named name us =>
    obtain ⟨⟨t, rfl⟩, hus⟩ := hnames
    refine (namedOutcome_traced hc hus s g).congr Iff.rfl fun y => ⟨?_, ?_⟩
    · rintro ⟨n, hn, rfl⟩
      exact .named hn
    · intro hy
      cases hy with
      | named hn => exact ⟨_, hn, rfl⟩
  | nullableNamed name =>
    obtain ⟨t, rfl⟩ := hnames
    by_cases hs : s = some .null
    · subst hs
      refine (Traced.ok [] ?_).congr Iff.rfl fun y => ⟨False.elim, ?_⟩
      · rintro b - ⟨-, k, hk, -⟩
        cases hk
      · intro hy
        cases hy with
        | nullableNamed hs => exact hs rfl
    · simp only [step]
      refine (namedOutcome_traced hc (List.forall_mem_nil _) s g).congr ?_ fun y => ⟨?_, ?_⟩
      · simp [AnswersHere]
      · rintro ⟨n, hn, rfl⟩
        exact .nullableNamed hs hn
      · intro hy
        cases hy with
        | nullableNamed _ hn => exact ⟨_, hn, rfl⟩
  | nullable inner =>
    by_cases hs : s = some .null
    · subst hs
      refine (Traced.ok [] trivial).congr Iff.rfl fun y => ⟨False.elim, fun hy => ?_⟩
      cases hy with
      | nullable hs => exact hs rfl
    · simp only [step]
      refine (Traced.call ⟨inner, s, g⟩).congr Iff.rfl fun y => ⟨?_, ?_⟩
      · rintro rfl
        exact .nullable hs
      · intro hy
        cases hy with
        | nullable => rfl
  | arrayOf item us =>
    rcases s with _ | (_ | _ | _ | _ | items | _)
    case some.array =>
      refine ((usesOutcome_traced hc hnames _).andThen (itemsOutcome_traced item items)).congr
        (by simp [AnswersHere]) fun y => ⟨?_, ?_⟩
      · rintro (h | ⟨v, hv, rfl⟩)
        · exact h.elim
        · exact .item hv
      · intro hy
        cases hy with
        | item hv => exact .inr ⟨_, hv, rfl⟩
    all_goals exact (Traced.ok _ trivial).congr Iff.rfl fun y => ⟨False.elim, by rintro ⟨⟩⟩
  | record declared =>
    rcases s with _ | (_ | _ | _ | _ | _ | fields)
    case some.object =>
      refine (Traced.collect fun f hf => fieldOutcome_traced fields _ (hnames f hf)).congr
        (by simp [AnswersHere]) fun y => ⟨?_, ?_⟩
      · rintro ⟨f, hf, key, v, hkey, hv, rfl⟩
        exact .field hf hkey hv
      · intro hy
        cases hy with
        | field hf hkey hv => exact ⟨_, hf, _, _, hkey, hv, rfl⟩
    all_goals exact (Traced.ok _ trivial).congr Iff.rfl fun y => ⟨False.elim, by rintro ⟨⟩⟩
  | dict key value =>
    rcases s with _ | (_ | _ | _ | _ | _ | fields)
    case some.object =>
      refine (Traced.collect fun e _ => Traced.andThen (Traced.under _ (.call _))
        (Traced.under _ (.call _))).congr (by simp [AnswersHere]) fun y => ⟨?_, ?_⟩
      · rintro ⟨e, he, rfl | rfl⟩
        · exact .key he
        · exact .value he
      · intro hy
        cases hy with
        | key he => exact ⟨_, he, .inl rfl⟩
        | value he => exact ⟨_, he, .inr rfl⟩
    all_goals exact (Traced.ok _ trivial).congr Iff.rfl fun y => ⟨False.elim, by rintro ⟨⟩⟩
  | union members =>
    refine (Traced.any hw).congr Iff.rfl fun y => ⟨?_, ?_⟩
    · rintro ⟨before, n, after, hn, hbefore, rfl⟩
      exact .member hn hbefore
    · intro hy
      cases hy with
      | member hn hbefore => exact ⟨_, _, _, hn, hbefore, rfl⟩
  | intersection members =>
    refine (Traced.collect fun n _ => .call _).congr (by simp [AnswersHere]) fun y => ⟨?_, ?_⟩
    · rintro ⟨n, hn, rfl⟩
      exact .part hn
    · intro hy
      cases hy with
      | part hn => exact ⟨_, hn, rfl⟩
  | conditional condition yes no =>
    simp only [step]
    rcases hg : condition.guard.evaluate g with _ | (_ | _)
    · refine (Traced.any hw).congr Iff.rfl fun y => ⟨?_, ?_⟩
      · rintro ⟨before, n, after, hn, hbefore, rfl⟩
        exact .undecided hg hn hbefore
      · intro hy
        cases hy with
        | yes hg' | no hg' => rw [hg] at hg'; cases hg'
        | undecided _ hn hbefore => exact ⟨_, _, _, hn, hbefore, rfl⟩
    · refine (Traced.call _).congr Iff.rfl fun y => ⟨?_, ?_⟩
      · rintro rfl
        exact .no hg
      · intro hy
        cases hy with
        | no => rfl
        | yes hg' | undecided hg' => rw [hg] at hg'; cases hg'
    · refine (Traced.call _).congr Iff.rfl fun y => ⟨?_, ?_⟩
      · rintro rfl
        exact .yes hg
      · intro hy
        cases hy with
        | yes => rfl
        | no hg' | undecided hg' => rw [hg] at hg'; cases hg'
  | literal v =>
    refine (Traced.here (p := True) (iff_of_true ?_ trivial)).congr Iff.rfl
      fun y => ⟨False.elim, by rintro ⟨⟩⟩
    simp only [step]
    split
    · exact answers_ok _
    · exact answers_ok _
  | absent =>
    cases s <;> exact (Traced.ok _ trivial).congr Iff.rfl fun y => ⟨False.elim, by rintro ⟨⟩⟩

/-! ### Whole walks -/

/-- A walk that is answered has asked nothing without an answer. -/
theorem outcome_answers (hc : c.Everywhere Node.NamesText) {fuel : Nat} {x y : Call}
    {ds : List Diagnostic} (hx : x.node.Everywhere Node.NamesText) (h : c.outcome fuel x = .ok ds)
    (hreaches : c.Reaches x y) : c.AnswersHere y := by
  induction fuel generalizing x ds with
  | zero => cases h
  | succ fuel ih =>
    rw [outcome_succ] at h
    obtain ⟨hhere, hcalls⟩ := (step_traced hc (c.outcome_decides fuel) hx).of_ok h
    rcases Relation.ReflTransGen.cases_head hreaches with rfl | ⟨z, hz, hzy⟩
    · exact hhere
    · obtain ⟨own, hown⟩ := hcalls z hz
      exact ih (hz.everywhere hc hx) hown hzy

/-- A walk that broke off, and not for want of fuel, asked something without an answer. -/
theorem outcome_breaks (hc : c.Everywhere Node.NamesText) {fuel : Nat} {x : Call} {f : Fault}
    (hx : x.node.Everywhere Node.NamesText) (h : c.outcome fuel x = .error f) :
    f = .exhausted ∨ ∃ y, c.Reaches x y ∧ ¬c.AnswersHere y := by
  induction fuel generalizing x with
  | zero => cases h; exact .inl rfl
  | succ fuel ih =>
    rw [outcome_succ] at h
    rcases (step_traced hc (c.outcome_decides fuel) hx).of_error h with hhere | ⟨y, hy, hf⟩
    · exact .inr ⟨x, .refl, hhere⟩
    · rcases ih (hy.everywhere hc hx) hf with hf | ⟨z, hz, hhere⟩
      · exact .inl hf
      · exact .inr ⟨z, .head hy hz, hhere⟩

/-- A walk that does not run out of fuel is answered exactly if all that it asks has an answer. -/
theorem outcome_answers_iff (hc : c.Everywhere Node.NamesText) {fuel : Nat} {x : Call}
    (hx : x.node.Everywhere Node.NamesText) (hne : c.outcome fuel x ≠ .error .exhausted) :
    Answers (c.outcome fuel x) ↔ ∀ y, c.Reaches x y → c.AnswersHere y := by
  constructor
  · rintro ⟨ds, hds⟩ y hy
    exact outcome_answers hc hx hds hy
  · intro hall
    cases ho : c.outcome fuel x with
    | ok ds => exact answers_ok ds
    | error f =>
      rcases outcome_breaks hc hx ho with rfl | ⟨y, hy, hhere⟩
      · exact absurd ho hne
      · exact absurd (hall y hy) hhere

/-! ### Whole validations -/

theorem checkSlot_answers (n : Node) (s : Slot) (path : String) (scope : Scope) :
    Answers (c.checkSlot (m := Except Fault) n s path scope) ↔
      Answers (c.outcome (c.budget n s) ⟨n, s, scope.subject⟩) := by
  rw [checkSlot_eq]
  exact answers_map

theorem checkDocument_answers (name : String) (v : Json) :
    Answers (c.checkDocument (m := Except Fault) name v) ↔
      Answers (c.checkSlot (m := Except Fault) (.named (.string name) []) (some v) rootPath
        (.atRoot (some v))) := by
  rw [checkDocument, answers_bind]
  constructor
  · rintro ⟨ds, hds, -⟩
    exact ⟨ds, hds⟩
  · rintro ⟨ds, hds⟩
    exact ⟨ds, hds, answers_ok _⟩

/-- Only an array or an object as the name of the root cannot be looked up. -/
theorem resolveRoot_fault (c : Catalog) (root : Json) :
    (∃ f, c.resolveRoot root = .error (.fault f)) ↔ Bindings.isKey (c.rootName root) = false := by
  simp only [resolveRoot]
  cases c.rootName root with
  | string name => by_cases h : (c.typeNamed? name).isSome <;> simp [h, Bindings.isKey]
  | _ => simp [Bindings.isKey]

/-- A walk from a root by name is answered exactly if all that it asks has an answer. -/
theorem checkDocument_answers_iff (hc : c.Everywhere Node.NamesText) {name : String} {v : Json}
    (hends : ∃ fuel, c.check (m := Except Fault) fuel (.named (.string name) []) (some v) rootPath
      (.atRoot (some v)) .empty ≠ .error .exhausted) :
    Answers (c.checkDocument (m := Except Fault) name v) ↔
      ∀ x, c.Reaches ⟨.named (.string name) [], some v, some v⟩ x → c.AnswersHere x := by
  obtain ⟨fuel, hfuel⟩ := hends
  rw [check_eq_into] at hfuel
  have hne : c.outcome fuel ⟨.named (.string name) [], some v, (Scope.atRoot (some v)).subject⟩ ≠
      .error .exhausted := fun h => hfuel (by rw [h, Outcome.into_error])
  rw [checkDocument_answers, checkSlot_answers]
  refine outcome_answers_iff hc (.intro ⟨⟨name, rfl⟩, by simp⟩ (by simp [Node.parts])) ?_
  rw [← outcome_budget hne] at hne
  exact hne

/-- A validation that ends comes to an answer exactly if the root can be looked up and all that the
walk asks has an answer. -/
theorem validate_answers_iff {document : Document} {root v : Json}
    (hc : c.Everywhere Node.NamesText) (hread : document.read = .ok v)
    (hends : ∀ name, c.resolveRoot root = .ok name → ∃ fuel, c.check (m := Except Fault) fuel
      (.named (.string name) []) (some v) rootPath (.atRoot (some v)) .empty ≠ .error .exhausted) :
    (∃ ds, c.validate (m := Except Fault) document root = .ok ds) ↔
      Bindings.isKey (c.rootName root) = true ∧ ∀ name, c.resolveRoot root = .ok name →
        ∀ x, c.Reaches ⟨.named (.string name) [], some v, some v⟩ x → c.AnswersHere x := by
  have hfault := c.resolveRoot_fault root
  have hkey (h : ¬∃ f, c.resolveRoot root = .error (.fault f)) :
      Bindings.isKey (c.rootName root) = true := by
    simpa using mt hfault.mpr h
  simp only [validate, hread]
  cases hroot : c.resolveRoot root with
  | error e =>
    cases e with
    | fault f =>
      have hnot : ¬Bindings.isKey (c.rootName root) = true := by simp [hfault.mp ⟨f, hroot⟩]
      exact iff_of_false (by rintro ⟨ds, ⟨⟩⟩) fun h => hnot h.1
    | _ => exact iff_of_true ⟨_, rfl⟩ ⟨hkey (by simp [hroot]), by simp⟩
  | ok name =>
    have hwalk := checkDocument_answers_iff hc (hends name hroot)
    simp only [hkey (by simp [hroot]), true_and, Except.ok.injEq, forall_eq']
    exact hwalk

/-- Counters: whole numbers under another name. -/
def counters : Catalog where
  version := .null
  root := .null
  types := [("Counter", .named (.string "Int") [])]
  validators := []

theorem counters_namesText : counters.Everywhere Node.NamesText := by
  simp only [Everywhere, counters, List.forall_mem_singleton]
  exact .intro ⟨⟨_, rfl⟩, by simp⟩ (by simp [Node.parts])

/-- Nothing that the walk over a small counter asks is without an answer. -/
theorem counters_answers :
    counters.Everywhere Node.NamesText ∧ (Document.text "7").read = .ok (.int 7) ∧
    counters.check (m := Except Fault) 2 (.named (.string "Counter") []) (some (.int 7)) "$"
      (.atRoot (some (.int 7))) .empty = .ok .empty ∧
    counters.validate (m := Except Fault) (.text "7") .null = .ok [] ∧
    ∀ x, counters.Reaches ⟨.named (.string "Counter") [], some (.int 7), some (.int 7)⟩ x →
      counters.AnswersHere x := by
  have read : (Document.text "7").read = .ok (.int 7) := rfl
  have ends : counters.check (m := Except Fault) 2 (.named (.string "Counter") [])
      (some (.int 7)) "$" (.atRoot (some (.int 7))) .empty = .ok .empty := by decide +kernel
  have found : counters.validate (m := Except Fault) (.text "7") .null = .ok [] := by
    decide +kernel
  have root : counters.resolveRoot .null = .ok "Counter" := rfl
  have answers := (validate_answers_iff counters_namesText read fun name h => ⟨2, by
    obtain rfl : "Counter" = name := by simpa [root] using h
    simp [rootPath, ends]⟩).mp ⟨[], found⟩
  exact ⟨counters_namesText, read, ends, found, answers.2 "Counter" root⟩

/-- A one and four hundred zeros. -/
def hugeDigits : List Char := '1' :: List.replicate 400 '0'

/-- A counter beyond every double is read, and the walk over it breaks off for its size. -/
theorem validate_huge_integer :
    counters.Everywhere Node.NamesText ∧
    (∃ v, (Document.text (String.ofList hugeDigits)).read = .ok v) ∧
    counters.validate (m := Except Fault) (.text (String.ofList hugeDigits)) .null =
      .error .tooLarge := by
  have breaks : counters.validate (m := Except Fault) (.text (String.ofList hugeDigits)) .null =
      .error .tooLarge := by
    -- evaluation is on the digits, not on the octets of the text
    rw [validate, Document.read, readStrict, Json.read, String.toList_ofList]
    decide +kernel
  refine ⟨counters_namesText, ?_, breaks⟩
  cases hread : (Document.text (String.ofList hugeDigits)).read with
  | ok v => exact ⟨v, rfl⟩
  | error e =>
    -- text that is not read gives a list
    rw [validate, hread] at breaks
    cases breaks

end Catalog

end DocSchema
