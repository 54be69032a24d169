import DocSchema.Proofs.Walk.Equivariance

/-!
What it means to conform, and that the walk decides it.

`Conforms` says, without fuel, paths or diagnostics, when what is in a slot conforms to a node under
a subject of guards. It is the least relation with one rule for each way to conform, so a reference
that only leads back to itself conforms to nothing. An outcome *decides* a proposition if it is
clean exactly when the proposition holds, provided it was answered. `step_decides` is one visit,
one case for each kind of node; induction on fuel gives the walk, and the main statement
`conforms_iff_of_check` says it for reports of any check that ends.
-/

namespace DocSchema

/-- The value of a declared field in an object; only text can be a key there. -/
def FieldHead.value? (fields : List (String × Json)) (head : FieldHead) : Option Json :=
  match head.name with
  | .string key => lookup key fields
  | _ => none

namespace Catalog

/-- A constraint does not fail under one use of it: it is known, and its verdict is not false. -/
def Satisfies (c : Catalog) (target : Json) (u : Usage) (s : Slot) : Prop :=
  ∃ e verdict, c.validator? target u.name = .ok (some e) ∧ e.verdict u s = .ok verdict ∧
    verdict ≠ some false

/-- A declared field does not have to be there. -/
def MayBeMissing (f : FieldHead × Node) : Prop :=
  f.1.optional = true ∨ f.1.default.isNull = false ∨ f.2.isAbsent = true

/-- What is in a slot conforms to a node, under what guards are asked about. -/
inductive Conforms (c : Catalog) : Slot → Node → Slot → Prop
  | builtin {s name us g t} (hname : c.type? name = .ok (some (.builtin t)))
      (ht : t.accepts s = .ok true) (hus : ∀ u ∈ us, c.Satisfies name u s) :
    Conforms c s (.named name us) g
  | defined {s name us g n} (hname : c.type? name = .ok (some (.defined n)))
      (hn : Conforms c s n g) (hus : ∀ u ∈ us, c.Satisfies name u s) :
    Conforms c s (.named name us) g
  | nullName {name g} : Conforms c (some .null) (.nullableNamed name) g
  | name {s name g} (h : Conforms c s (.named name []) g) : Conforms c s (.nullableNamed name) g
  | null {inner g} : Conforms c (some .null) (.nullable inner) g
  | inner {s inner g} (h : Conforms c s inner g) : Conforms c s (.nullable inner) g
  | array {items item us g}
      (hus : ∀ u ∈ us, c.Satisfies (.string "Array") u (some (.array items)))
      (hitems : ∀ v ∈ items, Conforms c (some v) item (some (.array items))) :
    Conforms c (some (.array items)) (.arrayOf item us) g
  | record {fields declared g}
      (hpresent : ∀ f ∈ declared, ∀ v, f.1.value? fields = some v →
        Conforms c (some v) f.2 (some (.object fields)))
      (hmissing : ∀ f ∈ declared, f.1.value? fields = none → MayBeMissing f) :
    Conforms c (some (.object fields)) (.record declared) g
  | dict {fields key value g}
      (hkeys : ∀ e ∈ fields, Conforms c (some (.string e.1)) key (some (.object fields)))
      (hvalues : ∀ e ∈ fields, Conforms c (some e.2) value (some (.object fields))) :
    Conforms c (some (.object fields)) (.dict key value) g
  | member {s members n g} (hn : n ∈ members) (h : Conforms c s n g) :
    Conforms c s (.union members) g
  | parts {s members g} (h : ∀ n ∈ members, Conforms c s n g) :
    Conforms c s (.intersection members) g
  | yes {s condition yes no g} (hg : condition.guard.evaluate g = some true)
      (h : Conforms c s yes g) : Conforms c s (.conditional condition yes no) g
  | no {s condition yes no g} (hg : condition.guard.evaluate g = some false)
      (h : Conforms c s no g) : Conforms c s (.conditional condition yes no) g
  | either {s condition yes no n g} (hg : condition.guard.evaluate g = none)
      (hn : n ∈ [yes, no]) (h : Conforms c s n g) : Conforms c s (.conditional condition yes no) g
  | literal {s v g} (h : s.holds v = true) : Conforms c s (.literal v) g
  | absent {g} : Conforms c none .absent g

/-! ### The rules, backwards -/

section Inversion

variable {c : Catalog} {s g : Slot}

theorem conforms_named {name : Json} {us : List Usage} : c.Conforms s (.named name us) g ↔
    ((∃ t, c.type? name = .ok (some (.builtin t)) ∧ t.accepts s = .ok true) ∨
      ∃ n, c.type? name = .ok (some (.defined n)) ∧ c.Conforms s n g) ∧
    ∀ u ∈ us, c.Satisfies name u s := by
  constructor
  · intro h
    cases h with
    | builtin hname ht hus => exact ⟨.inl ⟨_, hname, ht⟩, hus⟩
    | defined hname hn hus => exact ⟨.inr ⟨_, hname, hn⟩, hus⟩
  · rintro ⟨⟨t, hname, ht⟩ | ⟨n, hname, hn⟩, hus⟩
    · exact .builtin hname ht hus
    · exact .defined hname hn hus

theorem conforms_nullableNamed {name : Json} : c.Conforms s (.nullableNamed name) g ↔
    s = some .null ∨ c.Conforms s (.named name []) g := by
  constructor
  · intro h
    cases h with
    | nullName => exact .inl rfl
    | name h => exact .inr h
  · rintro (rfl | h)
    · exact .nullName
    · exact .name h

theorem conforms_nullable {inner : Node} : c.Conforms s (.nullable inner) g ↔
    s = some .null ∨ c.Conforms s inner g := by
  constructor
  · intro h
    cases h with
    | null => exact .inl rfl
    | inner h => exact .inr h
  · rintro (rfl | h)
    · exact .null
    · exact .inner h

theorem conforms_arrayOf {items : List Json} {item : Node} {us : List Usage} :
    c.Conforms (some (.array items)) (.arrayOf item us) g ↔
      (∀ u ∈ us, c.Satisfies (.string "Array") u (some (.array items))) ∧
      ∀ v ∈ items, c.Conforms (some v) item (some (.array items)) := by
  constructor
  · intro h
    cases h with
    | array hus hitems => exact ⟨hus, hitems⟩
  · rintro ⟨hus, hitems⟩
    exact .array hus hitems

/-- Each declared field is there and conforms, or is not there and does not have to be. -/
theorem conforms_record {fields : List (String × Json)} {declared : List (FieldHead × Node)} :
    c.Conforms (some (.object fields)) (.record declared) g ↔ ∀ f ∈ declared,
      (∃ v, f.1.value? fields = some v ∧ c.Conforms (some v) f.2 (some (.object fields))) ∨
      (f.1.value? fields = none ∧ MayBeMissing f) := by
  constructor
  · intro h f hf
    cases h with
    | record hpresent hmissing =>
      cases hv : f.1.value? fields with
      | none => exact .inr ⟨rfl, hmissing f hf hv⟩
      | some v => exact .inl ⟨v, rfl, hpresent f hf v hv⟩
  · intro h
    refine .record (fun f hf v hv => ?_) (fun f hf hnone => ?_)
    · rcases h f hf with ⟨w, hw, hconf⟩ | ⟨hnone, -⟩
      · obtain rfl : v = w := by rw [hv] at hw; simpa using hw
        exact hconf
      · rw [hv] at hnone; cases hnone
    · rcases h f hf with ⟨w, hw, -⟩ | ⟨-, hmay⟩
      · rw [hnone] at hw; cases hw
      · exact hmay

theorem conforms_dict {fields : List (String × Json)} {key value : Node} :
    c.Conforms (some (.object fields)) (.dict key value) g ↔ ∀ e ∈ fields,
      c.Conforms (some (.string e.1)) key (some (.object fields)) ∧
      c.Conforms (some e.2) value (some (.object fields)) := by
  constructor
  · intro h e he
    cases h with
    | dict hkeys hvalues => exact ⟨hkeys e he, hvalues e he⟩
  · intro h
    exact .dict (fun e he => (h e he).1) (fun e he => (h e he).2)

theorem conforms_union {members : List Node} :
    c.Conforms s (.union members) g ↔ ∃ n ∈ members, c.Conforms s n g := by
  constructor
  · intro h
    cases h with
    | member hn h => exact ⟨_, hn, h⟩
  · rintro ⟨n, hn, h⟩
    exact .member hn h

theorem conforms_intersection {members : List Node} :
    c.Conforms s (.intersection members) g ↔ ∀ n ∈ members, c.Conforms s n g := by
  constructor
  · intro h
    cases h with
    | parts h => exact h
  · exact .parts

theorem conforms_conditional {condition : Condition} {yes no : Node} :
    c.Conforms s (.conditional condition yes no) g ↔
      match condition.guard.evaluate g with
      | some true => c.Conforms s yes g
      | some false => c.Conforms s no g
      | none => ∃ n ∈ [yes, no], c.Conforms s n g := by
  constructor
  · intro h
    cases h with
    | yes hg h | no hg h => rw [hg]; exact h
    | either hg hn h => rw [hg]; exact ⟨_, hn, h⟩
  · intro h
    split at h
    · next hg => exact .yes hg h
    · next hg => exact .no hg h
    · next hg =>
      obtain ⟨n, hn, h⟩ := h
      exact .either hg hn h

theorem conforms_literal {v : Json} : c.Conforms s (.literal v) g ↔ s.holds v = true := by
  constructor
  · rintro ⟨⟩
    assumption
  · exact .literal

theorem conforms_absent : c.Conforms s .absent g ↔ s = none := by
  constructor
  · rintro ⟨⟩
    rfl
  · rintro rfl
    exact .absent

end Inversion

/-! ### Outcomes that decide -/

/-- Where it is answered, the outcome is clean exactly if the proposition holds. -/
def Decides (o : Outcome) (p : Prop) : Prop := ∀ ds, o = .ok ds → (ds = [] ↔ p)

namespace Decides

variable {o t : Outcome} {p q : Prop} {w : Call → Outcome} {s g : Slot}

theorem congr (h : Decides o p) (hpq : p ↔ q) : Decides o q := fun ds hds => (h ds hds).trans hpq

theorem error (f : Fault) : Decides (.error f) p := fun _ h => by cases h

theorem clean (h : p) : Decides (.ok []) p := by
  intro ds hds
  obtain rfl : [] = ds := by simpa using hds
  simp [h]

theorem single (d : Diagnostic) (h : ¬p) : Decides (.ok [d]) p := by
  intro ds hds
  obtain rfl : [d] = ds := by simpa using hds
  simp [h]

theorem under (path : String) (h : Decides o p) : Decides (o.under path) p := by
  intro ds hds
  obtain ⟨own, hown, rfl⟩ := Outcome.under_eq_ok.mp hds
  rw [List.map_eq_nil_iff]
  exact h own hown

theorem andThen (ho : Decides o p) (ht : Decides t q) : Decides (o.andThen t) (p ∧ q) := by
  intro ds hds
  obtain ⟨own, others, hown, hothers, rfl⟩ := Outcome.andThen_eq_ok.mp hds
  rw [List.append_eq_nil_iff, ho own hown, ht others hothers]

theorem collect {α : Type} {f : α → Outcome} {p : α → Prop} : ∀ {l : List α},
    (∀ a ∈ l, Decides (f a) (p a)) → Decides (DocSchema.collect f l) (∀ a ∈ l, p a)
  | [], _ => clean (by simp)
  | a :: l, h =>
    ((h a List.mem_cons_self).andThen (collect fun b hb => h b (List.mem_cons_of_mem a hb))).congr
      (List.forall_mem_cons).symm

/-- Of several nodes one has to conform. -/
theorem any {message : String} {members : List Node} {p : Node → Prop}
    (h : ∀ n ∈ members, Decides (w ⟨n, s, g⟩) (p n)) :
    Decides (anyOutcome w s g message members) (∃ n ∈ members, p n) := by
  simp only [anyOutcome]
  cases hany : anyClean (fun n => w ⟨n, s, g⟩) members with
  | error f => exact error f
  | ok found =>
    cases found with
    | true =>
      obtain ⟨before, n, after, rfl, hn, -⟩ := anyClean_eq_true hany
      have hmem : n ∈ before ++ n :: after := List.mem_append_right _ List.mem_cons_self
      exact clean ⟨n, hmem, (h n hmem [] hn).mp rfl⟩
    | false =>
      refine single _ ?_
      rintro ⟨n, hmem, hp⟩
      obtain ⟨d, ds, hn⟩ := anyClean_eq_false hany n hmem
      exact absurd ((h n hmem _ hn).mpr hp) (List.cons_ne_nil d ds)

end Decides

/-! ### One visit decides -/

variable {c : Catalog} {w : Call → Outcome}

/-- All answers decide conformance. -/
def DecidesConforms (c : Catalog) (w : Call → Outcome) : Prop :=
  ∀ x, Decides (w x) (c.Conforms x.slot x.node x.subject)

theorem useOutcome_decides (target : Json) (u : Usage) (s : Slot) :
    Decides (c.useOutcome target u s) (c.Satisfies target u s) := by
  simp only [useOutcome, Satisfies]
  rcases c.validator? target u.name with f | (_ | e)
  · exact .error f
  · exact .single _ (by simp)
  · dsimp only
    cases hv : e.verdict u s with
    | error f => exact .error f
    | ok verdict =>
      simp only [Except.map, unlessFalse]
      split
      · next hfalse => exact .single _ (by simp [hv, hfalse])
      · next htrue => exact .clean ⟨e, verdict, rfl, hv, htrue⟩

theorem usesOutcome_decides (target : Json) (us : List Usage) (s : Slot) :
    Decides (collect (fun u => c.useOutcome target u s) us) (∀ u ∈ us, c.Satisfies target u s) :=
  .collect fun u _ => useOutcome_decides target u s

theorem typeOutcome_decides (hw : c.DecidesConforms w) (name : Json) (s g : Slot) :
    ∀ e : TypeEntry, Decides (typeOutcome w name s g e)
      (match e with
      | .builtin t => t.accepts s = .ok true
      | .defined n => c.Conforms s n g)
  | .defined n => hw ⟨n, s, g⟩
  | .builtin t => by
    simp only [typeOutcome]
    rcases t.accepts s with f | (_ | _)
    · exact .error f
    · exact .single _ (by simp)
    · exact .clean rfl

theorem namedOutcome_decides (hw : c.DecidesConforms w) (name : Json) (us : List Usage)
    (s g : Slot) : Decides (c.namedOutcome w name us s g) (c.Conforms s (.named name us) g) := by
  simp only [namedOutcome]
  rcases hname : c.type? name with f | (_ | e)
  · exact .error f
  · exact .single _ (by simp [conforms_named, hname])
  · refine ((typeOutcome_decides hw name s g e).andThen (usesOutcome_decides name us s)).congr ?_
    cases e <;> simp [conforms_named, hname]

theorem missingOutcome_decides (f : FieldHead × Node) :
    Decides (missingOutcome f.1 f.2) (MayBeMissing f) := by
  simp only [missingOutcome]
  split
  · next h => exact .clean (by simpa [MayBeMissing, or_assoc] using h)
  · next h => exact .single _ (by simpa [MayBeMissing, or_assoc] using h)

theorem fieldOutcome_decides (hw : c.DecidesConforms w) (fields : List (String × Json)) (g : Slot)
    (f : FieldHead × Node) : Decides (fieldOutcome w fields g f)
      ((∃ v, f.1.value? fields = some v ∧ c.Conforms (some v) f.2 g) ∨
        (f.1.value? fields = none ∧ MayBeMissing f)) := by
  obtain ⟨⟨name, optional, default⟩, type⟩ := f
  have absent (hnone : FieldHead.value? fields ⟨name, optional, default⟩ = none) :
      Decides (missingOutcome ⟨name, optional, default⟩ type) _ :=
    (missingOutcome_decides (⟨name, optional, default⟩, type)).congr
      (q := (∃ v, FieldHead.value? fields ⟨name, optional, default⟩ = some v ∧
          c.Conforms (some v) type g) ∨
        (FieldHead.value? fields ⟨name, optional, default⟩ = none ∧
          MayBeMissing (⟨name, optional, default⟩, type))) (by simp [hnone])
  cases name with
  | string key =>
    simp only [fieldOutcome]
    cases hv : lookup key fields with
    | some v =>
      exact (Decides.under _ (hw ⟨type, some v, g⟩)).congr (by simp [FieldHead.value?, hv])
    | none => exact absent hv
  | null | bool _ | number _ => exact absent rfl
  | array _ | object _ => exact .error _

theorem itemsOutcome_decides (hw : c.DecidesConforms w) (item : Node) (items : List Json) :
    Decides (itemsOutcome w item items)
      (∀ v ∈ items, c.Conforms (some v) item (some (.array items))) := by
  have hitems : Decides (itemsOutcome w item items)
      (∀ x ∈ items.zipIdx, c.Conforms (some x.1) item (some (.array items))) :=
    .collect fun x _ => (hw ⟨item, some x.1, some (.array items)⟩).under _
  refine hitems.congr ?_
  rw [← List.zipIdx_map_fst 0 items, List.forall_mem_map, List.zipIdx_map_fst]

/-- One visit decides conformance if its calls do. -/
theorem step_decides (hw : c.DecidesConforms w) : c.DecidesConforms (c.step w) := by
  rintro ⟨n, s, g⟩
  cases n with
  | named name us => exact namedOutcome_decides hw name us s g
  | nullableNamed name =>
    by_cases hs : s = some .null
    · subst hs
      exact .clean .nullName
    · simp only [step]
      exact (namedOutcome_decides hw name [] s g).congr (by simp [conforms_nullableNamed, hs])
  | nullable inner =>
    by_cases hs : s = some .null
    · subst hs
      exact .clean .null
    · simp only [step]
      exact (hw ⟨inner, s, g⟩).congr (by simp [conforms_nullable, hs])
  | arrayOf item us =>
    rcases s with _ | (_ | _ | _ | _ | items | _)
    case some.array =>
      refine ((usesOutcome_decides _ us _).andThen (itemsOutcome_decides hw item items)).congr ?_
      exact conforms_arrayOf.symm
    all_goals exact .single _ (by rintro ⟨⟩)
  | record declared =>
    rcases s with _ | (_ | _ | _ | _ | _ | fields)
    case some.object =>
      exact (Decides.collect fun f _ => fieldOutcome_decides hw fields _ f).congr
        conforms_record.symm
    all_goals exact .single _ (by rintro ⟨⟩)
  | dict key value =>
    rcases s with _ | (_ | _ | _ | _ | _ | fields)
    case some.object =>
      refine (Decides.collect fun e _ => ?_).congr conforms_dict.symm
      exact (Decides.under _ (hw ⟨key, _, _⟩)).andThen (Decides.under _ (hw ⟨value, _, _⟩))
    all_goals exact .single _ (by rintro ⟨⟩)
  | union members =>
    exact (Decides.any fun n _ => hw ⟨n, s, g⟩).congr conforms_union.symm
  | intersection members =>
    exact (Decides.collect fun n _ => hw ⟨n, s, g⟩).congr conforms_intersection.symm
  | conditional condition yes no =>
    simp only [step]
    cases hg : condition.guard.evaluate g with
    | none =>
      exact (Decides.any fun n _ => hw ⟨n, s, g⟩).congr (by rw [conforms_conditional, hg])
    | some b =>
      cases b with
      | true => exact (hw ⟨yes, s, g⟩).congr (by rw [conforms_conditional, hg])
      | false => exact (hw ⟨no, s, g⟩).congr (by rw [conforms_conditional, hg])
  | literal v =>
    simp only [step]
    split
    · next h => exact .clean (conforms_literal.mpr h)
    · next h => exact .single _ (mt conforms_literal.mp h)
  | absent =>
    cases s with
    | none => exact .clean (conforms_absent.mpr rfl)
    | some v => exact .single _ (mt conforms_absent.mp (Option.some_ne_none v))

/-- The walk decides conformance with any fuel. -/
theorem outcome_decides (c : Catalog) (fuel : Nat) : c.DecidesConforms (c.outcome fuel) := by
  induction fuel with
  | zero => exact fun _ => .error _
  | succ fuel ih =>
    intro x
    rw [outcome_succ]
    exact step_decides ih x

/-! ### The walk decides -/

/-- A check that ends reports nothing exactly if what is in the slot conforms, and validity is then
answered, by the same. -/
theorem conforms_iff_of_check {c : Catalog} {fuel : Nat} {n : Node} {s : Slot} {path : String}
    {scope : Scope} {r r' : Report}
    (h : c.check (m := Except Fault) fuel n s path scope r = .ok r') :
    (r'.entries = r.entries ↔ c.Conforms s n scope.subject) ∧
    ∃ valid, c.isValid (m := Except Fault) n s scope = .ok valid ∧
      (valid = true ↔ c.Conforms s n scope.subject) := by
  have hne : c.check (m := Except Fault) fuel n s path scope r ≠ .error .exhausted := by
    rw [h]
    simp
  rw [c.check_eq_into_budget hne] at h
  obtain ⟨ds, hds⟩ : ∃ ds, c.outcome (c.budget n s) ⟨n, s, scope.subject⟩ = .ok ds := by
    cases ho : c.outcome (c.budget n s) ⟨n, s, scope.subject⟩ with
    | error f => rw [ho] at h; cases h
    | ok ds => exact ⟨ds, rfl⟩
  have hdecides : ds = [] ↔ c.Conforms s n scope.subject := c.outcome_decides _ _ ds hds
  refine ⟨?_, ds.isEmpty, by rw [isValid_eq, hds]; rfl, by rw [List.isEmpty_iff, hdecides]⟩
  rw [hds] at h
  obtain rfl : r.addAll (ds.map (Diagnostic.under path)) = r' := by
    simpa [Outcome.into, Except.map] using h
  rw [Report.entries_addAll, List.append_right_eq_self, List.map_eq_nil_iff]
  exact hdecides

/-- Trees with a label, which is a whole number or a text that is not empty. -/
def labelledTrees : Catalog where
  version := .null
  root := .string "Tree"
  types := [("Tree", .record
    [(⟨.string "label", false, .null⟩,
      .union [.named (.string "Int") [], .named (.string "String") [⟨.string "min", [], .int 1⟩]]),
    (⟨.string "kids", true, .null⟩, .arrayOf (.named (.string "Tree") []) [])])]
  validators := []

/-- A tree with one branch, whose label is given. -/
def oneBranch (label : String) : Slot :=
  some (.object [("label", .int 7), ("kids", .array [.object [("label", .string label)]])])

/-- A label on a branch decides whether the tree conforms. -/
theorem conforms_oneBranch :
    (labelledTrees.check (m := Except Fault) 8 (.named (.string "Tree") []) (oneBranch "a") "$"
      (.atRoot (oneBranch "a")) .empty = .ok .empty ∧
      labelledTrees.Conforms (oneBranch "a") (.named (.string "Tree") []) (oneBranch "a")) ∧
    (labelledTrees.check (m := Except Fault) 8 (.named (.string "Tree") []) (oneBranch "") "$"
      (.atRoot (oneBranch "")) .empty = .ok ⟨[⟨"$.kids[0].label", .typeMismatch,
        "Value does not match any union member."⟩]⟩ ∧
      ¬labelledTrees.Conforms (oneBranch "") (.named (.string "Tree") []) (oneBranch "")) := by
  have clean : labelledTrees.check (m := Except Fault) 8 (.named (.string "Tree") [])
      (oneBranch "a") "$" (.atRoot (oneBranch "a")) .empty = .ok .empty := by decide +kernel
  have found : labelledTrees.check (m := Except Fault) 8 (.named (.string "Tree") [])
      (oneBranch "") "$" (.atRoot (oneBranch "")) .empty = .ok ⟨[⟨"$.kids[0].label",
        .typeMismatch, "Value does not match any union member."⟩]⟩ := by decide +kernel
  refine ⟨⟨clean, (conforms_iff_of_check clean).1.mp rfl⟩, found, fun h => ?_⟩
  exact absurd ((conforms_iff_of_check found).1.mpr h) (by simp [Report.empty])

end Catalog

end DocSchema
