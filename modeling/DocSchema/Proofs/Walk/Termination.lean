import DocSchema.Proofs.Constraint.Ending
import DocSchema.Proofs.Walk.Equivariance
import Mathlib.Logic.Relation

/-!
When every walk ends.

Types may refer to one another, and to themselves, without bounds, as long as no type comes back to
itself on one and the same value: then each value is met at most once under each type, and below an
array, a record or a dictionary (whose keys count as parts of it) the values are smaller. A visit
ends if its calls do (`step_ends`), `need` of a call goes down from visit to visit as long as no type
is entered twice on one value, and `Guarded` says that none is (`outcome_ends`). Main statement:
`check_ends`.
-/

namespace DocSchema.Catalog

/-- The definition of a type refers to another type on the same value. -/
def Refers (c : Catalog) (t u : String) : Prop := ∃ n, lookup t c.types = some n ∧ n.RefersTo u

/-- No type comes back to itself by references on the same value. -/
def Guarded (c : Catalog) : Prop := ∀ t, ¬Relation.TransGen c.Refers t t

variable {c : Catalog} {w : Call → Outcome}

/-- A rank that goes down along references on the same value leaves no way back. -/
theorem guarded_of_rank (rank : String → Nat) (h : ∀ t u, c.Refers t u → rank u < rank t) :
    c.Guarded := by
  have down {t u : String} (htu : Relation.TransGen c.Refers t u) : rank u < rank t := by
    induction htu with
    | single htu => exact h _ _ htu
    | tail _ huv ih => exact Nat.lt_trans (h _ _ huv) ih
  exact fun t ht => Nat.lt_irrefl _ (down ht)

/-! ### One visit -/

section Ends

variable {α : Type} {f : α → Outcome}

theorem ends_under {path : String} {o : Outcome} (h : Ends o) : Ends (o.under path) := ends_map.mpr h

theorem ends_andThen {o t : Outcome} (ho : Ends o) (ht : Ends t) : Ends (o.andThen t) :=
  ho.bind fun _ _ => ends_map.mpr ht

theorem ends_collect : ∀ {l : List α}, (∀ a ∈ l, Ends (f a)) → Ends (collect f l)
  | [], _ => by simp
  | a :: l, h => by
    rw [collect_cons]
    exact ends_andThen (h a List.mem_cons_self)
      (ends_collect fun b hb => h b (List.mem_cons_of_mem a hb))

theorem ends_anyClean : ∀ {l : List α}, (∀ a ∈ l, Ends (f a)) → Ends (anyClean f l)
  | [], _ => by simp [anyClean]
  | a :: l, h => by
    rw [anyClean_cons]
    refine (h a List.mem_cons_self).bind fun ds _ => ?_
    split
    · simp
    · exact ends_anyClean fun b hb => h b (List.mem_cons_of_mem a hb)

end Ends

theorem useOutcome_ends (target : Json) (u : Usage) (s : Slot) : Ends (c.useOutcome target u s) := by
  have verdict (e : ValidatorEntry) : Ends (e.verdict u s) := by
    cases e with
    | builtin k => exact u.resolved_ends.bind fun a _ => k.evaluate_ends s a
    | custom v => exact ends_map.mpr (Bindings.ofArguments_ends _ _ _)
  have hlookup := c.validator?_ends target u.name
  simp only [useOutcome]
  split
  · next f hf => rw [hf] at hlookup; simpa using hlookup
  · simp
  · exact ends_map.mpr (verdict _)

theorem usesOutcome_ends (target : Json) (us : List Usage) (s : Slot) :
    Ends (collect (fun u => c.useOutcome target u s) us) :=
  ends_collect fun u _ => useOutcome_ends target u s

theorem namedOutcome_ends {name : Json} {s g : Slot}
    (h : ∀ n, c.type? name = .ok (some (.defined n)) → Ends (w ⟨n, s, g⟩)) (us : List Usage) :
    Ends (c.namedOutcome w name us s g) := by
  have hlookup := c.type?_ends name
  simp only [namedOutcome]
  rcases hname : c.type? name with f | (_ | (t | n))
  · rw [hname] at hlookup
    simpa using hlookup
  · simp
  · exact ends_andThen (ends_map.mpr (t.accepts_ends s)) (usesOutcome_ends name us s)
  · exact ends_andThen (h n hname) (usesOutcome_ends name us s)

theorem anyOutcome_ends {s g : Slot} {message : String} {members : List Node}
    (h : ∀ before n after, members = before ++ n :: after → Ends (w ⟨n, s, g⟩)) :
    Ends (anyOutcome w s g message members) := by
  refine Ends.bind (ends_anyClean fun n hn => ?_) fun clean _ => ?_
  · obtain ⟨before, after, hsplit⟩ := List.append_of_mem hn
    exact h before n after hsplit
  · cases clean <;> simp [mismatch]

theorem missingOutcome_ends (head : FieldHead) (type : Node) : Ends (missingOutcome head type) := by
  simp only [missingOutcome]
  split <;> simp

/-- A visit ends if its calls do. -/
theorem step_ends {x : Call} (h : ∀ y, c.Calls (fun _ => True) x y → Ends (w y)) :
    Ends (c.step w x) := by
  obtain ⟨n, s, g⟩ := x
  cases n with
  | named name us => exact namedOutcome_ends (fun n hn => h _ (.named hn)) us
  | nullableNamed name =>
    by_cases hs : s = some .null
    · subst hs; exact ends_ok _
    · simp only [step]
      exact namedOutcome_ends (fun n hn => h _ (.nullableNamed hs hn)) []
  | nullable inner =>
    by_cases hs : s = some .null
    · subst hs; exact ends_ok _
    · simp only [step]
      exact h _ (.nullable hs)
  | arrayOf item us =>
    rcases s with _ | (_ | _ | _ | _ | items | _)
    case some.array =>
      refine ends_andThen (usesOutcome_ends _ us _) (ends_collect fun v hv => ends_under ?_)
      exact h _ (.item (List.fst_mem_of_mem_zipIdx hv))
    all_goals exact ends_ok _
  | record declared =>
    rcases s with _ | (_ | _ | _ | _ | _ | fields)
    case some.object =>
      refine ends_collect fun f hf => ?_
      obtain ⟨⟨name, optional, default⟩, type⟩ := f
      cases name with
      | string key =>
        simp only [fieldOutcome]
        cases hv : lookup key fields with
        | some v => exact ends_under (h _ (.field hf rfl hv))
        | none => exact missingOutcome_ends _ type
      | null | bool _ | number _ => exact missingOutcome_ends _ type
      | array _ | object _ => simp [fieldOutcome, Bindings.isKey]
    all_goals exact ends_ok _
  | dict key value =>
    rcases s with _ | (_ | _ | _ | _ | _ | fields)
    case some.object =>
      refine ends_collect fun e he => ?_
      exact ends_andThen (ends_under (h _ (.key he))) (ends_under (h _ (.value he)))
    all_goals exact ends_ok _
  | union members => exact anyOutcome_ends fun _ n _ hn => h _ (.member hn fun _ _ => trivial)
  | intersection members => exact ends_collect fun n hn => h _ (.part hn)
  | conditional condition yes no =>
    simp only [step]
    rcases hg : condition.guard.evaluate g with _ | (_ | _)
    · exact anyOutcome_ends fun _ n _ hn => h _ (.undecided hg hn fun _ _ => trivial)
    · exact h _ (.no hg)
    · exact h _ (.yes hg)
  | literal v =>
    simp only [step]
    split <;> simp [mismatch]
  | absent => cases s <;> exact ends_ok _

/-! ### Whole walks -/

/-- With the fuel it needs a walk ends, if the types entered on the value so far all lead on to the
types that the node refers to. -/
theorem outcome_ends (hc : c.Guarded) (fuel : Nat) : ∀ (entered : List String) (x : Call),
    (∀ t ∈ entered, ∀ u, x.node.RefersTo u → Relation.TransGen c.Refers t u) →
    c.need entered x ≤ fuel → Ends (c.outcome fuel x) := by
  induction fuel with
  | zero =>
    intro entered x _ hneed
    have := x.node.depth_pos
    simp only [need] at hneed
    omega
  | succ fuel ih =>
    intro entered x hentered hneed
    rw [outcome_succ]
    refine step_ends fun y hy => ?_
    rcases hy.level with ⟨hs, hg, hn, hrefers⟩ | ⟨hs, hn⟩ | ⟨t, hrefers, ht, hs, hg⟩
    · have hless : c.need entered y < c.need entered x := need_down hs hn
      exact ih entered y (fun u hu v hv => hentered u hu v (hrefers v hv)) (by omega)
    · have hless : c.need [] y < c.need entered x := need_below entered hs hn
      exact ih [] y (by simp) (by omega)
    · -- a type that was entered before would come back to itself
      have hfresh : t ∉ entered := fun hmem => hc t (hentered t hmem t hrefers)
      have hless : c.need (t :: entered) y < c.need entered x := need_enter hfresh ht hs
      refine ih (t :: entered) y (fun u hu v hv => ?_) (by omega)
      have hdefinition : c.Refers t v := ⟨y.node, ht, hv⟩
      rcases List.mem_cons.mp hu with rfl | hu
      · exact .single hdefinition
      · exact (hentered u hu t hrefers).tail hdefinition

/-- If no type comes back to itself on the same value, every check ends within its budget: with the
budget or more fuel there is an answer, or a fault other than the lack of fuel, and it is always the
same. -/
theorem check_ends (hc : c.Guarded) (n : Node) (s : Slot) (path : String) (scope : Scope)
    (r : Report) {fuel : Nat} (hfuel : c.budget n s ≤ fuel) :
    c.check (m := Except Fault) fuel n s path scope r ≠ .error .exhausted ∧
    c.check (m := Except Fault) fuel n s path scope r = c.checkInto n s path scope r := by
  have hends : Ends (c.outcome fuel ⟨n, s, scope.subject⟩) :=
    outcome_ends hc fuel [] _ (by simp)
      (Nat.le_trans (need_le_budget ⟨n, s, scope.subject⟩) hfuel)
  have hne : c.check (m := Except Fault) fuel n s path scope r ≠ .error .exhausted := by
    rw [check_eq_into]
    exact ends_map.mpr hends
  exact ⟨hne, (c.check_eq_into_budget hne).trans (c.checkInto_eq n s path scope r).symm⟩

/-- Trees that come back to themselves below arrays and dictionaries, also in the keys, whose names
are in turn texts or trees. -/
def namedTrees : Catalog where
  version := .null
  root := .string "Tree"
  types := [
    ("Name", .union [.named (.string "String") [⟨.string "min", [], .int 1⟩],
      .named (.string "Tree") []]),
    ("Tree", .record [
      (⟨.string "kids", true, .null⟩, .arrayOf (.named (.string "Tree") []) []),
      (⟨.string "parts", true, .null⟩,
        .dict (.named (.string "Name") []) (.nullableNamed (.string "Tree")))])]
  validators := []

theorem namedTrees_guarded : namedTrees.Guarded := by
  refine guarded_of_rank (fun t => if t = "Name" then 1 else 0) fun t u h => ?_
  obtain ⟨n, hn, hu⟩ := h
  simp only [namedTrees, lookup] at hn
  split at hn
  · next ht =>
    subst ht
    obtain rfl : _ = n := by simpa using hn
    have hu : u = "String" ∨ u = "Tree" := by
      cases hu with
      | member hmem h =>
        rcases List.mem_cons.mp hmem with rfl | hmem
        · cases h; exact .inl rfl
        · obtain rfl : _ = _ := List.mem_singleton.mp hmem
          cases h; exact .inr rfl
    rcases hu with rfl | rfl <;> decide
  · split at hn
    · -- a tree refers to others only below arrays and dictionaries
      obtain rfl : _ = n := by simpa using hn
      cases hu
    · cases hn

/-- A tree with a leaf that is none, and with an empty name. -/
def brokenTree : Slot := some (.object [
  ("kids", .array [.object [("parts", .object [("a", .object [("kids", .array [.int 7])])])]]),
  ("parts", .object [("", .null)])])

/-- The check of a tree ends within its budget, and goes on giving the same report. -/
theorem check_brokenTree :
    namedTrees.Guarded ∧ namedTrees.budget (.named (.string "Tree") []) brokenTree ≤ 100 ∧
    namedTrees.check (m := Except Fault) 100 (.named (.string "Tree") []) brokenTree "$"
      (.atRoot brokenTree) .empty ≠ .error .exhausted ∧
    namedTrees.checkInto (m := Except Fault) (.named (.string "Tree") []) brokenTree "$"
      (.atRoot brokenTree) .empty = .ok ⟨[
        ⟨"$.kids[0].parts.a.kids[0]", .typeMismatch, "Expected object."⟩,
        ⟨"$.parts.[key:]", .typeMismatch, "Value does not match any union member."⟩]⟩ := by
  have hbudget : namedTrees.budget (.named (.string "Tree") []) brokenTree ≤ 100 := by decide
  have found : namedTrees.check (m := Except Fault) 100 (.named (.string "Tree") []) brokenTree "$"
      (.atRoot brokenTree) .empty = .ok ⟨[
        ⟨"$.kids[0].parts.a.kids[0]", .typeMismatch, "Expected object."⟩,
        ⟨"$.parts.[key:]", .typeMismatch, "Value does not match any union member."⟩]⟩ := by
    decide +kernel
  have ends := check_ends namedTrees_guarded (.named (.string "Tree") []) brokenTree "$"
    (.atRoot brokenTree) .empty hbudget
  exact ⟨namedTrees_guarded, hbudget, ends.1, ends.2 ▸ found⟩

end DocSchema.Catalog
