import DocSchema.Proofs.Constraint.Operand
import DocSchema.Proofs.Walk.Conformance
import DocSchema.Proofs.Walk.Context

/-!
Wider nodes in contexts.

A node is wider than another one if it accepts every value that the other one accepts. `Yields` says
so of two outcomes: where the first one is clean, the second one has nothing to report. A fault says
nothing either way, and that is what makes the relation a congruence (`yields_congruence`): a union
that gets past a member which used to be rejected and now breaks off has no answer at all. Frame by
frame the relation is kept in every context (`Wider.plug`). A record looks at the node of a missing
field without visiting it, so a type that is `absent` may not be widened there to one that is not.
Main statement: `isValid_plug`.
-/

namespace DocSchema

/-- The second outcome has nothing to report where the first one is clean. -/
def Yields (o t : Outcome) : Prop := o = .ok [] → ∀ ds, t = .ok ds → ds = []

namespace Yields

variable {o t o' t' : Outcome} {w w' : Call → Outcome} {s s' g g' : Slot} {message : String}

theorem refl (o : Outcome) : Yields o o := by
  intro ho ds hds
  rw [ho] at hds
  simpa using hds.symm

theorem under (path : String) (h : Yields o o') : Yields (o.under path) (o'.under path) := by
  intro ho ds hds
  obtain ⟨own, hown, hnil⟩ := Outcome.under_eq_ok.mp ho
  obtain ⟨own', hown', rfl⟩ := Outcome.under_eq_ok.mp hds
  obtain rfl : own = [] := by simpa using hnil.symm
  rw [h hown own' hown', List.map_nil]

theorem andThen (h : Yields o o') (h' : Yields t t') : Yields (o.andThen t) (o'.andThen t') := by
  intro hot ds hds
  obtain ⟨own, others, ho, ht, hnil⟩ := Outcome.andThen_eq_ok.mp hot
  obtain ⟨own', others', ho', ht', rfl⟩ := Outcome.andThen_eq_ok.mp hds
  obtain ⟨rfl, rfl⟩ := List.append_eq_nil_iff.mp hnil.symm
  rw [h ho own' ho', h' ht others' ht', List.append_nil]

/-- If a part on the left is clean, then on the right one is, or one breaks off. -/
theorem anyClean {α β : Type} {f : α → Outcome} {f' : β → Outcome} {l : List α} {l' : List β}
    (h : List.Forall₂ (fun a b => Yields (f a) (f' b)) l l')
    (hl : DocSchema.anyClean f l = .ok true) : DocSchema.anyClean f' l' ≠ .ok false := by
  induction h with
  | nil => cases hl
  | @cons a b _ _ hab _ ih =>
    intro hl'
    rcases anyClean_cons_eq hl' with ⟨e, -, he⟩ | ⟨-, htrue⟩ | ⟨d, ds, hb, hrest'⟩
    · cases he
    · cases htrue
    -- the first part on the right is rejected, so the one on the left is not clean
    rcases anyClean_cons_eq hl with ⟨e, -, he⟩ | ⟨ha, -⟩ | ⟨-, -, -, hrest⟩
    · cases he
    · exact List.cons_ne_nil d ds (hab ha _ hb)
    · exact ih hrest hrest'

theorem any {w w' : Call → Outcome} {s s' g g' : Slot} {message : String}
    {members members' : List Node}
    (h : List.Forall₂ (fun n n' => Yields (w ⟨n, s, g⟩) (w' ⟨n', s', g'⟩)) members members') :
    Yields (Catalog.anyOutcome w s g message members)
      (Catalog.anyOutcome w' s' g' message members') := by
  intro ho ds hds
  simp only [Catalog.anyOutcome] at ho hds
  rcases hl : DocSchema.anyClean (fun n => w ⟨n, s, g⟩) members with f | (_ | _)
  · rw [hl] at ho; cases ho
  · rw [hl] at ho; cases ho
  · rcases hl' : DocSchema.anyClean (fun n => w' ⟨n, s', g'⟩) members' with f | (_ | _)
    · rw [hl'] at hds; cases hds
    · exact absurd hl' (anyClean h hl)
    · rw [hl'] at hds; cases hds; rfl

end Yields

theorem yields_congruence : Congruence Yields := ⟨.refl, .under, .andThen, .any⟩

namespace Catalog

variable {c : Catalog} {a b : Node}

/-- Where the first node accepts a value, the second one has nothing to report. -/
def Wider (c : Catalog) (a b : Node) : Prop := ∀ j (v : Json) g,
  Yields (c.outcome j ⟨a, some v, g⟩) (c.outcome j ⟨b, some v, g⟩)

/-- There is a value wherever a visit to a value leads. -/
theorem Calls.isSome {rejected : Call → Prop} {x y : Call} (h : c.Calls rejected x y)
    (hx : x.slot.isSome = true) : y.slot.isSome = true := by
  cases h <;> first | rfl | exact hx

/-- A type that may be missing may be so after it was widened. -/
theorem missingOutcome_yields (h : a.isAbsent = true → b.isAbsent = true) (head : FieldHead) :
    Yields (missingOutcome head a) (missingOutcome head b) := by
  intro ha ds hb
  simp only [missingOutcome] at ha hb
  split at hb
  · cases hb; rfl
  · next hmissing =>
    split at ha
    · next hmay => simp_all
    · cases ha

theorem Wider.fill (h : c.Wider a b) {f : Frame}
    (hf : f.IsField → a.isAbsent = true → b.isAbsent = true) : c.Wider (f.fill a) (f.fill b) := by
  intro j v g
  cases j with
  | zero =>
    intro (hclean : (Except.error .exhausted : Outcome) = .ok [])
    cases hclean
  | succ j =>
    rw [outcome_succ, outcome_succ]
    refine yields_congruence.fill (fun y => .refl _) (fun s p hcall => ?_)
      fun hfield head => missingOutcome_yields (hf hfield) head
    obtain ⟨u, rfl⟩ := Option.isSome_iff_exists.mp (hcall.isSome rfl)
    exact h j u p

/-- Frame by frame, a node stays wider in every context. -/
theorem Wider.plug : ∀ {k : Context} {a b : Node}, c.Wider a b →
    (k.AtField → a.isAbsent = true → b.isAbsent = true) → c.Wider (k.plug a) (k.plug b)
  | [], _, _, h, _ => h
  | f :: _, _, _, h, hk =>
    (h.fill hk).plug fun _ => by rw [f.isAbsent_fill, f.isAbsent_fill]; exact id

/-! ### Validity -/

theorem isValid_eq_true {n : Node} {s : Slot} {scope : Scope} :
    c.isValid (m := Except Fault) n s scope = .ok true ↔
      c.outcome (c.budget n s) ⟨n, s, scope.subject⟩ = .ok [] := by
  rw [isValid_eq]
  rcases c.outcome (c.budget n s) ⟨n, s, scope.subject⟩ with f | (_ | _) <;> simp

/-- A node that is wider by its answers is so with any fuel. -/
theorem wider_of_isValid
    (h : ∀ (v : Json) (scope : Scope), c.isValid (m := Except Fault) a (some v) scope = .ok true →
      c.isValid (m := Except Fault) b (some v) scope ≠ .ok false) : c.Wider a b := by
  intro j v g ha ds hb
  have hbudget {n : Node} {own : List Diagnostic} (hn : c.outcome j ⟨n, some v, g⟩ = .ok own) :
      c.outcome (c.budget n (some v)) ⟨n, some v, g⟩ = .ok own := by
    rw [← hn]
    exact outcome_budget (by simp [hn])
  have hb' : c.isValid (m := Except Fault) b (some v) (.atRoot g) = .ok ds.isEmpty := by
    rw [isValid_eq]
    exact congrArg (Except.map List.isEmpty) (hbudget hb)
  have hne := h v (.atRoot g) (isValid_eq_true.mpr (hbudget ha))
  rw [hb'] at hne
  simpa using hne

/-- Widening a type never makes a value invalid: if every value that one node accepts is not
rejected by another one, then in every context that is so of the two, wherever both are answered.
The one exception is the type of a record field, where `absent` may not be widened to a type that a
missing field has to have. -/
theorem isValid_plug (c : Catalog) {a b : Node}
    (hab : ∀ (v : Json) (scope : Scope), c.isValid (m := Except Fault) a (some v) scope = .ok true →
      c.isValid (m := Except Fault) b (some v) scope ≠ .ok false)
    (k : Context) (hk : k.AtField → a.isAbsent = true → b.isAbsent = true) (v : Json)
    (scope : Scope) (ha : c.isValid (m := Except Fault) (k.plug a) (some v) scope = .ok true)
    (hb : Answers (c.isValid (m := Except Fault) (k.plug b) (some v) scope)) :
    c.isValid (m := Except Fault) (k.plug b) (some v) scope = .ok true := by
  have hwider : c.Wider (k.plug a) (k.plug b) := (wider_of_isValid hab).plug hk
  rw [isValid_eq_true] at ha ⊢
  rw [isValid_eq, answers_map] at hb
  obtain ⟨ds, hds⟩ := hb
  -- both answers are found with the fuel of either
  have more {n : Node} {own : List Diagnostic} {j : Nat} (hle : c.budget n (some v) ≤ j)
      (hn : c.outcome (c.budget n (some v)) ⟨n, some v, scope.subject⟩ = .ok own) :
      c.outcome j ⟨n, some v, scope.subject⟩ = .ok own := by
    rw [← hn]
    exact c.outcome_extends hle _ (by simp [hn])
  have hnil := hwider _ v scope.subject (more (Nat.le_max_left _ _) ha) ds
    (more (Nat.le_max_right _ _) hds)
  rw [hds, hnil]

/-- A node that conforms wherever another one does is not rejected where that one is accepted. -/
theorem isValid_ne_false_of_conforms {s : Slot} {scope : Scope}
    (hab : c.Conforms s a scope.subject → c.Conforms s b scope.subject)
    (ha : c.isValid (m := Except Fault) a s scope = .ok true) :
    c.isValid (m := Except Fault) b s scope ≠ .ok false := by
  have hconforms := hab ((c.outcome_decides _ ⟨a, s, scope.subject⟩ [] (isValid_eq_true.mp ha)).mp rfl)
  intro hb
  rw [isValid_eq] at hb
  rcases hds : c.outcome (c.budget b s) ⟨b, s, scope.subject⟩ with f | ds
  · rw [hds] at hb; cases hb
  · rw [hds, (c.outcome_decides _ ⟨b, s, scope.subject⟩ ds hds).mpr hconforms] at hb
    cases hb

/-- The type of a part number, and one that allows texts as well. -/
def partNumber : Node := .named (.string "Int") [⟨.string "min", [], .int 1⟩]

def partName : Node := .union [.literal .null, partNumber, .named (.string "String") []]

/-- Boxes of parts, each with a number or a list of numbers where it is known. -/
def boxes : Context :=
  [.item [⟨.string "unique", [], .null⟩], .member [.named (.string "Bool") []] [],
    .field [(⟨.string "label", true, .null⟩, .named (.string "String") [])]
      ⟨.string "parts", false, .null⟩ [], .nullable, .value (.named (.string "String") [])]

/-- Two boxes, one of them empty. -/
def twoBoxes : Json := .object [("left", .null),
  ("right", .object [("parts", .array [.int 7, .int 12]), ("weight", .int 3)])]

/-- Boxes of part numbers are boxes of part names. -/
theorem isValid_twoBoxes :
    (∀ (v : Json) (scope : Scope),
      Catalog.empty.isValid (m := Except Fault) partNumber (some v) scope = .ok true →
        Catalog.empty.isValid (m := Except Fault) partName (some v) scope ≠ .ok false) ∧
    partNumber.isAbsent = false ∧
    Catalog.empty.isValid (m := Except Fault) (boxes.plug partNumber) (some twoBoxes)
      (.atRoot (some twoBoxes)) = .ok true ∧
    Catalog.empty.isValid (m := Except Fault) (boxes.plug partName) (some twoBoxes)
      (.atRoot (some twoBoxes)) = .ok true := by
  have wider (v : Json) (scope : Scope)
      (h : Catalog.empty.isValid (m := Except Fault) partNumber (some v) scope = .ok true) :
      Catalog.empty.isValid (m := Except Fault) partName (some v) scope ≠ .ok false :=
    isValid_ne_false_of_conforms (fun h => conforms_union.mpr ⟨partNumber, by simp, h⟩) h
  have valid : Catalog.empty.isValid (m := Except Fault) (boxes.plug partNumber) (some twoBoxes)
      (.atRoot (some twoBoxes)) = .ok true := by decide +kernel
  have answers : Answers (Catalog.empty.isValid (m := Except Fault) (boxes.plug partName)
      (some twoBoxes) (.atRoot (some twoBoxes))) := ⟨true, by decide +kernel⟩
  exact ⟨wider, rfl, valid, isValid_plug _ wider boxes (fun _ h => by cases h) twoBoxes _ valid
    answers⟩

end Catalog

end DocSchema
