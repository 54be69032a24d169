import DocSchema.Check.Walk
import DocSchema.Proofs.Position
import Mathlib.Data.List.Basic

/-!
Outcomes of the walk, free of paths and of reports.

A visit looks at the path only to write it into diagnostics, at the report only to add to it, and at
the scope only to ask guards about its subject. So a visit is a `Call` (node, slot, subject), its
outcome can be said with paths that start at the value visited, and a parent moves the outcomes of
its parts one step further down. `Outcome.into` puts path and report back. This file has the
calculus of outcomes: paths in front of them, one after another, all parts of a list (`collect`),
and the first clean part of a list (`anyClean`).
-/

namespace DocSchema

/-- What a visit yields: diagnostics, or a fault. -/
abbrev Outcome := Except Fault (List Diagnostic)

/-- A diagnostic seen from further up: the path leads through another one first. -/
def Diagnostic.under (path : String) (d : Diagnostic) : Diagnostic :=
  { d with path := path ++ d.path }

/-- An outcome seen from further up. -/
def Outcome.under (path : String) (r : Outcome) : Outcome :=
  r.map (·.map (Diagnostic.under path))

/-- One outcome after another; a fault ends it. -/
def Outcome.andThen (r t : Outcome) : Outcome := r >>= fun own => t.map (own ++ ·)

/-- An outcome as the walk reports it: under a path, behind what was reported before. -/
def Outcome.into (path : String) (o : Outcome) (r : Report) : Except Fault Report :=
  o.map fun ds => r.addAll (ds.map (Diagnostic.under path))

/-- The outcomes of the parts of a list, one after another. -/
def collect {α : Type} (f : α → Outcome) : List α → Outcome
  | [] => .ok []
  | a :: l => (f a).andThen (collect f l)

/-- One of the parts of a list has no diagnostics; the parts after the first such one are not asked.
-/
def anyClean {α : Type} (f : α → Outcome) : List α → Except Fault Bool
  | [] => .ok false
  | a :: l => f a >>= fun found => if found.isEmpty then .ok true else anyClean f l

/-- What a visit is about: a node, what is in a slot, and what guards are asked about. -/
structure Call where
  node : Node
  slot : Slot
  subject : Slot

/-! ### Paths in front of paths -/

@[simp] theorem Outcome.under_ok (path : String) (ds : List Diagnostic) :
    Outcome.under path (.ok ds) = .ok (ds.map (Diagnostic.under path)) := rfl

@[simp] theorem Outcome.under_error (path : String) (f : Fault) :
    Outcome.under path (.error f) = .error f := rfl

theorem Diagnostic.under_under (p q : String) (d : Diagnostic) :
    (d.under q).under p = d.under (p ++ q) := by
  simp [Diagnostic.under, String.append_assoc]

@[simp] theorem Diagnostic.under_empty : Diagnostic.under "" = id := by
  funext d; simp [Diagnostic.under]

@[simp] theorem Outcome.under_eq_error {p : String} {r : Outcome} {f : Fault} :
    r.under p = .error f ↔ r = .error f := by
  cases r <;> simp

theorem Outcome.under_eq_ok {p : String} {r : Outcome} {ds : List Diagnostic} :
    r.under p = .ok ds ↔ ∃ own, r = .ok own ∧ ds = own.map (Diagnostic.under p) := by
  cases r <;> simp [eq_comm]

/-- The path before a step of a position, in one piece. -/
theorem path_item (p : String) (i : Nat) : s!"{p}[{i}]" = p ++ (Step.item i).text := by
  simp only [Step.text, String.append_assoc]; rfl

theorem path_member (p k : String) : s!"{p}.{k}" = p ++ (Step.member k).text := by
  simp only [Step.text, String.append_assoc]; rfl

theorem path_key (p k : String) : s!"{p}.[key:{k}]" = p ++ (Step.key k).text := by
  simp only [Step.text, String.append_assoc]; rfl

/-! ### One outcome after another -/

@[simp] theorem Outcome.andThen_error (f : Fault) (t : Outcome) :
    Outcome.andThen (.error f) t = .error f := rfl

@[simp] theorem Outcome.ok_andThen (own : List Diagnostic) (t : Outcome) :
    Outcome.andThen (.ok own) t = t.map (own ++ ·) := rfl

theorem Outcome.andThen_eq_ok {r t : Outcome} {ds : List Diagnostic} :
    r.andThen t = .ok ds ↔ ∃ own others, r = .ok own ∧ t = .ok others ∧ ds = own ++ others := by
  cases r <;> cases t <;> simp [Except.map, eq_comm]

theorem Outcome.andThen_eq_error {r t : Outcome} {f : Fault} :
    r.andThen t = .error f ↔ r = .error f ∨ (∃ own, r = .ok own) ∧ t = .error f := by
  cases r <;> cases t <;> simp [Except.map]

@[simp] theorem Outcome.nil_andThen (t : Outcome) : Outcome.andThen (.ok []) t = t := by
  cases t <;> rfl

@[simp] theorem Outcome.andThen_nil (r : Outcome) : r.andThen (.ok []) = r := by
  cases r <;> simp [Except.map]

theorem Outcome.andThen_assoc (r t u : Outcome) :
    (r.andThen t).andThen u = r.andThen (t.andThen u) := by
  cases r <;> cases t <;> cases u <;> simp [Except.map]

/-! ### All parts of a list -/

section Collect

variable {α : Type} {f : α → Outcome}

@[simp] theorem collect_nil : collect f [] = .ok [] := rfl

theorem collect_cons (a : α) (l : List α) : collect f (a :: l) = (f a).andThen (collect f l) := rfl

/-- The diagnostics of a list are those of its parts. -/
theorem mem_of_collect : ∀ {l : List α} {ds : List Diagnostic} {d : Diagnostic},
    collect f l = .ok ds → (d ∈ ds ↔ ∃ a ∈ l, ∃ own, f a = .ok own ∧ d ∈ own)
  | [], ds, d, h => by cases h; simp
  | a :: l, ds, d, h => by
    obtain ⟨own, others, ha, hl, rfl⟩ := Outcome.andThen_eq_ok.mp h
    simp [List.mem_append, mem_of_collect hl, ha]

theorem collect_singleton (f : α → Outcome) (a : α) : collect f [a] = f a := by
  rw [collect_cons, collect_nil, Outcome.andThen_nil]

theorem collect_append (f : α → Outcome) (l l' : List α) :
    collect f (l ++ l') = (collect f l).andThen (collect f l') := by
  induction l with
  | nil => rw [List.nil_append, collect_nil, Outcome.nil_andThen]
  | cons a l ih =>
    rw [List.cons_append, collect_cons, collect_cons, ih, Outcome.andThen_assoc]

/-- Parts may be asked in place of what they are parts of, if together they answer the same. -/
theorem collect_flatMap {h : α → Outcome} {k : α → List α} {l : List α}
    (hparts : ∀ a ∈ l, collect f (k a) = h a) : collect f (l.flatMap k) = collect h l := by
  induction l with
  | nil => rfl
  | cons a l ih =>
    obtain ⟨ha, hl⟩ := List.forall_mem_cons.mp hparts
    rw [List.flatMap_cons, collect_append, ha, ih hl, collect_cons]

end Collect

/-! ### The first clean part of a list -/

section AnyClean

variable {α : Type} {f : α → Outcome}

theorem anyClean_cons (a : α) (l : List α) : anyClean f (a :: l) =
    f a >>= fun found => if found.isEmpty then .ok true else anyClean f l := rfl

/-- The first part has a fault, or is clean, or the parts after it decide. -/
theorem anyClean_cons_eq {a : α} {l : List α} {r : Except Fault Bool}
    (h : anyClean f (a :: l) = r) : (∃ e, f a = .error e ∧ r = .error e) ∨ (f a = .ok [] ∧ r = .ok true) ∨
      ∃ d ds, f a = .ok (d :: ds) ∧ anyClean f l = r := by
  rw [anyClean_cons] at h
  cases ha : f a with
  | error e =>
    rw [ha] at h
    exact .inl ⟨e, rfl, h.symm⟩
  | ok own =>
    rw [ha] at h
    cases own with
    | nil => exact .inr (.inl ⟨rfl, h.symm⟩)
    | cons d ds => exact .inr (.inr ⟨d, ds, rfl, h⟩)

/-- A part is clean, and those before it are not. -/
theorem anyClean_eq_true {l : List α} (h : anyClean f l = .ok true) :
    ∃ before a after, l = before ++ a :: after ∧ f a = .ok [] ∧
      ∀ b ∈ before, ∃ d ds, f b = .ok (d :: ds) := by
  induction l with
  | nil => cases h
  | cons a l ih =>
    rcases anyClean_cons_eq h with ⟨e, -, he⟩ | ⟨ha, -⟩ | ⟨d, ds, ha, hl⟩
    · cases he
    · exact ⟨[], a, l, rfl, ha, by simp⟩
    · obtain ⟨before, b, after, rfl, hb, hbefore⟩ := ih hl
      exact ⟨a :: before, b, after, rfl, hb, List.forall_mem_cons.mpr ⟨⟨d, ds, ha⟩, hbefore⟩⟩

/-- No part is clean, and every part was answered. -/
theorem anyClean_eq_false {l : List α} (h : anyClean f l = .ok false) :
    ∀ a ∈ l, ∃ d ds, f a = .ok (d :: ds) := by
  induction l with
  | nil => simp
  | cons a l ih =>
    rcases anyClean_cons_eq h with ⟨e, -, he⟩ | ⟨-, htrue⟩ | ⟨d, ds, ha, hl⟩
    · cases he
    · cases htrue
    · exact List.forall_mem_cons.mpr ⟨⟨d, ds, ha⟩, ih hl⟩

/-- A part has a fault, and those before it are answered and not clean. -/
theorem anyClean_eq_error {l : List α} {e : Fault} (h : anyClean f l = .error e) :
    ∃ before a after, l = before ++ a :: after ∧ f a = .error e ∧
      ∀ b ∈ before, ∃ d ds, f b = .ok (d :: ds) := by
  induction l with
  | nil => cases h
  | cons a l ih =>
    rcases anyClean_cons_eq h with ⟨e', ha, he⟩ | ⟨-, htrue⟩ | ⟨d, ds, ha, hl⟩
    · cases he
      exact ⟨[], a, l, rfl, ha, by simp⟩
    · cases htrue
    · obtain ⟨before, b, after, rfl, hb, hbefore⟩ := ih hl
      exact ⟨a :: before, b, after, rfl, hb, List.forall_mem_cons.mpr ⟨⟨d, ds, ha⟩, hbefore⟩⟩

theorem anyClean_singleton (f : α → Outcome) (a : α) :
    anyClean f [a] = (f a).map List.isEmpty := by
  rw [anyClean_cons]
  rcases f a with e | (_ | _) <;> rfl

/-- The first clean part is in the front of a list, or it is looked for in the rest. -/
theorem anyClean_append (f : α → Outcome) (l l' : List α) : anyClean f (l ++ l') =
    anyClean f l >>= fun clean => if clean then .ok true else anyClean f l' := by
  induction l with
  | nil => rfl
  | cons a l ih =>
    rw [List.cons_append, anyClean_cons, anyClean_cons]
    cases f a with
    | error e => rfl
    | ok own =>
      cases own with
      | nil => rfl
      | cons d ds => exact ih

/-- Parts may be asked in place of what they are parts of, if one of them is clean exactly if it is. -/
theorem anyClean_flatMap {h : α → Outcome} {k : α → List α} {l : List α}
    (hparts : ∀ a ∈ l, anyClean f (k a) = (h a).map List.isEmpty) :
    anyClean f (l.flatMap k) = anyClean h l := by
  induction l with
  | nil => rfl
  | cons a l ih =>
    obtain ⟨ha, hl⟩ := List.forall_mem_cons.mp hparts
    rw [List.flatMap_cons, anyClean_append, ha, ih hl, anyClean_cons]
    cases h a <;> rfl

end AnyClean

/-! ### Reports put back -/

theorem Report.entries_addAll (r : Report) (ds : List Diagnostic) :
    (r.addAll ds).entries = r.entries ++ ds := by
  induction ds generalizing r with
  | nil => exact (List.append_nil _).symm
  | cons d ds ih =>
    have := ih (r.add d)
    simp only [add, List.append_assoc, List.singleton_append] at this
    exact this

namespace Outcome

@[simp] theorem into_error (path : String) (f : Fault) (r : Report) :
    into path (.error f) r = .error f := rfl

theorem into_ok_singleton (path : String) (d : Diagnostic) (r : Report) :
    into path (.ok [d]) r = .ok (r.add (d.under path)) := rfl

theorem entries_into (path : String) (o : Outcome) (r : Report) :
    (o.into path r).map Report.entries =
      o.map fun ds => r.entries ++ ds.map (Diagnostic.under path) := by
  cases o with
  | error f => rfl
  | ok ds => simp [into, Except.map, Report.entries_addAll]

/-- Nothing above and nothing before: the outcome itself. -/
theorem into_empty (o : Outcome) : (o.into "" .empty).map Report.entries = o := by
  rw [entries_into]
  cases o <;> simp [Except.map, Report.empty]

theorem into_isEmpty (path : String) (o : Outcome) :
    (o.into path .empty).map Report.isEmpty = o.map List.isEmpty := by
  cases o with
  | error f => rfl
  | ok ds => simp [into, Except.map, Report.isEmpty, Report.entries_addAll, Report.empty]

theorem under_into (p q : String) (o : Outcome) (r : Report) :
    (o.under q).into p r = o.into (p ++ q) r := by
  cases o with
  | error f => rfl
  | ok ds => simp [into, Except.map, Function.comp_def, Diagnostic.under_under]

theorem andThen_into (p : String) (o t : Outcome) (r : Report) :
    (o.andThen t).into p r = o.into p r >>= t.into p := by
  cases o with
  | error f => rfl
  | ok own =>
    cases t with
    | error f => rfl
    | ok others =>
      simp [into, Except.map, bind, Except.bind, Report.addAll]

end Outcome

section Fold

variable {α : Type} {f : α → Outcome}

/-- A report handed from part to part has the outcomes of all parts. -/
theorem foldlM_into {path : String} {k : Report → α → Except Fault Report} {l : List α}
    (h : ∀ a ∈ l, ∀ r, k r a = (f a).into path r) (r : Report) :
    l.foldlM k r = (collect f l).into path r := by
  induction l generalizing r with
  | nil => rfl
  | cons a l ih =>
    rw [List.foldlM_cons, collect_cons, Outcome.andThen_into, h a List.mem_cons_self]
    congr 1
    funext r
    exact ih (fun b hb => h b (List.mem_cons_of_mem a hb)) r

theorem anyM_eq {k : α → Except Fault Bool} (h : ∀ a, k a = (f a).map List.isEmpty)
    (l : List α) : l.anyM k = anyClean f l := by
  induction l with
  | nil => rfl
  | cons a l ih =>
    rw [List.anyM, anyClean_cons, h a, ih]
    cases f a with
    | error e => rfl
    | ok own => cases own <;> rfl

end Fold

end DocSchema
