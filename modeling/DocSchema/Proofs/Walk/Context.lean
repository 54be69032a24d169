import DocSchema.Proofs.Walk.Equivariance

/-!
Nodes in contexts, and names in place of definitions.

A context is a node with a hole, kept as the list of frames around the hole, from the innermost frame
out. If each answer of a node is an answer of another one with `d` more units of fuel
(`Catalog.Refines`), then so it is with both in one context: one frame is one visit
(`Refines.fill`), and the frames are put on one by one (`Refines.plug`). A record looks at the node of
a missing field without visiting it, so both nodes have to be `absent` there, or neither.

The name of a type and its definition refine each other, so each may stand for the other in every
context but one. Main statement: `check_plug_alias`.
-/

namespace DocSchema

/-- One layer of a node around a hole. -/
inductive Frame where
  | nullable
  | item (constraints : List Usage)
  | field (before : List (FieldHead × Node)) (head : FieldHead) (after : List (FieldHead × Node))
  | key (valueType : Node)
  | value (keyType : Node)
  | member (before after : List Node)
  | part (before after : List Node)
  | yes (condition : Condition) (noType : Node)
  | no (condition : Condition) (yesType : Node)

namespace Frame

/-- Puts a node into the hole. -/
def fill : Frame → Node → Node
  | nullable, n => .nullable n
  | item constraints, n => .arrayOf n constraints
  | field before head after, n => .record (before ++ (head, n) :: after)
  | key valueType, n => .dict n valueType
  | value keyType, n => .dict keyType n
  | member before after, n => .union (before ++ n :: after)
  | part before after, n => .intersection (before ++ n :: after)
  | yes condition noType, n => .conditional condition n noType
  | no condition yesType, n => .conditional condition yesType n

/-- The hole is the type of a record field. -/
def IsField : Frame → Prop
  | field .. => True
  | _ => False

theorem isAbsent_fill (f : Frame) (n : Node) : (f.fill n).isAbsent = false := by
  cases f <;> rfl

theorem isField_of_fill {f : Frame} {n : Node} {declared : List (FieldHead × Node)}
    (h : f.fill n = .record declared) : f.IsField := by
  cases f with
  | field => trivial
  | _ => cases h

/-- Lists with one member exchanged are related one by one. -/
theorem forall₂_exchange {α : Type} {R : α → α → Prop} (hR : ∀ a, R a a) {a b : α} (hab : R a b)
    (before after : List α) : List.Forall₂ R (before ++ a :: after) (before ++ b :: after) := by
  refine List.rel_append ?_ (.cons hab ?_)
  · exact List.forall₂_same.mpr fun x _ => hR x
  · exact List.forall₂_same.mpr fun x _ => hR x

/-- A frame around two nodes is one layer. -/
theorem fill_layer {ρ : Node → Node → Prop} (hρ : ∀ n, ρ n n) {a b : Node} (hab : ρ a b)
    (f : Frame) : (f.fill a).Layer ρ (f.fill b) := by
  cases f with
  | nullable => exact .nullable hab
  | item us => exact .arrayOf us hab
  | field before head after =>
    exact .record (forall₂_exchange (fun f => ⟨rfl, hρ f.2⟩) ⟨rfl, hab⟩ before after)
  | key valueType => exact .dict hab (hρ valueType)
  | value keyType => exact .dict (hρ keyType) hab
  | member before after => exact .union (forall₂_exchange hρ hab before after)
  | part before after => exact .intersection (forall₂_exchange hρ hab before after)
  | yes condition noType => exact .conditional hab (hρ noType)
  | no condition yesType => exact .conditional (hρ yesType) hab

end Frame

/-- A node with a hole: the frames around the hole, the innermost one first. -/
abbrev Context := List Frame

namespace Context

/-- Puts a node into the hole. -/
def plug : Context → Node → Node
  | [], n => n
  | f :: k, n => plug k (f.fill n)

/-- The hole is directly the type of a record field. -/
def AtField : Context → Prop
  | [] => False
  | f :: _ => f.IsField

end Context

/-- Two nodes in one frame: the visits to the whole are related if those to the hole are, and all
others are on both sides. -/
theorem Congruence.fill {R : Outcome → Outcome → Prop} (hR : Congruence R) {c : Catalog}
    {w w' : Call → Outcome} {f : Frame} {a b : Node} {s g : Slot} (hsides : ∀ y, R (w y) (w' y))
    (hhole : ∀ v p, c.Calls (fun _ => True) ⟨f.fill a, s, g⟩ ⟨a, v, p⟩ →
      R (w ⟨a, v, p⟩) (w' ⟨b, v, p⟩))
    (hmissing : f.IsField → ∀ head,
      R (Catalog.missingOutcome head a) (Catalog.missingOutcome head b)) :
    R (c.step w ⟨f.fill a, s, g⟩) (c.step w' ⟨f.fill b, s, g⟩) := by
  -- the parts of the two sides are equal, but for the hole
  have hlayer : (f.fill a).Layer (fun m n => m = n ∨ (m = a ∧ n = b)) (f.fill b) :=
    f.fill_layer (fun _ => .inl rfl) (.inr ⟨rfl, rfl⟩)
  have call (m n : Node) (v p : Slot) (hcall : c.Calls (fun _ => True) ⟨f.fill a, s, g⟩ ⟨m, v, p⟩)
      (hmn : m = n ∨ (m = a ∧ n = b)) : R (w ⟨m, v, p⟩) (w' ⟨n, v, p⟩) := by
    rcases hmn with rfl | ⟨rfl, rfl⟩
    · exact hsides _
    · exact hhole v p hcall
  refine hR.layer hlayer (Node.guardAgrees_refl _) (fun name us _ => ?_) (fun _ _ _ _ _ => rfl)
    (fun declared head m n hrecord _ hmn => ?_) call fun m n => call m n s g
  · exact hR.named (fun m _ => hsides _) us
  · rcases hmn with rfl | ⟨rfl, rfl⟩
    · exact hR.refl _
    · exact hmissing (Frame.isField_of_fill hrecord) head

namespace Catalog

variable {c : Catalog} {d : Nat} {a b : Node}

/-- Each answer of a node is an answer of the other one, with `d` more units of fuel. -/
def Refines (c : Catalog) (d : Nat) (a b : Node) : Prop := ∀ j s g,
  Extends (c.outcome j ⟨a, s, g⟩) (c.outcome (j + d) ⟨b, s, g⟩)

/-- One frame is one visit. -/
theorem Refines.fill (h : c.Refines d a b) {f : Frame} (hf : f.IsField → a.isAbsent = b.isAbsent) :
    c.Refines d (f.fill a) (f.fill b) := by
  intro j s g
  cases j with
  | zero => exact fun hne => absurd rfl hne
  | succ j =>
    rw [Nat.add_right_comm, outcome_succ, outcome_succ]
    refine extends_congruence.fill (fun y => c.outcome_extends (Nat.le_add_right j d) y)
      (fun v p _ => h j v p) fun hfield head => ?_
    simp only [missingOutcome, hf hfield]
    exact .refl _

/-- Frame by frame, a refinement is kept in every context. -/
theorem Refines.plug : ∀ {k : Context} {a b : Node}, c.Refines d a b →
    (k.AtField → a.isAbsent = b.isAbsent) → c.Refines d (k.plug a) (k.plug b)
  | [], _, _, h, _ => h
  | f :: _, _, _, h, hk =>
    (h.fill hk).plug fun _ => by rw [f.isAbsent_fill, f.isAbsent_fill]

/-! ### Names of types -/

variable {A : String} {e : Node}

/-- A reference without constraints costs one visit more than the definition. -/
theorem outcome_alias (hA : lookup A c.types = some e) (j : Nat) (s g : Slot) :
    c.outcome (j + 1) ⟨.named (.string A) [], s, g⟩ = c.outcome j ⟨e, s, g⟩ := by
  have htype : c.type? (.string A) = .ok (some (.defined e)) := by simp [type?, typeNamed?, hA]
  rw [outcome_succ]
  simp only [step, namedOutcome, htype, typeOutcome, collect_nil, Outcome.andThen_nil]

theorem refines_alias (hA : lookup A c.types = some e) :
    c.Refines 1 e (.named (.string A) []) := by
  intro j s g
  rw [outcome_alias hA]
  exact .refl _

theorem alias_refines (hA : lookup A c.types = some e) :
    c.Refines 0 (.named (.string A) []) e := by
  intro j s g
  cases j with
  | zero => exact fun hne => absurd rfl hne
  | succ j =>
    rw [outcome_alias hA]
    exact c.outcome_extends (Nat.le_succ j) _

/-- The name of a type, without constraints, may stand for its definition in every context, on every
value, under every scope: the reports are the same, and so are the faults. The one exception is the
type of a record field that is defined to be absent. -/
theorem check_plug_alias (c : Catalog) {A : String} {e : Node} (hA : lookup A c.types = some e)
    (k : Context) (hk : k.AtField → e.isAbsent = false) (s : Slot) (path : String) (scope : Scope)
    (r : Report) :
    c.checkInto (m := Except Fault) (k.plug (.named (.string A) [])) s path scope r =
      c.checkInto (k.plug e) s path scope r := by
  have there : c.Refines 0 (k.plug (.named (.string A) [])) (k.plug e) :=
    (alias_refines hA).plug fun h => (hk h).symm
  have back : c.Refines 1 (k.plug e) (k.plug (.named (.string A) [])) :=
    (refines_alias hA).plug hk
  rw [checkInto_eq, checkInto_eq]
  congr 1
  exact outcome_budget_eq (x := ⟨_, s, scope.subject⟩) (y := ⟨_, s, scope.subject⟩)
    (fun j => ⟨j, there j s scope.subject⟩) fun j => ⟨j + 1, back j s scope.subject⟩

/-- Folders, whose entries are names or folders in turn. -/
def folders : Catalog where
  version := .null
  root := .null
  types := [
    ("Entry", .union [.named (.string "String") [⟨.string "min", [], .int 1⟩],
      .named (.string "Folder") []]),
    ("Folder", .record [(⟨.string "entries", true, .null⟩, .arrayOf (.named (.string "Entry") []) [])])]
  validators := []

/-- Arrays of records that may be null, around the type of a field. -/
def listed : Context := [.field [] ⟨.string "first", true, .null⟩ [], .nullable, .item []]

/-- Entries in the fields of records: one is a folder with a number in it. -/
def entries : Slot := some (.array [.null, .object [],
  .object [("first", .object [("entries", .array [.string "a"])])],
  .object [("first", .object [("entries", .array [.int 7])])]])

/-- Entries are checked by name as they are by their definition. -/
theorem check_listed_alias :
    lookup "Entry" folders.types = some (.union [
      .named (.string "String") [⟨.string "min", [], .int 1⟩], .named (.string "Folder") []]) ∧
    listed.AtField ∧
    folders.checkInto (m := Except Fault) (listed.plug (.named (.string "Entry") [])) entries "$"
      (.atRoot entries) .empty = .ok ⟨[
        ⟨"$[3].first", .typeMismatch, "Value does not match any union member."⟩]⟩ := by
  have found : folders.checkInto (m := Except Fault) (listed.plug (.union [
      .named (.string "String") [⟨.string "min", [], .int 1⟩], .named (.string "Folder") []]))
      entries "$" (.atRoot entries) .empty = .ok ⟨[
        ⟨"$[3].first", .typeMismatch, "Value does not match any union member."⟩]⟩ := by
    decide +kernel
  exact ⟨rfl, trivial, (check_plug_alias folders rfl listed (fun _ => rfl) entries "$"
    (.atRoot entries) .empty).trans found⟩

/-- A required field that is not there is reported if its type is given by name, and is not if its
type is `absent` itself. So a name that is defined to be absent may not stand for its definition
there. -/
theorem check_missing_name (c : Catalog) (A : String) {key : String}
    {fields : List (String × Json)} (hkey : lookup key fields = none) (path : String) (scope : Scope)
    (r : Report) :
    let k : Context := [.field [] ⟨.string key, false, .null⟩ []]
    c.checkInto (m := Except Fault) (k.plug (.named (.string A) [])) (some (.object fields)) path
        scope r = .ok (r.add ⟨s!"{path}.{key}", .fieldMissing, "Missing required field."⟩) ∧
      c.checkInto (m := Except Fault) (k.plug .absent) (some (.object fields)) path scope r = .ok r := by
  intro k
  have visit (n : Node) : c.checkInto (m := Except Fault) (k.plug n) (some (.object fields)) path
      scope r = ((missingOutcome ⟨.string key, false, .null⟩ n).andThen (.ok [])).into path r := by
    obtain ⟨fuel, hfuel⟩ : ∃ fuel, c.budget (k.plug n) (some (.object fields)) = fuel + 1 :=
      Nat.exists_eq_succ_of_ne_zero (Nat.mul_ne_zero (Nat.succ_ne_zero _) (Nat.succ_ne_zero _))
    rw [checkInto_eq, hfuel, outcome_succ]
    simp only [k, Context.plug, Frame.fill, List.nil_append, step, collect_cons, collect_nil,
      fieldOutcome, hkey]
  rw [visit, visit, path_member]
  exact ⟨rfl, rfl⟩

end Catalog

end DocSchema
