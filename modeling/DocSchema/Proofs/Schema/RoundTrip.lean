import DocSchema.Proofs.Schema.Form
import DocSchema.Proofs.Walk.Everywhere

/-!
Nodes are written and read back.

`Node.write` writes a node as an object with its kind and all its parts, where a reference without
constraints may be a bare name. Reading gives the same node again (`Node.read_write`), whatever values
stand for names, conditions, literals, defaults and arguments: null, false, zero and empty values are
read back like all others, though the reader takes some of them for nothing where a list belongs. Only
unions and intersections without members have no form that can be read.
-/

namespace DocSchema

/-! ### Writing -/

/-- An object with its kind in front. -/
def tagged (kind : String) (fields : List (String × Json)) : Json :=
  .object (("kind", .string kind) :: fields)

/-- The written form of a use of a constraint. -/
def Usage.write (u : Usage) : Json :=
  .object [("name", u.name), ("args", .array u.args), ("argument", u.argument)]

/-- The written form of uses of constraints. -/
def Usage.writeAll (us : List Usage) : Json := .array (us.map Usage.write)

/-- The written form of a field with the written form of its type. -/
def FieldHead.write (head : FieldHead) (type : Json) : Json :=
  .object [("name", head.name), ("type", type), ("optional", .bool head.optional),
    ("default", head.default)]

namespace Node

/-- The written form of a reference: a bare name, if that is wanted and says it all. -/
def writeReference : Bool → Json → List Usage → Json
  | true, .string name, [] => .string name
  | _, name, us => tagged "named" [("name", name), ("constraints", Usage.writeAll us)]

mutual

/-- The written form of a node, with or without bare names. -/
def write (bare : Bool) : Node → Json
  | .named name us => writeReference bare name us
  | .nullableNamed name => tagged "nullableNamed" [("name", name)]
  | .nullable inner => tagged "nullable" [("inner", inner.write bare)]
  | .arrayOf item us =>
    tagged "array" [("itemType", item.write bare), ("constraints", Usage.writeAll us)]
  | .record fields => tagged "record" [("fields", .array (writeFields bare fields))]
  | .dict key value => tagged "dict" [("keyType", key.write bare), ("valueType", value.write bare)]
  | .union members => tagged "union" [("members", .array (writeAll bare members))]
  | .intersection members => tagged "intersection" [("members", .array (writeAll bare members))]
  | .conditional condition yes no => tagged "conditional"
    [("condition", condition.text), ("then", yes.write bare), ("else", no.write bare)]
  | .literal v => tagged "literal" [("value", v)]
  | .absent => tagged "absent" []

def writeAll (bare : Bool) : List Node → List Json
  | [] => []
  | n :: rest => n.write bare :: writeAll bare rest

def writeFields (bare : Bool) : List (FieldHead × Node) → List Json
  | [] => []
  | (head, n) :: rest => head.write (n.write bare) :: writeFields bare rest

end

/-- Unions and intersections have members. -/
def HasMembers : Node → Prop
  | .union members => members ≠ []
  | .intersection members => members ≠ []
  | _ => True

end Node

/-! ### Reading back -/

theorem Usage.read_written (place : String) (u : Usage) : Usage.read place u.write = .ok u := rfl

theorem Usage.readAll_write (place : String) (us : List Usage) :
    Usage.readAll place (us.map Usage.write) = .ok us := by
  induction us with
  | nil => rfl
  | cons u us ih =>
    rw [List.map_cons, readAll, read_written, ih]
    rfl

theorem Usage.readList_writeAll (place : String) (us : List Usage) :
    Usage.readList place (Usage.writeAll us) = .ok us := Usage.readAll_write place us

/-- A condition is read as it was read before. -/
theorem Condition.read_text (c : Condition) : Condition.read c.text = .ok c := by
  obtain ⟨text, guard, hguard⟩ := c
  unfold Condition.read
  split
  · next g hg =>
    rw [hguard] at hg
    cases hg
    rfl
  · next f hf =>
    rw [hguard] at hf
    cases hf

namespace Node

theorem read_tagged (place kind : String) (fields : List (String × Json)) :
    read place (tagged kind fields) = kindBy read place (tagged kind fields) (.string kind) := by
  rw [read_eq]
  rfl

theorem read_writeReference (bare : Bool) (place : String) (name : Json) (us : List Usage) :
    read place (writeReference bare name us) = .ok (.named name us) := by
  unfold writeReference
  split
  · rfl
  · rw [read_tagged]
    show (Usage.readList place (Usage.writeAll us) >>= fun us => .ok (named name us)) = _
    rw [Usage.readList_writeAll]
    rfl

section Lists

variable {bare : Bool}

theorem readMembers_write {members : List Node}
    (h : ∀ n ∈ members, ∀ place, read place (n.write bare) = .ok n) (place : String) :
    ∀ i, readMembers place i (writeAll bare members) = .ok members := by
  induction members with
  | nil => intro i; rfl
  | cons n members ih =>
    intro i
    obtain ⟨hn, hmembers⟩ := List.forall_mem_cons.mp h
    rw [writeAll, readMembers, hn, ih hmembers]
    rfl

/-- Members are read back, if there are any. -/
theorem membersBy_write {members : List Node} (hmembers : members ≠ [])
    (h : ∀ n ∈ members, ∀ place, read place (n.write bare) = .ok n) (place kind : String) :
    membersBy read place (tagged kind [("members", .array (writeAll bare members))]) =
      .ok members := by
  obtain ⟨n, rest, rfl⟩ := List.exists_cons_of_ne_nil hmembers
  have hread := readMembers_write h place 0
  rw [readMembers_eq] at hread
  exact hread

theorem readFields_write {fields : List (FieldHead × Node)}
    (h : ∀ f ∈ fields, ∀ place, read place (f.2.write bare) = .ok f.2) (place : String) :
    readFields place (writeFields bare fields) = .ok fields := by
  induction fields with
  | nil => rfl
  | cons f fields ih =>
    obtain ⟨head, type⟩ := f
    obtain ⟨htype, hfields⟩ := List.forall_mem_cons.mp h
    rw [readFields_eq, writeFields, List.mapM_cons, ← readFields_eq, ih hfields]
    have hfield : fieldBy read place (head.write (type.write bare)) = .ok (head, type) := by
      show (read _ (type.write bare)).map _ = _
      rw [htype]
      rfl
    rw [hfield]
    rfl

end Lists

/-- What is written is read back. -/
theorem read_write (bare : Bool) (n : Node) (h : n.Everywhere HasMembers) (place : String) :
    read place (n.write bare) = .ok n := by
  induction n using Node.induction generalizing place with
  | h n ih =>
    have part (m : Node) (hm : m ∈ n.parts) (place : String) : read place (m.write bare) = .ok m :=
      ih m hm (h.inside m hm) place
    cases n with
    | named name us => exact read_writeReference bare place name us
    | nullableNamed name =>
      rw [write, read_tagged]
      rfl
    | nullable inner =>
      rw [write, read_tagged]
      show (read _ (inner.write bare)).map _ = _
      rw [part inner List.mem_cons_self]
      rfl
    | arrayOf item us =>
      rw [write, read_tagged]
      show (read _ (item.write bare) >>= fun item =>
        Usage.readList place (Usage.writeAll us) >>= fun us => .ok (arrayOf item us)) = _
      rw [part item List.mem_cons_self, Usage.readList_writeAll]
      rfl
    | record fields =>
      rw [write, read_tagged]
      show (writeFields bare fields |>.mapM (fieldBy read place)).map _ = _
      rw [← readFields_eq, readFields_write fun f hf => part f.2 (List.mem_map_of_mem hf)]
      rfl
    | dict key value =>
      rw [write, read_tagged]
      show (read _ (key.write bare) >>= fun key =>
        read (place ++ ".<value>") (value.write bare) >>= fun value => .ok (dict key value)) = _
      rw [part key List.mem_cons_self, part value (List.mem_cons_of_mem _ List.mem_cons_self)]
      rfl
    | union members =>
      rw [write, read_tagged]
      show (membersBy read place (tagged "union" _)).map _ = _
      rw [membersBy_write h.here part]
      rfl
    | intersection members =>
      rw [write, read_tagged]
      show (membersBy read place (tagged "intersection" _)).map _ = _
      rw [membersBy_write h.here part]
      rfl
    | conditional condition yes no =>
      rw [write, read_tagged]
      show (read _ (yes.write bare) >>= fun yes =>
        read (place ++ "<else>") (no.write bare) >>= fun no =>
        Condition.read condition.text >>= fun condition => .ok (conditional condition yes no)) = _
      rw [part yes List.mem_cons_self, part no (List.mem_cons_of_mem _ List.mem_cons_self),
        Condition.read_text]
      rfl
    | literal v =>
      rw [write, read_tagged]
      rfl
    | absent =>
      rw [write, read_tagged]
      rfl

/-- A condition that is no text. -/
def nullCondition : Condition := ⟨.null, .unrecognized "None", rfl⟩

/-- A record with false, zero, null and empty values wherever a value may stand. -/
def empties : Node := .record [
  (⟨.string "", false, .bool false⟩, .union [.literal (.int 0),
    .named (.string "") [⟨.null, [.null, .int 0], .string ""⟩]]),
  (⟨.int 0, true, .null⟩, .conditional nullCondition (.named (.string "A") [])
    (.arrayOf (.literal (.array [])) []))]

theorem empties_hasMembers : empties.Everywhere HasMembers := by
  have members : (Node.union [.literal (.int 0),
      .named (.string "") [⟨.null, [.null, .int 0], .string ""⟩]]).Everywhere HasMembers := by
    refine .intro (List.cons_ne_nil _ _) ?_
    simp only [parts, List.forall_mem_cons]
    exact ⟨Everywhere.leaf rfl trivial, Everywhere.leaf rfl trivial, by simp⟩
  have branches : (Node.conditional nullCondition (.named (.string "A") [])
      (.arrayOf (.literal (.array [])) [])).Everywhere HasMembers := by
    refine .intro trivial ?_
    simp only [parts, List.forall_mem_cons]
    refine ⟨Everywhere.leaf rfl trivial, .intro trivial ?_, by simp⟩
    simp only [parts, List.forall_mem_singleton]
    exact Everywhere.leaf rfl trivial
  refine .intro trivial ?_
  simp only [empties, parts, List.map_cons, List.map_nil, List.forall_mem_cons]
  exact ⟨members, branches, by simp⟩

/-- All of them are read back, with and without bare names. -/
theorem read_empties : empties.Everywhere HasMembers ∧
    read "Draft" (empties.write true) = .ok empties ∧
    read "Draft" (empties.write false) = .ok empties :=
  ⟨empties_hasMembers, read_write true empties empties_hasMembers "Draft",
    read_write false empties empties_hasMembers "Draft"⟩

end Node

end DocSchema
