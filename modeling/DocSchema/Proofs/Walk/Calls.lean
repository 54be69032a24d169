import DocSchema.Proofs.Json.Distinct
import DocSchema.Proofs.Walk.Step

/-!
Which calls a visit makes.

A visit calls the definition behind a reference, a part of its node on the same value, or a part of
its node on a part of its value. The second goes down in the node and the third in both; only the
first can go up. Members of a union and the branches of an undecided conditional are tried in order,
so whether one is called at all depends on those before it: `Calls` takes as a parameter when a call
counts as rejected, and `True` gives all calls that there could be.
-/

namespace DocSchema

/-- A visit calls another. -/
inductive Catalog.Calls (c : Catalog) (rejected : Call → Prop) : Call → Call → Prop
  | named {name us s g n} (hname : c.type? name = .ok (some (.defined n))) :
    Calls c rejected ⟨.named name us, s, g⟩ ⟨n, s, g⟩
  | nullableNamed {name s g n} (hs : s ≠ some .null)
      (hname : c.type? name = .ok (some (.defined n))) :
    Calls c rejected ⟨.nullableNamed name, s, g⟩ ⟨n, s, g⟩
  | nullable {inner s g} (hs : s ≠ some .null) :
    Calls c rejected ⟨.nullable inner, s, g⟩ ⟨inner, s, g⟩
  | item {item us items v g} (hv : v ∈ items) :
    Calls c rejected ⟨.arrayOf item us, some (.array items), g⟩ ⟨item, some v, some (.array items)⟩
  | field {declared fields head type key v g} (hf : (head, type) ∈ declared)
      (hkey : head.name = .string key) (hv : lookup key fields = some v) :
    Calls c rejected ⟨.record declared, some (.object fields), g⟩
      ⟨type, some v, some (.object fields)⟩
  | key {key value fields k v g} (he : (k, v) ∈ fields) :
    Calls c rejected ⟨.dict key value, some (.object fields), g⟩
      ⟨key, some (.string k), some (.object fields)⟩
  | value {key value fields k v g} (he : (k, v) ∈ fields) :
    Calls c rejected ⟨.dict key value, some (.object fields), g⟩
      ⟨value, some v, some (.object fields)⟩
  | member {members before n after s g} (hn : members = before ++ n :: after)
      (hbefore : ∀ b ∈ before, rejected ⟨b, s, g⟩) :
    Calls c rejected ⟨.union members, s, g⟩ ⟨n, s, g⟩
  | part {members n s g} (hn : n ∈ members) :
    Calls c rejected ⟨.intersection members, s, g⟩ ⟨n, s, g⟩
  | yes {condition yes no s g} (hg : condition.guard.evaluate g = some true) :
    Calls c rejected ⟨.conditional condition yes no, s, g⟩ ⟨yes, s, g⟩
  | no {condition yes no s g} (hg : condition.guard.evaluate g = some false) :
    Calls c rejected ⟨.conditional condition yes no, s, g⟩ ⟨no, s, g⟩
  | undecided {condition yes no before n after s g} (hg : condition.guard.evaluate g = none)
      (hn : [yes, no] = before ++ n :: after) (hbefore : ∀ b ∈ before, rejected ⟨b, s, g⟩) :
    Calls c rejected ⟨.conditional condition yes no, s, g⟩ ⟨n, s, g⟩

/-! ### Names of types -/

/-- Only text names a defined type. -/
theorem Catalog.lookup_of_type? {c : Catalog} {name : Json} {n : Node}
    (h : c.type? name = .ok (some (.defined n))) :
    ∃ t, name = .string t ∧ lookup t c.types = some n := by
  cases name with
  | string t =>
    refine ⟨t, rfl, ?_⟩
    simp only [type?, typeNamed?] at h
    cases ht : lookup t c.types with
    | some d => rw [ht] at h; simpa using h
    | none =>
      rw [ht] at h
      cases hb : BuiltinType.ofName? t <;> simp [hb] at h
  | _ => simp [type?, Bindings.isKey] at h

/-! ### Depth -/

namespace Node

theorem depth_pos (n : Node) : 0 < n.depth := by
  cases n <;> simp only [depth] <;> omega

theorem depth_le_of_mem {n : Node} : ∀ {members : List Node}, n ∈ members →
    n.depth ≤ depthAll members
  | m :: members, h => by
    rw [depthAll]
    rcases List.mem_cons.mp h with rfl | h
    · exact Nat.le_max_left _ _
    · exact Nat.le_trans (depth_le_of_mem h) (Nat.le_max_right _ _)

theorem depth_le_of_split {members before : List Node} {n : Node} {after : List Node}
    (h : members = before ++ n :: after) : n.depth ≤ depthAll members :=
  depth_le_of_mem (h ▸ List.mem_append_right _ List.mem_cons_self)

theorem depth_le_of_mem_fields {head : FieldHead} {n : Node} :
    ∀ {declared : List (FieldHead × Node)}, (head, n) ∈ declared → n.depth ≤ depthFields declared
  | (_, m) :: declared, h => by
    rw [depthFields]
    rcases List.mem_cons.mp h with h | h
    · cases h; exact Nat.le_max_left _ _
    · exact Nat.le_trans (depth_le_of_mem_fields h) (Nat.le_max_right _ _)

end Node

namespace Json

theorem depth_pos (v : Json) : 0 < v.depth := by
  cases v <;> simp only [depth] <;> omega

theorem depth_le_of_mem {v : Json} : ∀ {items : List Json}, v ∈ items → v.depth ≤ depthAll items
  | w :: items, h => by
    rw [depthAll]
    rcases List.mem_cons.mp h with rfl | h
    · exact Nat.le_max_left _ _
    · exact Nat.le_trans (depth_le_of_mem h) (Nat.le_max_right _ _)

theorem depth_le_of_mem_fields {k : String} {v : Json} : ∀ {fields : List (String × Json)},
    (k, v) ∈ fields → max 1 v.depth ≤ depthFields fields
  | (_, w) :: fields, h => by
    rw [depthFields]
    rcases List.mem_cons.mp h with h | h
    · cases h; exact Nat.le_max_left _ _
    · exact Nat.le_trans (depth_le_of_mem_fields h) (Nat.le_max_right _ _)

end Json

/-- A node refers to a type on the same value: not from below an array, a record or a dictionary. -/
inductive Node.RefersTo : Node → String → Prop
  | named {t us} : RefersTo (.named (.string t) us) t
  | nullableNamed {t} : RefersTo (.nullableNamed (.string t)) t
  | nullable {inner t} (h : RefersTo inner t) : RefersTo (.nullable inner) t
  | member {members n t} (hn : n ∈ members) (h : RefersTo n t) : RefersTo (.union members) t
  | part {members n t} (hn : n ∈ members) (h : RefersTo n t) : RefersTo (.intersection members) t
  | branch {condition yes no n t} (hn : n ∈ [yes, no]) (h : RefersTo n t) :
    RefersTo (.conditional condition yes no) t

namespace Catalog

/-- A call stays on its value and goes down in the node, or goes down in both, or goes to the
definition of a type that the node refers to on the same value. -/
theorem Calls.level {c : Catalog} {rejected : Call → Prop} {x y : Call}
    (h : c.Calls rejected x y) :
    (y.slot = x.slot ∧ y.subject = x.subject ∧ y.node.depth < x.node.depth ∧
      ∀ t, y.node.RefersTo t → x.node.RefersTo t) ∨
    (slotDepth y.slot < slotDepth x.slot ∧ y.node.depth < x.node.depth) ∨
    ∃ t, x.node.RefersTo t ∧ lookup t c.types = some y.node ∧ y.slot = x.slot ∧
      y.subject = x.subject := by
  cases h with
  | named hname =>
    obtain ⟨t, rfl, ht⟩ := lookup_of_type? hname
    exact .inr (.inr ⟨t, .named, ht, rfl, rfl⟩)
  | nullableNamed _ hname =>
    obtain ⟨t, rfl, ht⟩ := lookup_of_type? hname
    exact .inr (.inr ⟨t, .nullableNamed, ht, rfl, rfl⟩)
  | nullable => exact .inl ⟨rfl, rfl, by simp only [Node.depth]; omega, fun _ => .nullable⟩
  | item hv =>
    have := Json.depth_le_of_mem hv
    refine .inr (.inl ⟨?_, ?_⟩)
    · simp only [slotDepth, Json.depth]; omega
    · simp only [Node.depth]; omega
  | field hf _ hv =>
    have := Json.depth_le_of_mem_fields (mem_of_lookup hv)
    have := Node.depth_le_of_mem_fields hf
    refine .inr (.inl ⟨?_, ?_⟩)
    · simp only [slotDepth, Json.depth]; omega
    · simp only [Node.depth]; omega
  | key he =>
    have := Json.depth_le_of_mem_fields he
    refine .inr (.inl ⟨?_, ?_⟩)
    · simp only [slotDepth, Json.depth]; omega
    · simp only [Node.depth]; omega
  | value he =>
    have := Json.depth_le_of_mem_fields he
    refine .inr (.inl ⟨?_, ?_⟩)
    · simp only [slotDepth, Json.depth]; omega
    · simp only [Node.depth]; omega
  | member hn =>
    have := Node.depth_le_of_split hn
    exact .inl ⟨rfl, rfl, by simp only [Node.depth]; omega, fun _ => .member (by simp [hn])⟩
  | part hn =>
    have := Node.depth_le_of_mem hn
    exact .inl ⟨rfl, rfl, by simp only [Node.depth]; omega, fun _ => .part hn⟩
  | yes | no =>
    exact .inl ⟨rfl, rfl, by simp only [Node.depth]; omega, fun _ => .branch (by simp)⟩
  | undecided _ hn =>
    have := Node.depth_le_of_split hn
    refine .inl ⟨rfl, rfl, ?_, fun _ => .branch (by simp [hn])⟩
    simp only [Node.depth, Node.depthAll] at *; omega

end Catalog

end DocSchema
