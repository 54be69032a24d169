import DocSchema.Proofs.Walk.Calls

/-!
What holds of all nodes of a schema holds of all nodes the walk comes to.

A visit only calls parts of its node and definitions of types. So a property of nodes that holds of
the node where the walk starts, of all nodes inside it, and of all nodes inside the definitions,
holds wherever the walk goes (`Calls.everywhere`). Parts are also what inductions over nodes go
through (`Node.induction`).
-/

namespace DocSchema

namespace Node

/-- The nodes directly inside a node. -/
def parts : Node → List Node
  | .nullable inner => [inner]
  | .arrayOf item _ => [item]
  | .record declared => declared.map Prod.snd
  | .dict key value => [key, value]
  | .union members => members
  | .intersection members => members
  | .conditional _ yes no => [yes, no]
  | .named .. | .nullableNamed _ | .literal _ | .absent => []

theorem depth_lt_of_mem_parts {m n : Node} (h : m ∈ n.parts) : m.depth < n.depth := by
  cases n with
  | nullable inner =>
    obtain rfl := List.mem_singleton.mp h
    simp only [depth]; omega
  | arrayOf item us =>
    obtain rfl := List.mem_singleton.mp h
    simp only [depth]; omega
  | record declared =>
    obtain ⟨⟨head, type⟩, hf, rfl⟩ := List.mem_map.mp h
    have := depth_le_of_mem_fields hf
    simp only [depth]; omega
  | dict | conditional =>
    have := depth_le_of_mem h
    simp only [parts, depthAll, depth] at *; omega
  | union members | intersection members =>
    have := depth_le_of_mem h
    simp only [depth, parts] at *; omega
  | _ => cases h

/-- What holds of a node if it holds of its parts holds of all nodes. -/
theorem induction {p : Node → Prop} (h : ∀ n : Node, (∀ m ∈ n.parts, p m) → p n) (n : Node) :
    p n := by
  induction hd : n.depth using Nat.strongRecOn generalizing n with
  | ind d ih =>
    subst hd
    exact h n fun m hm => ih m.depth (depth_lt_of_mem_parts hm) m rfl

/-- A property of a node and of all nodes inside it. -/
inductive Everywhere (p : Node → Prop) : Node → Prop
  | intro {n} (here : p n) (inside : ∀ m ∈ n.parts, Everywhere p m) : Everywhere p n

theorem Everywhere.here {p : Node → Prop} {n : Node} : n.Everywhere p → p n
  | .intro h _ => h

theorem Everywhere.inside {p : Node → Prop} {n : Node} : n.Everywhere p →
    ∀ m ∈ n.parts, m.Everywhere p
  | .intro _ h => h

theorem Everywhere.leaf {p : Node → Prop} {n : Node} (hn : n.parts = []) (h : p n) :
    n.Everywhere p :=
  .intro h fun m hm => by rw [hn] at hm; cases hm

end Node

namespace Catalog

/-- A property of all nodes inside the definitions of a catalog. -/
def Everywhere (c : Catalog) (p : Node → Prop) : Prop := ∀ t ∈ c.types, t.2.Everywhere p

variable {c : Catalog} {rejected : Call → Prop} {x y : Call}

theorem Calls.part_or_definition (h : c.Calls rejected x y) :
    y.node ∈ x.node.parts ∨ ∃ t, lookup t c.types = some y.node := by
  cases h with
  | named hname | nullableNamed _ hname =>
    obtain ⟨t, -, ht⟩ := lookup_of_type? hname
    exact .inr ⟨t, ht⟩
  | nullable => exact .inl List.mem_cons_self
  | item => exact .inl List.mem_cons_self
  | field hf => exact .inl (List.mem_map.mpr ⟨_, hf, rfl⟩)
  | key => exact .inl List.mem_cons_self
  | value => exact .inl (List.mem_cons_of_mem _ List.mem_cons_self)
  | member hn => exact .inl (hn ▸ List.mem_append_right _ List.mem_cons_self)
  | part hn => exact .inl hn
  | yes => exact .inl List.mem_cons_self
  | no => exact .inl (List.mem_cons_of_mem _ List.mem_cons_self)
  | undecided _ hn =>
    refine .inl ?_
    simp only [Node.parts, hn]
    exact List.mem_append_right _ List.mem_cons_self

theorem Calls.everywhere {p : Node → Prop} (hc : c.Everywhere p) (h : c.Calls rejected x y)
    (hx : x.node.Everywhere p) : y.node.Everywhere p := by
  rcases h.part_or_definition with hpart | ⟨t, ht⟩
  · exact hx.inside _ hpart
  · exact hc _ (mem_of_lookup ht)

end Catalog

end DocSchema
