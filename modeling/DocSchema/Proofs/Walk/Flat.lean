import DocSchema.Proofs.Walk.Equation

/-!
Nested unions and intersections written flat.

A union inside a union, and an intersection inside an intersection, can be spliced into the one
around it (`Node.flat`). Nothing is lost by this: the members of a nested union are tried in the same
order up to the same first clean one, and that only its own summary is reported makes no difference
to the union around it, which reports its own summary instead. The members of a nested intersection
report in the same order into the same report. Main statement: `check_flat`.
-/

namespace DocSchema

namespace Node

/-! ### Splicing -/

/-- What a node brings into a union around it: its members if it is a union, else itself. -/
def alternatives : Node → List Node
  | .union members => members
  | n => [n]

/-- What a node brings into an intersection around it: its members if it is one, else itself. -/
def conjuncts : Node → List Node
  | .intersection members => members
  | n => [n]

mutual

/-- A node with all unions in unions, and intersections in intersections, spliced in. -/
def flat : Node → Node
  | .nullable inner => .nullable inner.flat
  | .arrayOf item us => .arrayOf item.flat us
  | .record declared => .record (flatFields declared)
  | .dict key value => .dict key.flat value.flat
  | .union members => .union (flatUnion members)
  | .intersection members => .intersection (flatIntersection members)
  | .conditional condition yes no => .conditional condition yes.flat no.flat
  | .named name us => .named name us
  | .nullableNamed name => .nullableNamed name
  | .literal v => .literal v
  | .absent => .absent

def flatUnion : List Node → List Node
  | [] => []
  | n :: rest => n.flat.alternatives ++ flatUnion rest

def flatIntersection : List Node → List Node
  | [] => []
  | n :: rest => n.flat.conjuncts ++ flatIntersection rest

def flatFields : List (FieldHead × Node) → List (FieldHead × Node)
  | [] => []
  | (head, n) :: rest => (head, n.flat) :: flatFields rest

end

theorem flatUnion_eq (members : List Node) :
    flatUnion members = members.flatMap fun n => n.flat.alternatives := by
  induction members with
  | nil => rfl
  | cons n members ih => rw [flatUnion, ih, List.flatMap_cons]

theorem flatIntersection_eq (members : List Node) :
    flatIntersection members = members.flatMap fun n => n.flat.conjuncts := by
  induction members with
  | nil => rfl
  | cons n members ih => rw [flatIntersection, ih, List.flatMap_cons]

theorem flatFields_eq (declared : List (FieldHead × Node)) :
    flatFields declared = declared.map fun f => (f.1, f.2.flat) := by
  induction declared with
  | nil => rfl
  | cons f declared ih => rw [flatFields, ih, List.map_cons]

theorem isAbsent_flat (n : Node) : n.flat.isAbsent = n.isAbsent := by
  cases n <;> rfl

/-- The parts of a node that is neither a union nor an intersection stay parts. -/
theorem parts_flat {n : Node} (hunion : ∀ members, n ≠ .union members)
    (hintersection : ∀ members, n ≠ .intersection members) : n.flat.parts = n.parts.map flat := by
  cases n with
  | union members => exact absurd rfl (hunion members)
  | intersection members => exact absurd rfl (hintersection members)
  | record declared => simp [flat, flatFields_eq, parts]
  | _ => rfl

/-- No member of a union is a union, and no member of an intersection is an intersection. -/
def Spliced : Node → Prop
  | .union members => ∀ m ∈ members, ∀ inner, m ≠ .union inner
  | .intersection members => ∀ m ∈ members, ∀ inner, m ≠ .intersection inner
  | _ => True

/-- What a spliced node brings into a union is spliced, and is no union. -/
theorem Everywhere.alternatives {n m : Node} (h : n.Everywhere Spliced) (hm : m ∈ n.alternatives) :
    m.Everywhere Spliced ∧ ∀ inner, m ≠ .union inner := by
  cases n with
  | union members => exact ⟨h.inside m hm, h.here m hm⟩
  | _ =>
    obtain rfl := List.mem_singleton.mp hm
    exact ⟨h, by simp⟩

theorem Everywhere.conjuncts {n m : Node} (h : n.Everywhere Spliced) (hm : m ∈ n.conjuncts) :
    m.Everywhere Spliced ∧ ∀ inner, m ≠ .intersection inner := by
  cases n with
  | intersection members => exact ⟨h.inside m hm, h.here m hm⟩
  | _ =>
    obtain rfl := List.mem_singleton.mp hm
    exact ⟨h, by simp⟩

/-- Nothing is left to splice in a flat node, at any depth. -/
theorem flat_spliced (n : Node) : n.flat.Everywhere Spliced := by
  induction n using Node.induction with
  | h n ih =>
    cases n with
    | union members =>
      have hmember : ∀ m ∈ flatUnion members,
          m.Everywhere Spliced ∧ ∀ inner, m ≠ .union inner := by
        intro m hm
        rw [flatUnion_eq] at hm
        obtain ⟨k, hk, hm⟩ := List.mem_flatMap.mp hm
        exact (ih k hk).alternatives hm
      exact .intro (fun m hm => (hmember m hm).2) fun m hm => (hmember m hm).1
    | intersection members =>
      have hmember : ∀ m ∈ flatIntersection members,
          m.Everywhere Spliced ∧ ∀ inner, m ≠ .intersection inner := by
        intro m hm
        rw [flatIntersection_eq] at hm
        obtain ⟨k, hk, hm⟩ := List.mem_flatMap.mp hm
        exact (ih k hk).conjuncts hm
      exact .intro (fun m hm => (hmember m hm).2) fun m hm => (hmember m hm).1
    | _ =>
      refine .intro trivial ?_
      intro m hm
      rw [parts_flat (by simp) (by simp)] at hm
      obtain ⟨k, hk, rfl⟩ := List.mem_map.mp hm
      exact ih k hk

/-- A node that is neither a union nor an intersection is one layer when flat. -/
theorem flat_layer {n : Node} (hunion : ∀ members, n ≠ .union members)
    (hintersection : ∀ members, n ≠ .intersection members) :
    n.Layer (fun a b => a ∈ n.parts ∧ b = a.flat) n.flat := by
  cases n with
  | union members => exact absurd rfl (hunion members)
  | intersection members => exact absurd rfl (hintersection members)
  | nullable inner => exact .nullable ⟨by simp [parts], rfl⟩
  | arrayOf item us => exact .arrayOf us ⟨by simp [parts], rfl⟩
  | record declared =>
    rw [flat, flatFields_eq]
    refine .record (List.forall₂_map_right_iff.mpr (List.forall₂_same.mpr ?_))
    exact fun f hf => ⟨rfl, List.mem_map_of_mem hf, rfl⟩
  | dict key value => exact .dict ⟨by simp [parts], rfl⟩ ⟨by simp [parts], rfl⟩
  | conditional condition yes no => exact .conditional ⟨by simp [parts], rfl⟩ ⟨by simp [parts], rfl⟩
  | named name us => exact .named name us
  | nullableNamed name => exact .nullableNamed name
  | literal v => exact .literal v
  | absent => exact .absent

end Node

/-! ### Visits -/

namespace Catalog

variable {c : Catalog}

/-- A union is clean exactly if one of its members is, and has the faults that come before. -/
theorem anyOutcome_isEmpty (w : Call → Outcome) (s g : Slot) (message : String)
    (members : List Node) : (anyOutcome w s g message members).map List.isEmpty =
      anyClean (fun n => w ⟨n, s, g⟩) members := by
  rw [anyOutcome]
  rcases anyClean (fun n => w ⟨n, s, g⟩) members with e | (_ | _) <;> rfl

/-- Inside a union, its members may stand for a union. -/
theorem anyClean_alternatives (n : Node) (s g : Slot) :
    anyClean (fun m => c.found ⟨m, s, g⟩) n.alternatives =
      (c.found ⟨n, s, g⟩).map List.isEmpty := by
  cases n with
  | union members =>
    rw [found_eq_step]
    exact (anyOutcome_isEmpty c.found s g _ members).symm
  | _ => exact anyClean_singleton _ _

/-- Inside an intersection, its members may stand for an intersection. -/
theorem collect_conjuncts (n : Node) (s g : Slot) :
    collect (fun m => c.found ⟨m, s, g⟩) n.conjuncts = c.found ⟨n, s, g⟩ := by
  cases n with
  | intersection members =>
    rw [found_eq_step]
    rfl
  | _ => exact collect_singleton _ _

/-- A node of any other kind keeps it, and is visited part by part. -/
theorem step_flat {n : Node} (hunion : ∀ members, n ≠ .union members)
    (hintersection : ∀ members, n ≠ .intersection members)
    (hparts : ∀ m ∈ n.parts, ∀ s g, c.found ⟨m.flat, s, g⟩ = c.found ⟨m, s, g⟩) (s g : Slot) :
    c.step c.found ⟨n.flat, s, g⟩ = c.step c.found ⟨n, s, g⟩ := by
  refine (eq_congruence.layer (Node.flat_layer hunion hintersection) n.guardAgrees_refl
    (fun _ _ _ => rfl) (fun _ _ _ _ _ => rfl) ?_ ?_ ?_).symm
  · rintro declared head a b - - ⟨-, rfl⟩
    rw [missingOutcome, missingOutcome, a.isAbsent_flat]
  · rintro a b v p - ⟨ha, rfl⟩
    exact (hparts a ha v p).symm
  · rintro a b - ⟨ha, rfl⟩
    exact (hparts a ha s g).symm

/-- The flat node finds what the node finds. -/
theorem found_flat (n : Node) : ∀ s g, c.found ⟨n.flat, s, g⟩ = c.found ⟨n, s, g⟩ := by
  induction n using Node.induction with
  | h n ih =>
    intro s g
    rw [found_eq_step, found_eq_step]
    cases n with
    | union members =>
      have hmembers : ∀ m ∈ members, anyClean (fun k => c.found ⟨k, s, g⟩) m.flat.alternatives =
          (c.found ⟨m, s, g⟩).map List.isEmpty := by
        intro m hm
        rw [anyClean_alternatives, ih m hm]
      simp only [Node.flat, Node.flatUnion_eq, step, anyOutcome, anyClean_flatMap hmembers]
    | intersection members =>
      have hmembers : ∀ m ∈ members, collect (fun k => c.found ⟨k, s, g⟩) m.flat.conjuncts =
          c.found ⟨m, s, g⟩ := by
        intro m hm
        rw [collect_conjuncts, ih m hm]
      simp only [Node.flat, Node.flatIntersection_eq, step, collect_flatMap hmembers]
    | _ => exact step_flat (by simp) (by simp) ih s g

/-- In a flat node, no union is a member of a union and no intersection is a member of an
intersection, at any depth. It is checked as the node is: on every slot, under every path and scope
and behind every report, the same is reported, in the same order, or the same fault comes up. -/
theorem check_flat (c : Catalog) (n : Node) : n.flat.Everywhere Node.Spliced ∧
    ∀ (s : Slot) (path : String) (scope : Scope) (r : Report),
      c.checkInto (m := Except Fault) n.flat s path scope r = c.checkInto n s path scope r := by
  refine ⟨n.flat_spliced, ?_⟩
  intro s path scope r
  rw [checkInto_eq_found, checkInto_eq_found, found_flat]

/-- Members keep their order, and what is in between other nodes is spliced on its own. -/
example : (Node.union [.union [.literal .null, .union [.absent]],
      .nullable (.intersection [.absent, .intersection [.union [.absent], .literal .null]])]).flat =
    .union [.literal .null, .absent,
      .nullable (.intersection [.absent, .union [.absent], .literal .null])] := rfl

end Catalog

end DocSchema
