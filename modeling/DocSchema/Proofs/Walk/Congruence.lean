import DocSchema.Proofs.Json.Same
import DocSchema.Proofs.Walk.Everywhere

/-!
Two walks over the same value, side by side.

A relation between outcomes is a *congruence* if all ways of putting outcomes together keep it. If
two visits to the same slot are answered by related calls, their nodes are of one kind
(`Node.Layer`), and the guard has the same verdict on both sides, then the two visits are related
(`Congruence.layer`, and `Congruence.step` for one and the same node). The subjects may differ on
both sides: they are handed on to the calls that stay on the value, and replaced in the calls that go
down into it. Besides calls and names, the one thing a visit asks about a part of its node is whether
the type of a missing field is `absent`.
-/

namespace DocSchema

/-- The guard of a node, if it has one, has the same verdict on two subjects. -/
def Node.GuardAgrees (g h : Slot) : Node → Prop
  | .conditional condition _ _ => condition.guard.evaluate g = condition.guard.evaluate h
  | _ => True

theorem Node.guardAgrees_refl {g : Slot} (n : Node) : n.GuardAgrees g g := by
  cases n <;> trivial

/-- A node refers to a type by name and puts constraints on the reference. -/
inductive Node.Names : Node → Slot → Json → List Usage → Prop
  | named {name us s} : Names (.named name us) s name us
  | nullableNamed {name s} (hs : s ≠ some .null) : Names (.nullableNamed name) s name []

/-- A reference calls the definition behind its name. -/
theorem Node.Names.calls {c : Catalog} {rejected : Call → Prop} {n m : Node} {s g : Slot}
    {name : Json} {us : List Usage} (h : n.Names s name us)
    (hm : c.type? name = .ok (some (.defined m))) : c.Calls rejected ⟨n, s, g⟩ ⟨m, s, g⟩ := by
  cases h with
  | named => exact .named hm
  | nullableNamed hs => exact .nullableNamed hs hm

/-- Two nodes of one kind, equal but for their parts, which are related one by one. -/
inductive Node.Layer (ρ : Node → Node → Prop) : Node → Node → Prop
  | named (name : Json) (us : List Usage) : Layer ρ (.named name us) (.named name us)
  | nullableNamed (name : Json) : Layer ρ (.nullableNamed name) (.nullableNamed name)
  | nullable {a b : Node} (hinner : ρ a b) : Layer ρ (.nullable a) (.nullable b)
  | arrayOf {a b : Node} (us : List Usage) (hitem : ρ a b) : Layer ρ (.arrayOf a us) (.arrayOf b us)
  | record {fs gs : List (FieldHead × Node)}
      (hfields : List.Forall₂ (fun f g => f.1 = g.1 ∧ ρ f.2 g.2) fs gs) :
    Layer ρ (.record fs) (.record gs)
  | dict {a b a' b' : Node} (hkey : ρ a b) (hvalue : ρ a' b') : Layer ρ (.dict a a') (.dict b b')
  | union {ms ns : List Node} (hmembers : List.Forall₂ ρ ms ns) : Layer ρ (.union ms) (.union ns)
  | intersection {ms ns : List Node} (hmembers : List.Forall₂ ρ ms ns) :
    Layer ρ (.intersection ms) (.intersection ns)
  | conditional {condition : Condition} {a b a' b' : Node} (hyes : ρ a b) (hno : ρ a' b') :
    Layer ρ (.conditional condition a a') (.conditional condition b b')
  | literal (v : Json) : Layer ρ (.literal v) (.literal v)
  | absent : Layer ρ .absent .absent

theorem Node.layer_refl (n : Node) : n.Layer Eq n := by
  cases n with
  | named name us => exact .named name us
  | nullableNamed name => exact .nullableNamed name
  | nullable inner => exact .nullable rfl
  | arrayOf item us => exact .arrayOf us rfl
  | record declared => exact .record (List.forall₂_same.mpr fun _ _ => ⟨rfl, rfl⟩)
  | dict key value => exact .dict rfl rfl
  | union members => exact .union (List.forall₂_same.mpr fun _ _ => rfl)
  | intersection members => exact .intersection (List.forall₂_same.mpr fun _ _ => rfl)
  | conditional condition yes no => exact .conditional rfl rfl
  | literal v => exact .literal v
  | absent => exact .absent

/-- A relation between outcomes that is kept when outcomes are put together. -/
structure Congruence (R : Outcome → Outcome → Prop) : Prop where
  refl : ∀ o, R o o
  under : ∀ {o o'} path, R o o' → R (o.under path) (o'.under path)
  andThen : ∀ {o o' t t'}, R o o' → R t t' → R (o.andThen t) (o'.andThen t')
  any : ∀ {w w' : Call → Outcome} {s s' g g' : Slot} {message : String} {members members' : List Node},
    List.Forall₂ (fun n n' => R (w ⟨n, s, g⟩) (w' ⟨n', s', g'⟩)) members members' →
    R (Catalog.anyOutcome w s g message members) (Catalog.anyOutcome w' s' g' message members')

/-- Equal parts make equal wholes. -/
theorem eq_congruence : Congruence Eq where
  refl _ := rfl
  under _ h := by rw [h]
  andThen h h' := by rw [h, h']
  any {w w' s s' g g' message members members'} h := by
    have hmembers : anyClean (fun n => w ⟨n, s, g⟩) members =
        anyClean (fun n => w' ⟨n, s', g'⟩) members' := by
      induction h with
      | nil => rfl
      | cons hn _ ih => rw [anyClean_cons, anyClean_cons, hn, ih]
    rw [Catalog.anyOutcome, hmembers, Catalog.anyOutcome]

namespace Congruence

variable {R : Outcome → Outcome → Prop} {c : Catalog} {w w' : Call → Outcome}

/-- The other way round. -/
theorem flip (hR : Congruence R) : Congruence fun o o' => R o' o where
  refl := hR.refl
  under path h := hR.under path h
  andThen h h' := hR.andThen h h'
  any h := hR.any h.flip

/-- The outcomes of two lists are related if they are so one by one. -/
theorem collect_forall₂ (hR : Congruence R) {α β : Type} {f : α → Outcome} {f' : β → Outcome}
    {l : List α} {l' : List β} (h : List.Forall₂ (fun a b => R (f a) (f' b)) l l') :
    R (DocSchema.collect f l) (DocSchema.collect f' l') := by
  induction h with
  | nil => exact hR.refl _
  | cons hab _ ih =>
    rw [collect_cons, collect_cons]
    exact hR.andThen hab ih

theorem collect (hR : Congruence R) {α : Type} {f f' : α → Outcome} {l : List α}
    (h : ∀ a ∈ l, R (f a) (f' a)) : R (DocSchema.collect f l) (DocSchema.collect f' l) :=
  hR.collect_forall₂ (List.forall₂_same.mpr h)

open Catalog

theorem named (hR : Congruence R) {name : Json} {s g h : Slot}
    (hn : ∀ n, c.type? name = .ok (some (.defined n)) → R (w ⟨n, s, g⟩) (w' ⟨n, s, h⟩))
    (us : List Usage) : R (c.namedOutcome w name us s g) (c.namedOutcome w' name us s h) := by
  simp only [namedOutcome]
  rcases hname : c.type? name with f | (_ | (t | n))
  · exact hR.refl _
  · exact hR.refl _
  · exact hR.refl _
  · exact hR.andThen (hn n hname) (hR.refl _)

/-- Visits to two nodes of one kind are related if what they ask themselves and their calls are. The
nodes may belong to two catalogs. -/
theorem layer (hR : Congruence R) {c' : Catalog} {ρ : Node → Node → Prop} {n n' : Node}
    (hn : n.Layer ρ n') {s g h : Slot} (hguard : n.GuardAgrees g h)
    (hnames : ∀ name us, n.Names s name us →
      R (c.namedOutcome w name us s g) (c'.namedOutcome w' name us s h))
    (huses : ∀ item us, n = .arrayOf item us → ∀ u ∈ us,
      c.useOutcome (.string "Array") u s = c'.useOutcome (.string "Array") u s)
    (hmissing : ∀ declared head a b, n = .record declared → (head, a) ∈ declared → ρ a b →
      R (missingOutcome head a) (missingOutcome head b))
    (hbelow : ∀ m m' v p, c.Calls (fun _ => True) ⟨n, s, g⟩ ⟨m, v, p⟩ → ρ m m' →
      R (w ⟨m, v, p⟩) (w' ⟨m', v, p⟩))
    (hhere : ∀ m m', c.Calls (fun _ => True) ⟨n, s, g⟩ ⟨m, s, g⟩ → ρ m m' →
      R (w ⟨m, s, g⟩) (w' ⟨m', s, h⟩)) :
    R (c.step w ⟨n, s, g⟩) (c'.step w' ⟨n', s, h⟩) := by
  have any {members members' : List Node} {message : String}
      (hmembers : List.Forall₂ ρ members members')
      (hcalls : ∀ before m after, members = before ++ m :: after →
        c.Calls (fun _ => True) ⟨n, s, g⟩ ⟨m, s, g⟩) :
      R (anyOutcome w s g message members) (anyOutcome w' s h message members') := by
    refine hR.any (forall₂_imp_of_mem hmembers fun m hm m' hρ => ?_)
    obtain ⟨before, after, hsplit⟩ := List.append_of_mem hm
    exact hhere m m' (hcalls before m after hsplit) hρ
  cases hn with
  | named name us => exact hnames name us .named
  | nullableNamed name =>
    by_cases hs : s = some .null
    · subst hs; exact hR.refl _
    · simp only [Catalog.step]
      exact hnames name [] (.nullableNamed hs)
  | @nullable a b hinner =>
    by_cases hs : s = some .null
    · subst hs; exact hR.refl _
    · simp only [Catalog.step]
      exact hhere a b (.nullable hs) hinner
  | @arrayOf a b us hitem =>
    rcases s with _ | (_ | _ | _ | _ | items | _)
    case some.array =>
      refine hR.andThen ?_ (hR.collect fun v hv => hR.under _ ?_)
      · rw [eq_congruence.collect (huses a us rfl)]
        exact hR.refl _
      · exact hbelow a b _ _ (.item (List.fst_mem_of_mem_zipIdx hv)) hitem
    all_goals exact hR.refl _
  | @record fs gs hfields =>
    rcases s with _ | (_ | _ | _ | _ | _ | fields)
    case some.object =>
      refine hR.collect_forall₂ (forall₂_imp_of_mem hfields fun f hf f' hff' => ?_)
      obtain ⟨⟨name, optional, default⟩, a⟩ := f
      obtain ⟨head, b⟩ := f'
      obtain ⟨rfl, hab⟩ : ⟨name, optional, default⟩ = head ∧ ρ a b := hff'
      have hmissing := hmissing fs _ a b rfl hf hab
      cases name with
      | string key =>
        simp only [fieldOutcome]
        cases hv : lookup key fields with
        | some v => exact hR.under _ (hbelow a b _ _ (.field hf rfl hv) hab)
        | none => exact hmissing
      | array items | object fields => exact hR.refl _
      | _ => exact hmissing
    all_goals exact hR.refl _
  | @dict a b a' b' hkey hvalue =>
    rcases s with _ | (_ | _ | _ | _ | _ | fields)
    case some.object =>
      refine hR.collect fun e he => ?_
      exact hR.andThen (hR.under _ (hbelow a b _ _ (.key he) hkey))
        (hR.under _ (hbelow a' b' _ _ (.value he) hvalue))
    all_goals exact hR.refl _
  | union hmembers => exact any hmembers fun before m after hm => .member hm fun _ _ => trivial
  | intersection hmembers =>
    exact hR.collect_forall₂ (forall₂_imp_of_mem hmembers fun m hm m' hρ => hhere m m' (.part hm) hρ)
  | @conditional condition a b a' b' hyes hno =>
    have hguard : condition.guard.evaluate g = condition.guard.evaluate h := hguard
    simp only [Catalog.step, ← hguard]
    rcases hg : condition.guard.evaluate g with _ | (_ | _)
    · exact any (.cons hyes (.cons hno .nil)) fun before m after hm =>
        .undecided hg hm fun _ _ => trivial
    · exact hhere a' b' (.no hg) hno
    · exact hhere a b (.yes hg) hyes
  | literal v => exact hR.refl _
  | absent => cases s <;> exact hR.refl _

/-- Visits to one node are related if their calls are. -/
theorem step (hR : Congruence R) {n : Node} {s g h : Slot} (hguard : n.GuardAgrees g h)
    (hbelow : ∀ y, c.Calls (fun _ => True) ⟨n, s, g⟩ y → R (w y) (w' y))
    (hhere : ∀ m, c.Calls (fun _ => True) ⟨n, s, g⟩ ⟨m, s, g⟩ → R (w ⟨m, s, g⟩) (w' ⟨m, s, h⟩)) :
    R (c.step w ⟨n, s, g⟩) (c.step w' ⟨n, s, h⟩) := by
  refine hR.layer n.layer_refl hguard (fun name us hname => ?_) (fun _ _ _ _ _ => rfl) ?_ ?_ ?_
  · exact hR.named (fun m hm => hhere m (hname.calls hm)) us
  · rintro declared head a b - - rfl
    exact hR.refl _
  · rintro m m' v p hcall rfl
    exact hbelow _ hcall
  · rintro m m' hcall rfl
    exact hhere m hcall

end Congruence

end DocSchema
