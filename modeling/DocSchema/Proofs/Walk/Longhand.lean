import DocSchema.Proofs.Constraint.Search
import DocSchema.Proofs.Schema.Longhand
import DocSchema.Proofs.Walk.Document
import DocSchema.Proofs.Walk.Fuel

/-!
Validation with nullable references written out.

A nullable reference costs one visit, and its long form two: one for the nullable node and one for the
plain reference in it. So the walks under both catalogs extend one another (`outcome_longhand`,
`longhand_outcome`), as long as all constraints in use resolve alike. They do, unless the search for
one comes to a type that is defined as a nullable reference and goes on from there with success: the
search follows nullable references as it follows plain ones, but not the nullable nodes that they are
written out as (`FoundThroughNullable`). Main statement: `validate_longhand`; `validate_codes` shows a
constraint that gets lost.
-/

namespace DocSchema

/-! ### Looking for validators -/

namespace Catalog

variable {c : Catalog} {constraint target : Json}

/-- The search for a constraint comes to a type that is defined as a nullable reference, and there is
an answer to be had from the type behind it. -/
inductive FoundThroughNullable (c : Catalog) (constraint : Json) : Json → Prop
  | here {t name} (hpass : c.answerAt constraint (.string t) = none)
    (ht : lookup t c.types = some (.nullableNamed name))
    (hfound : c.validator? name constraint ≠ .ok none) :
    FoundThroughNullable c constraint (.string t)
  | behind {t name us} (hpass : c.answerAt constraint (.string t) = none)
    (ht : lookup t c.types = some (.named name us)) (h : FoundThroughNullable c constraint name) :
    FoundThroughNullable c constraint (.string t)

theorem lookup_longhand (t : String) :
    lookup t c.longhand.types = (lookup t c.types).map Node.longhand :=
  lookup_map (fun _ => Node.longhand) t c.types

theorem aliasOf?_longhand (t : String) : c.longhand.aliasOf? t =
    match lookup t c.types with
    | some (.named name _) => some name
    | _ => none := by
  rw [aliasOf?, lookup_longhand]
  rcases lookup t c.types with _ | n
  · rfl
  · cases n <;> rfl

/-- Written out, types are searched alike, unless something is found through a nullable reference. -/
theorem search_longhand {fuel : Nat} (hfuel : fuel ≤ c.types.length + 1)
    (h : ¬ c.FoundThroughNullable constraint target) :
    c.longhand.search constraint fuel target = c.search constraint fuel target := by
  induction fuel generalizing target with
  | zero => rfl
  | succ fuel ih =>
    have hanswer : c.longhand.answerAt constraint target = c.answerAt constraint target := rfl
    rw [search_succ, search_succ, hanswer]
    cases hpass : c.answerAt constraint target with
    | some r => rfl
    | none =>
      cases target with
      | string t =>
        simp only [next?, aliasOf?_longhand]
        rw [aliasOf?]
        cases ht : lookup t c.types with
        | none => rfl
        | some n =>
          cases n with
          | named name us =>
            exact ih (Nat.le_of_succ_le hfuel) fun hname => h (.behind hpass ht hname)
          | nullableNamed name =>
            -- the type written out is no reference, and the search ends there
            by_contra hne
            have hfound : c.search constraint fuel name ≠ .ok none := fun hnone => hne hnone.symm
            refine h (.here hpass ht ?_)
            rw [validator?, search_of_le (Nat.le_of_succ_le hfuel) hfound]
            exact hfound
          | _ => rfl
      | _ => rfl

theorem validator?_longhand (h : ¬ c.FoundThroughNullable constraint target) :
    c.longhand.validator? target constraint = c.validator? target constraint := by
  have hlength : c.longhand.types.length = c.types.length := List.length_map _
  rw [validator?, hlength, search_longhand (Nat.le_refl _) h, validator?]

end Catalog

/-! ### Visits -/

/-- A node puts a use of a constraint on a target. -/
inductive Node.Uses : Node → Json → Usage → Prop
  | named {name us u} (hu : u ∈ us) : Uses (.named name us) name u
  | arrayOf {item us u} (hu : u ∈ us) : Uses (.arrayOf item us) (.string "Array") u

/-- No constraint that a node uses is found through a nullable reference. -/
def Catalog.FindsPlainly (c : Catalog) (n : Node) : Prop :=
  ∀ target u, n.Uses target u → ¬ c.FoundThroughNullable u.name target

/-- Nodes of all other kinds are of the same kind when written out. -/
theorem Node.longhand_layer {n : Node} (hn : ∀ name, n ≠ .nullableNamed name) :
    n.Layer (fun a b => b = a.longhand) n.longhand := by
  cases n with
  | named name us => exact .named name us
  | nullableNamed name => exact absurd rfl (hn name)
  | nullable inner => exact .nullable rfl
  | arrayOf item us => exact .arrayOf us rfl
  | record declared =>
    rw [longhand, longhandFields_eq]
    refine .record (List.forall₂_map_right_iff.mpr (List.forall₂_same.mpr fun _ _ => ⟨rfl, rfl⟩))
  | dict key value => exact .dict rfl rfl
  | union members =>
    rw [longhand, longhandAll_eq]
    exact .union (List.forall₂_map_right_iff.mpr (List.forall₂_same.mpr fun _ _ => rfl))
  | intersection members =>
    rw [longhand, longhandAll_eq]
    exact .intersection (List.forall₂_map_right_iff.mpr (List.forall₂_same.mpr fun _ _ => rfl))
  | conditional condition yes no => exact .conditional rfl rfl
  | literal v => exact .literal v
  | absent => exact .absent

/-- What a name stands for, written out. -/
def TypeEntry.longhand : TypeEntry → TypeEntry
  | .builtin t => .builtin t
  | .defined n => .defined n.longhand

theorem Node.isAbsent_longhand (n : Node) : n.longhand.isAbsent = n.isAbsent := by
  cases n <;> rfl

namespace Catalog

variable {c : Catalog}

theorem typeNamed?_longhand (t : String) :
    c.longhand.typeNamed? t = (c.typeNamed? t).map TypeEntry.longhand := by
  rw [typeNamed?, typeNamed?, lookup_longhand]
  cases lookup t c.types with
  | some n => rfl
  | none => cases BuiltinType.ofName? t <;> rfl

theorem useOutcome_longhand {target : Json} {u : Usage}
    (h : ¬ c.FoundThroughNullable u.name target) (s : Slot) :
    c.longhand.useOutcome target u s = c.useOutcome target u s := by
  rw [useOutcome, validator?_longhand h, useOutcome]

variable {R : Outcome → Outcome → Prop} {w w' : Call → Outcome}

/-- References are related if the definitions behind them are and their constraints resolve alike. -/
theorem named_longhand (hR : Congruence R) {name : Json} {us : List Usage} {s g : Slot}
    (huses : ∀ u ∈ us, ¬ c.FoundThroughNullable u.name name)
    (hcalls : ∀ n, c.type? name = .ok (some (.defined n)) → R (w ⟨n, s, g⟩) (w' ⟨n.longhand, s, g⟩)) :
    R (c.namedOutcome w name us s g) (c.longhand.namedOutcome w' name us s g) := by
  have hcollect : collect (fun u => c.longhand.useOutcome name u s) us =
      collect (fun u => c.useOutcome name u s) us :=
    eq_congruence.collect fun u hu => useOutcome_longhand (huses u hu) s
  cases name with
  | string t =>
    simp only [namedOutcome, type?, typeNamed?_longhand, hcollect] at hcalls ⊢
    rcases ht : c.typeNamed? t with _ | (b | n)
    · exact hR.refl _
    · exact hR.refl _
    · exact hR.andThen (hcalls n (by rw [ht])) (hR.refl _)
  | _ =>
    simp only [namedOutcome, type?]
    exact hR.refl _

/-- A visit to a node and one to the node written out are related, if their calls are, and if the
node is no nullable reference. -/
theorem step_longhand (hR : Congruence R) {n : Node} {s g : Slot}
    (hn : ∀ name, n ≠ .nullableNamed name) (huses : c.FindsPlainly n)
    (hcalls : ∀ m v p, c.Calls (fun _ => True) ⟨n, s, g⟩ ⟨m, v, p⟩ →
      R (w ⟨m, v, p⟩) (w' ⟨m.longhand, v, p⟩)) :
    R (c.step w ⟨n, s, g⟩) (c.longhand.step w' ⟨n.longhand, s, g⟩) := by
  refine hR.layer (Node.longhand_layer hn) n.guardAgrees_refl ?_ ?_ ?_ ?_ ?_
  · rintro name us hname
    refine named_longhand hR (fun u hu => ?_) fun m hm => hcalls m s g (hname.calls hm)
    cases hname with
    | named => exact huses _ u (.named hu)
    | nullableNamed => cases hu
  · rintro item us rfl u hu
    exact (useOutcome_longhand (huses _ u (.arrayOf hu)) s).symm
  · rintro declared head a b - - rfl
    rw [missingOutcome, missingOutcome, a.isAbsent_longhand]
    exact hR.refl _
  · rintro m m' v p hcall rfl
    exact hcalls m v p hcall
  · rintro m m' hcall rfl
    exact hcalls m s g hcall

/-! ### Walks -/

/-- A nullable reference on anything but null is what its long form comes to after one visit. -/
theorem step_nullableNamed {name : Json} {s g : Slot} (hs : s ≠ some .null) :
    c.step w ⟨.nullableNamed name, s, g⟩ = c.namedOutcome w name [] s g ∧
      c.step w ⟨.nullable (.named name []), s, g⟩ = w ⟨.named name [], s, g⟩ := by
  constructor <;> simp only [step]

/-- Each answer is an answer for the node written out, with twice the fuel. -/
theorem outcome_longhand (hc : c.Everywhere c.FindsPlainly) (j : Nat) {n : Node}
    (hn : n.Everywhere c.FindsPlainly) (s g : Slot) :
    Extends (c.outcome j ⟨n, s, g⟩) (c.longhand.outcome (2 * j) ⟨n.longhand, s, g⟩) := by
  induction j generalizing n s g with
  | zero => exact fun hne => absurd rfl hne
  | succ j ih =>
    -- the calls of a nullable reference are made one visit later by its long form
    have hcalls (k : Nat) (hk : 2 * j ≤ k) (m : Node) (v p : Slot)
        (hcall : c.Calls (fun _ => True) ⟨n, s, g⟩ ⟨m, v, p⟩) :
        Extends (c.outcome j ⟨m, v, p⟩) (c.longhand.outcome k ⟨m.longhand, v, p⟩) :=
      (ih (hcall.everywhere hc hn) v p).trans (c.longhand.outcome_extends hk _)
    rw [outcome_succ, show 2 * (j + 1) = 2 * j + 1 + 1 from rfl, outcome_succ]
    by_cases hname : ∃ name, n = .nullableNamed name
    · obtain ⟨name, rfl⟩ := hname
      by_cases hs : s = some .null
      · subst hs
        exact .refl _
      · rw [Node.longhand, (step_nullableNamed hs).1, (step_nullableNamed hs).2, outcome_succ]
        refine named_longhand extends_congruence (fun u hu => nomatch hu) fun m hm => ?_
        exact hcalls (2 * j) (Nat.le_refl _) m s g (.nullableNamed hs hm)
    · exact step_longhand extends_congruence (fun name h => hname ⟨name, h⟩) hn.here
        (hcalls (2 * j + 1) (Nat.le_succ _))

/-- Each answer for a node written out is an answer for the node, with the same fuel. -/
theorem longhand_outcome (hc : c.Everywhere c.FindsPlainly) (j : Nat) {n : Node}
    (hn : n.Everywhere c.FindsPlainly) (s g : Slot) :
    Extends (c.longhand.outcome j ⟨n.longhand, s, g⟩) (c.outcome j ⟨n, s, g⟩) := by
  induction j generalizing n s g with
  | zero => exact fun hne => absurd rfl hne
  | succ j ih =>
    have hcalls (m : Node) (v p : Slot) (hcall : c.Calls (fun _ => True) ⟨n, s, g⟩ ⟨m, v, p⟩) :
        Extends (c.longhand.outcome j ⟨m.longhand, v, p⟩) (c.outcome j ⟨m, v, p⟩) :=
      ih (hcall.everywhere hc hn) v p
    rw [outcome_succ, outcome_succ]
    by_cases hname : ∃ name, n = .nullableNamed name
    · obtain ⟨name, rfl⟩ := hname
      by_cases hs : s = some .null
      · subst hs
        exact .refl _
      · rw [Node.longhand, (step_nullableNamed hs).1, (step_nullableNamed hs).2]
        -- one more unit of fuel lets the plain reference make the calls of the nullable one
        refine (c.longhand.outcome_extends (Nat.le_succ j) _).trans ?_
        rw [outcome_succ]
        exact named_longhand extends_congruence.flip (fun u hu => nomatch hu) fun m hm =>
          hcalls m s g (.nullableNamed hs hm)
    · exact step_longhand extends_congruence.flip (fun name h => hname ⟨name, h⟩) hn.here hcalls

/-! ### Validations -/

theorem resolveRoot_longhand (c : Catalog) (root : Json) :
    c.longhand.resolveRoot root = c.resolveRoot root := by
  have hroot : c.longhand.rootName root = c.rootName root := by
    simp only [rootName, longhand]
    rcases c.types with _ | ⟨t, _ | ⟨u, types⟩⟩ <;> rfl
  simp only [resolveRoot, hroot, typeNamed?_longhand, Option.isSome_map]

/-- Catalogs validate alike with nullable references written out. -/
theorem validate_eq_longhand (hc : c.Everywhere c.FindsPlainly) (document : Document) (root : Json) :
    c.validate (m := Except Fault) document root = c.longhand.validate document root := by
  cases hread : document.read with
  | error e => simp only [validate, hread]
  | ok v =>
    rw [validate_of_read hread, validate_of_read hread, resolveRoot_longhand]
    cases c.resolveRoot root with
    | error e => cases e <;> rfl
    | ok name =>
      have hn : (Node.named (.string name) []).Everywhere c.FindsPlainly :=
        .intro (by rintro _ u ⟨hu⟩; cases hu) fun m hm => absurd hm List.not_mem_nil
      dsimp only
      congr 1
      exact outcome_budget_eq (x := ⟨_, some v, some v⟩) (y := ⟨_, some v, some v⟩)
        (fun j => ⟨2 * j, outcome_longhand hc j hn _ _⟩) fun j => ⟨j, longhand_outcome hc j hn _ _⟩

/-- A schema and the schema with its nullable references written out validate all documents alike,
from all roots, if the nullable references have text for names and no constraint in use is found
through one of them. -/
theorem validate_longhand {schema : Json} {c : Catalog} (hread : read schema = .ok c)
    (hnames : c.Everywhere Node.HasTextName) (huses : c.Everywhere c.FindsPlainly) :
    ∃ c', read schema.longhandSchema = .ok c' ∧ ∀ document root,
      c.validate (m := Except Fault) document root = c'.validate document root :=
  ⟨c.longhand, read_longhandSchema hread hnames, validate_eq_longhand huses⟩

/-- Parcels with a code, and with a note that may be null and is a code otherwise. -/
def parcels : Json := .object [("types", .object [
  ("Code", .object [("kind", .string "named"), ("name", .string "String"), ("constraints",
    .array [.object [("name", .string "min"), ("args", .array [.string "2"])]])]),
  ("Note", .object [("kind", .string "nullableNamed"), ("name", .string "Code")]),
  ("Short", .object [("kind", .string "named"), ("name", .string "Code"), ("constraints",
    .array [.object [("name", .string "max"), ("args", .array [.string "3"])]])]),
  ("Parcel", .object [("kind", .string "record"), ("fields", .array [
    .object [("name", .string "code"), ("type", .string "Short")],
    .object [("name", .string "note"), ("type", .object [
      ("kind", .string "nullableNamed"), ("name", .string "Note")])]])])])]

/-- What the schema of parcels is read as. -/
def parcelTypes : Catalog where
  version := .string supportedVersion
  root := .null
  types := [
    ("Code", .named (.string "String") [⟨.string "min", [.string "2"], .null⟩]),
    ("Note", .nullableNamed (.string "Code")),
    ("Short", .named (.string "Code") [⟨.string "max", [.string "3"], .null⟩]),
    ("Parcel", .record [
      (⟨.string "code", false, .null⟩, .named (.string "Short") []),
      (⟨.string "note", false, .null⟩, .nullableNamed (.string "Note"))])]
  validators := []

/-- A property of each type of parcels and of the types of their fields. -/
theorem parcelTypes_everywhere {p : Node → Prop}
    (hcode : p (.named (.string "String") [⟨.string "min", [.string "2"], .null⟩]))
    (hshort : p (.named (.string "Code") [⟨.string "max", [.string "3"], .null⟩]))
    (hname : ∀ name, p (.named name [])) (hnullable : ∀ s, p (.nullableNamed (.string s)))
    (hrecord : ∀ fields, p (.record fields)) : parcelTypes.Everywhere p := by
  unfold Everywhere
  simp only [parcelTypes, List.forall_mem_cons]
  refine ⟨.leaf rfl hcode, .leaf rfl (hnullable _), .leaf rfl hshort, .intro (hrecord _) ?_,
    by simp⟩
  simp only [Node.parts, List.map_cons, List.map_nil, List.forall_mem_cons]
  exact ⟨.leaf rfl (hname _), .leaf rfl (hnullable _), by simp⟩

theorem parcelTypes_findsPlainly : parcelTypes.Everywhere parcelTypes.FindsPlainly := by
  -- both constraints are builtin constraints of texts, where the search ends
  have ends (name : String) (h : (parcelTypes.registered? "String" name).isSome) :
      ¬ parcelTypes.FoundThroughNullable (.string name) (.string "String") := by
    have hanswer : parcelTypes.answerAt (.string name) (.string "String") ≠ none := by
      rw [answerAt]
      simpa [Option.isSome_iff_ne_none] using h
    rintro (⟨hpass, -, -⟩ | ⟨hpass, -, -⟩) <;> exact hanswer hpass
  refine parcelTypes_everywhere ?_ ?_ ?_ ?_ ?_
  · rintro _ u ⟨hu⟩
    obtain rfl := List.mem_singleton.mp hu
    exact ends "min" rfl
  · rintro _ u ⟨hu⟩
    obtain rfl := List.mem_singleton.mp hu
    rintro (⟨-, ht, -⟩ | ⟨-, ht, h⟩)
    · cases ht
    · cases ht
      exact ends "max" rfl h
  · rintro name _ u ⟨hu⟩
    cases hu
  · rintro s _ u ⟨⟩
  · rintro fields _ u ⟨⟩

/-- A parcel whose code is too long, with a note that is too short. -/
def parcel : Document := .value (.object [("code", .string "abcd"), ("note", .string "a")])

/-- It is found wrong alike. -/
theorem validate_parcel : read parcels = .ok parcelTypes ∧
    parcelTypes.Everywhere Node.HasTextName ∧ parcelTypes.Everywhere parcelTypes.FindsPlainly ∧
    ∃ c', read parcels.longhandSchema = .ok c' ∧
      c'.validate (m := Except Fault) parcel (.string "Parcel") = .ok [
        ⟨"$.code", .constraintViolation, "Constraint failed: Code.max"⟩,
        ⟨"$.note", .constraintViolation, "Constraint failed: String.min"⟩] := by
  have hread : read parcels = .ok parcelTypes := rfl
  have hnames : parcelTypes.Everywhere Node.HasTextName :=
    parcelTypes_everywhere trivial trivial (fun _ => trivial) (fun s => ⟨s, rfl⟩) fun _ => trivial
  have found : parcelTypes.validate (m := Except Fault) parcel (.string "Parcel") = .ok [
      ⟨"$.code", .constraintViolation, "Constraint failed: Code.max"⟩,
      ⟨"$.note", .constraintViolation, "Constraint failed: String.min"⟩] := by decide +kernel
  obtain ⟨c', hc', h⟩ := validate_longhand hread hnames parcelTypes_findsPlainly
  exact ⟨hread, hnames, parcelTypes_findsPlainly, c', hc', (h parcel _).symm.trans found⟩

/-- Items with a constraint on codes, which may be null and are texts otherwise. -/
def codes : Json := .object [("types", .object [
  ("Code", .object [("kind", .string "nullableNamed"), ("name", .string "String")]),
  ("Item", .object [("kind", .string "named"), ("name", .string "Code"), ("constraints",
    .array [.object [("name", .string "min"), ("args", .array [.string "1"])]])])])]

/-- The constraint on codes is found through the nullable reference, and is unknown when that is
written out. -/
theorem validate_codes : ∃ c c', read codes = .ok c ∧ read codes.longhandSchema = .ok c' ∧
    c.validate (m := Except Fault) (.text "\"a\"") (.string "Item") = .ok [] ∧
    c'.validate (m := Except Fault) (.text "\"a\"") (.string "Item") = .ok [
      ⟨"$", .unknownConstraint, "Unknown constraint: Code.min"⟩] :=
  ⟨_, _, rfl, rfl, by decide +kernel, by decide +kernel⟩

end Catalog

end DocSchema
