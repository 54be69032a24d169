import DocSchema.Proofs.Walk.Document
import DocSchema.Proofs.Walk.Everywhere

/-!
Every diagnostic points at a place in the document.

The path of a diagnostic is written by string concatenation on the way down, while value and scope
go down separately. `Diagnostic.Placed` ties the two together: the path is the text of a position
that leads to something in the document, or of the position of an object followed by a key that the
object lacks. A step down into the value is a step in front of the position (`Placed.down`), so each
visit keeps the relation (`step_places`), and `validate_placed` says it of whole validations.
-/

namespace DocSchema

/-! ### Positions -/

namespace Json

@[simp] theorem at?_nil (v : Json) : v.at? [] = some v := by
  cases v <;> rfl

/-- A position inside the part that one step leads to. -/
theorem at?_cons {v w u : Json} {t : Step} {place : Position} (hw : v.at? [t] = some w)
    (hu : w.at? place = some u) : v.at? (t :: place) = some u := by
  cases t with
  | member key =>
    cases v with
    | object fields =>
      obtain ⟨a, ha, rfl⟩ : ∃ a, lookup key fields = some a ∧ a = w := by
        simpa [at?, Option.bind_eq_some_iff] using hw
      simpa [at?, ha] using hu
    | _ => simp [at?] at hw
  | item i =>
    cases v with
    | array items =>
      obtain ⟨a, ha, rfl⟩ : ∃ a, items[i]? = some a ∧ a = w := by
        simpa [at?, Option.bind_eq_some_iff] using hw
      simpa [at?, ha] using hu
    | _ => simp [at?] at hw
  | key k =>
    cases v with
    | object fields =>
      obtain ⟨-, rfl⟩ : (∃ a, lookup k fields = some a) ∧ Json.string k = w := by
        simpa [at?] using hw
      -- a key is text, and nothing is inside it
      cases place with
      | nil => simpa using hw.trans (by simpa using hu)
      | cons t place => cases t <;> simp [at?] at hu
    | _ => simp [at?] at hw

/-- A part directly inside a value, and the step that paths write for it. -/
inductive Inside : Json → Step → Json → Prop
  | item {items i u} (h : items[i]? = some u) : Inside (.array items) (.item i) u
  | member {fields k u} (h : (k, u) ∈ fields) : Inside (.object fields) (.member k) u
  | key {fields k u} (h : (k, u) ∈ fields) : Inside (.object fields) (.key k) (.string k)

/-- Without repeated keys, the step leads to the part. -/
theorem Inside.at? {v u : Json} {t : Step} (h : v.Inside t u) (hv : v.Distinct) :
    v.at? [t] = some u := by
  cases h with
  | item h => simp [Json.at?, h]
  | member h => simp [Json.at?, lookup_of_mem (distinct_object.mp hv).1 h]
  | key h => simp [Json.at?, lookup_of_mem (distinct_object.mp hv).1 h]

theorem Inside.distinct {v u : Json} {t : Step} (h : v.Inside t u) (hv : v.Distinct) :
    u.Distinct := by
  cases h with
  | item h => exact distinct_array.mp hv _ (List.mem_of_getElem? h)
  | member h => exact (distinct_object.mp hv).2 _ h
  | key => trivial

end Json

/-! ### Placed diagnostics -/

/-- The diagnostic does not say that the document cannot be read, and its path from `start` on leads
to something in the document, or to a key that an object in the document lacks. -/
def Diagnostic.Placed (start : String) (v : Json) (d : Diagnostic) : Prop :=
  d.code ≠ .invalidExpression ∧
  ((∃ place w, v.at? place = some w ∧ d.path = start ++ Position.text place) ∨
    (d.code = .fieldMissing ∧ ∃ place fields key, v.at? place = some (.object fields) ∧
      lookup key fields = none ∧ d.path = start ++ Position.text place ++ (Step.member key).text))

/-- The diagnostic is about the value itself, and does not say that the document cannot be read. -/
def Diagnostic.Own (d : Diagnostic) : Prop := d.path = "" ∧ d.code ≠ .invalidExpression

namespace Diagnostic.Placed

variable {v w : Json} {d : Diagnostic}

theorem here {start : String} (hpath : d.path = start) (hcode : d.code ≠ .invalidExpression) :
    d.Placed start v :=
  ⟨hcode, .inl ⟨[], v, v.at?_nil, by simp [Position.text, hpath]⟩⟩

theorem own (h : d.Own) : d.Placed "" v := here h.1 h.2

theorem missing {fields : List (String × Json)} {key : String} (hkey : lookup key fields = none)
    (hcode : d.code = .fieldMissing) (hpath : d.path = (Step.member key).text) :
    d.Placed "" (.object fields) :=
  ⟨by simp [hcode], .inr ⟨hcode, [], fields, key, Json.at?_nil _, hkey,
    by simp [Position.text, hpath]⟩⟩

/-- One step further up, the position has one more step in front. -/
theorem down {t : Step} (ht : v.at? [t] = some w) (h : d.Placed "" w) :
    (d.under t.text).Placed "" v := by
  obtain ⟨hcode, ⟨place, u, hu, hpath⟩ | ⟨hmissing, place, fields, key, hobject, hkey, hpath⟩⟩ := h
  · refine ⟨hcode, .inl ⟨t :: place, u, Json.at?_cons ht hu, ?_⟩⟩
    simp [Diagnostic.under, Position.text, hpath]
  · refine ⟨hcode, .inr ⟨hmissing, t :: place, fields, key, Json.at?_cons ht hobject, hkey, ?_⟩⟩
    simp [Diagnostic.under, Position.text, hpath, String.append_assoc]

theorem under {start : String} (h : d.Placed "" v) : (d.under start).Placed start v := by
  obtain ⟨hcode, ⟨place, u, hu, hpath⟩ | ⟨hmissing, place, fields, key, hobject, hkey, hpath⟩⟩ := h
  · exact ⟨hcode, .inl ⟨place, u, hu, by simp [Diagnostic.under, hpath]⟩⟩
  · exact ⟨hcode, .inr ⟨hmissing, place, fields, key, hobject, hkey,
      by simp [Diagnostic.under, hpath, String.append_assoc]⟩⟩

end Diagnostic.Placed

/-! ### What an outcome reports -/

/-- All diagnostics of an outcome have a property. -/
def Reports (o : Outcome) (p : Diagnostic → Prop) : Prop := ∀ ds, o = .ok ds → ∀ d ∈ ds, p d

namespace Reports

variable {o t : Outcome} {p q : Diagnostic → Prop}

theorem error (f : Fault) : Reports (.error f) p := fun _ h => by cases h

theorem nil : Reports (.ok []) p := fun ds h d hd => by cases h; cases hd

theorem mono (h : Reports o p) (hpq : ∀ d, p d → q d) : Reports o q :=
  fun ds hds d hd => hpq d (h ds hds d hd)

theorem single {d : Diagnostic} (h : p d) : Reports (.ok [d]) p := by
  intro ds hds e he
  obtain rfl : [d] = ds := by simpa using hds
  obtain rfl : e = d := by simpa using he
  exact h

theorem under {path : String} (h : Reports o p) (hpq : ∀ d, p d → q (d.under path)) :
    Reports (o.under path) q := by
  intro ds hds d hd
  obtain ⟨own, hown, rfl⟩ := Outcome.under_eq_ok.mp hds
  obtain ⟨e, he, rfl⟩ := List.mem_map.mp hd
  exact hpq e (h own hown e he)

theorem andThen (ho : Reports o p) (ht : Reports t p) : Reports (o.andThen t) p := by
  intro ds hds d hd
  obtain ⟨own, others, hown, hothers, rfl⟩ := Outcome.andThen_eq_ok.mp hds
  rcases List.mem_append.mp hd with hd | hd
  · exact ho own hown d hd
  · exact ht others hothers d hd

theorem collect {α : Type} {f : α → Outcome} : ∀ {l : List α}, (∀ a ∈ l, Reports (f a) p) →
    Reports (DocSchema.collect f l) p
  | [], _ => nil
  | a :: _, h =>
    (h a List.mem_cons_self).andThen (collect fun b hb => h b (List.mem_cons_of_mem a hb))

end Reports

/-! ### What a visit reports on the value itself -/

namespace Catalog

variable {c : Catalog} {w : Call → Outcome}

theorem mismatch_own (message : String) : Reports (mismatch message) Diagnostic.Own :=
  .single ⟨rfl, by simp⟩

theorem usesOutcome_own (target : Json) (us : List Usage) (s : Slot) :
    Reports (collect (fun u => c.useOutcome target u s) us) Diagnostic.Own := by
  refine .collect fun u _ => ?_
  simp only [useOutcome]
  rcases c.validator? target u.name with f | (_ | e)
  · exact .error f
  · exact .single ⟨rfl, by simp⟩
  · dsimp only
    cases e.verdict u s with
    | error f => exact .error f
    | ok verdict =>
      simp only [Except.map, unlessFalse]
      split
      · exact .single ⟨rfl, by cases e <;> simp [ValidatorEntry.code]⟩
      · exact .nil

/-- A reference to no defined type. -/
theorem namedOutcome_own {name : Json} {s g : Slot}
    (h : ∀ n, c.type? name ≠ .ok (some (.defined n))) (us : List Usage) :
    Reports (c.namedOutcome w name us s g) Diagnostic.Own := by
  simp only [namedOutcome]
  rcases hname : c.type? name with f | (_ | (t | n))
  · exact .error f
  · exact .single ⟨rfl, by simp⟩
  · refine .andThen ?_ (usesOutcome_own name us s)
    simp only [typeOutcome]
    rcases t.accepts s with f | (_ | _)
    · exact .error f
    · exact .single ⟨rfl, by simp⟩
    · exact .nil
  · exact absurd hname (h n)

theorem anyOutcome_own (s g : Slot) (message : String) (members : List Node) :
    Reports (anyOutcome w s g message members) Diagnostic.Own := by
  simp only [anyOutcome]
  rcases anyClean (fun n => w ⟨n, s, g⟩) members with f | (_ | _)
  · exact .error f
  · exact mismatch_own message
  · exact .nil

end Catalog

/-! ### One visit -/

/-- The fields of a record are named by text. -/
def Node.FieldsNamed : Node → Prop
  | .record declared => ∀ f ∈ declared, ∃ key, f.1.name = .string key
  | _ => True

namespace Catalog

variable {c : Catalog} {w : Call → Outcome} {p : Diagnostic → Prop}

/-- All answers to calls on a value report placed diagnostics. -/
def Places (w : Call → Outcome) : Prop := ∀ x v, x.slot = some v → v.Distinct →
  x.node.Everywhere Node.FieldsNamed → Reports (w x) (Diagnostic.Placed "" v)

theorem namedOutcome_reports {name : Json} {s g : Slot} (hown : ∀ d, Diagnostic.Own d → p d)
    (h : ∀ n, c.type? name = .ok (some (.defined n)) → Reports (w ⟨n, s, g⟩) p)
    (us : List Usage) : Reports (c.namedOutcome w name us s g) p := by
  by_cases hname : ∃ n, c.type? name = .ok (some (.defined n))
  · obtain ⟨n, hn⟩ := hname
    simp only [namedOutcome, hn]
    exact (h n hn).andThen ((usesOutcome_own name us s).mono hown)
  · exact (namedOutcome_own (not_exists.mp hname) us).mono hown

theorem fieldOutcome_reports {fields : List (String × Json)} {g : Slot} {f : FieldHead × Node}
    (hmissing : (∀ key, f.1.name = .string key → lookup key fields = none) →
      Reports (missingOutcome f.1 f.2) p)
    (hfield : ∀ key u, f.1.name = .string key → lookup key fields = some u →
      Reports ((w ⟨f.2, some u, g⟩).under (Step.member key).text) p) :
    Reports (fieldOutcome w fields g f) p := by
  obtain ⟨⟨name, optional, default⟩, type⟩ := f
  cases name with
  | string key =>
    simp only [fieldOutcome]
    cases hu : lookup key fields with
    | some u => exact hfield key u rfl hu
    | none => exact hmissing fun _ hk => by cases hk; exact hu
  | null | bool | number => exact hmissing fun _ hk => by cases hk
  | array | object => exact .error _

/-- A visit reports diagnostics of its own, those of its calls on the same value, those of its calls
on parts of the value from further up, and those of fields that are missing. -/
theorem step_reports {x : Call} (hown : ∀ d, Diagnostic.Own d → p d)
    (hmissing : ∀ declared fields, x.node = .record declared → x.slot = some (.object fields) →
      ∀ f ∈ declared, (∀ key, f.1.name = .string key → lookup key fields = none) →
        Reports (missingOutcome f.1 f.2) p)
    (hhere : ∀ y, c.Calls (fun _ => True) x y → y.slot = x.slot → Reports (w y) p)
    (hinside : ∀ y v t u, c.Calls (fun _ => True) x y → x.slot = some v → v.Inside t u →
      y.slot = some u → Reports ((w y).under t.text) p) : Reports (c.step w x) p := by
  obtain ⟨n, s, g⟩ := x
  have mismatch {message : String} : Reports (mismatch message) p := (mismatch_own _).mono hown
  cases n with
  | named name us => exact namedOutcome_reports hown (fun n hn => hhere _ (.named hn) rfl) us
  | nullableNamed name =>
    by_cases hs : s = some Json.null
    · subst hs; exact .nil
    · simp only [step]
      exact namedOutcome_reports hown (fun n hn => hhere _ (.nullableNamed hs hn) rfl) []
  | nullable inner =>
    by_cases hs : s = some Json.null
    · subst hs; exact .nil
    · simp only [step]
      exact hhere _ (.nullable hs) rfl
  | arrayOf item us =>
    rcases s with _ | (_ | _ | _ | _ | items | _)
    case some.array =>
      refine .andThen ((usesOutcome_own _ us _).mono hown) (.collect fun x hx => ?_)
      have hx : items[x.2]? = some x.1 := List.mem_zipIdx_iff_getElem?.mp hx
      exact hinside _ _ _ _ (.item (List.mem_of_getElem? hx)) rfl (.item hx) rfl
    all_goals exact mismatch
  | record declared =>
    rcases s with _ | (_ | _ | _ | _ | _ | fields)
    case some.object =>
      refine .collect fun f hf => fieldOutcome_reports (hmissing declared fields rfl rfl f hf)
        fun key u hkey hu => ?_
      exact hinside _ _ _ _ (.field hf hkey hu) rfl (.member (mem_of_lookup hu)) rfl
    all_goals exact mismatch
  | dict key value =>
    rcases s with _ | (_ | _ | _ | _ | _ | fields)
    case some.object =>
      refine .collect fun e he => .andThen ?_ ?_
      · exact hinside _ _ _ _ (.key he) rfl (.key he) rfl
      · exact hinside _ _ _ _ (.value he) rfl (.member he) rfl
    all_goals exact mismatch
  | union members => exact (anyOutcome_own s g _ members).mono hown
  | intersection members => exact .collect fun n hn => hhere _ (.part hn) rfl
  | conditional condition yes no =>
    simp only [step]
    rcases hg : condition.guard.evaluate g with _ | (_ | _)
    · exact (anyOutcome_own s g _ [yes, no]).mono hown
    · exact hhere _ (.no hg) rfl
    · exact hhere _ (.yes hg) rfl
  | literal u =>
    simp only [step]
    split
    · exact .nil
    · exact mismatch
  | absent =>
    cases s with
    | none => exact .nil
    | some v => exact .single (hown _ ⟨rfl, by simp⟩)

/-- A visit reports placed diagnostics if its calls do. -/
theorem step_places (hc : c.Everywhere Node.FieldsNamed) (hw : Places w) : Places (c.step w) := by
  intro x v hs hv hn
  refine step_reports (fun _ => .own) (fun declared fields hnode hslot f hf hnone => ?_)
    (fun y hy hslot => ?_) (fun y v' t u hy hslot hu hys => ?_)
  · obtain ⟨⟨name, optional, default⟩, type⟩ := f
    obtain ⟨key, rfl⟩ : ∃ key, name = .string key := by
      have hfields := hn.here
      rw [hnode] at hfields
      exact hfields _ hf
    obtain rfl : Json.object fields = v := by simpa [hslot] using hs
    simp only [missingOutcome]
    split
    · exact .nil
    · exact .single (.missing (hnone key rfl) rfl rfl)
  · exact hw y v (hslot.trans hs) hv (hy.everywhere hc hn)
  · obtain rfl : v' = v := by simpa [hslot] using hs
    refine (hw y u hys (hu.distinct hv) (hy.everywhere hc hn)).under fun d hd => ?_
    exact hd.down (hu.at? hv)

/-- The walk reports placed diagnostics with any fuel. -/
theorem outcome_places (hc : c.Everywhere Node.FieldsNamed) (fuel : Nat) :
    Places (c.outcome fuel) := by
  induction fuel with
  | zero => exact fun _ _ _ _ _ => .error _
  | succ fuel ih =>
    intro x
    rw [outcome_succ]
    exact step_places hc ih x

/-! ### Whole validations -/

/-- Each diagnostic of a validation is placed in the document, and a document that cannot be read
has one diagnostic, which says so. -/
theorem validate_placed {document : Document} {root : Json} {ds : List Diagnostic}
    (hc : c.Everywhere Node.FieldsNamed) (hd : document.Distinct)
    (h : c.validate (m := Except Fault) document root = .ok ds) :
    match document.read with
    | .error _ => ∃ message, ds = [⟨rootPath, .invalidExpression, message⟩]
    | .ok v => ∀ d ∈ ds, d.Placed rootPath v := by
  simp only [validate] at h
  cases hread : document.read with
  | error e =>
    rw [hread] at h
    cases h
    exact ⟨_, rfl⟩
  | ok v =>
    rw [hread] at h
    have hv := Document.distinct_of_read hd hread
    dsimp only at h ⊢
    split at h
    · next name _ =>
      intro d hmem
      have hslot : c.checkSlot (m := Except Fault) (.named (.string name) []) (some v) rootPath
          (.atRoot (some v)) = .ok ds := by
        simp only [checkDocument] at h
        cases hs : c.checkSlot (m := Except Fault) (.named (.string name) []) (some v) rootPath
            (.atRoot (some v)) with
        | error f => rw [hs] at h; cases h
        | ok found => rw [hs] at h; cases h; rfl
      rw [checkSlot_eq] at hslot
      have hroot : (Node.named (.string name) []).Everywhere Node.FieldsNamed :=
        .intro trivial (by simp [Node.parts])
      have hplaces := outcome_places hc (c.budget (.named (.string name) []) (some v))
        ⟨.named (.string name) [], some v, some v⟩ v rfl hv hroot
      exact hplaces.under (fun d hd => hd.under) ds hslot d hmem
    · cases h
    · cases h
      simpa using Diagnostic.Placed.here rfl (by simp)

/-- Shelves of items by name: names of at least two characters, items that are texts. -/
def shelves : Catalog where
  version := .null
  root := .null
  types := [("Shelves", .record
    [(⟨.string "label", false, .null⟩, .named (.string "String") []),
    (⟨.string "rows", false, .null⟩, .arrayOf
      (.dict (.named (.string "String") [⟨.string "min", [], .int 2⟩])
        (.named (.string "String") [])) [])])]
  validators := []

theorem shelves_fieldsNamed : shelves.Everywhere Node.FieldsNamed := by
  have leaf {name : String} {us : List Usage} :
      (Node.named (.string name) us).Everywhere Node.FieldsNamed :=
    .intro trivial (by simp [Node.parts])
  simp only [Everywhere, shelves, List.forall_mem_singleton]
  refine .intro (by simp [Node.FieldsNamed]) ?_
  simp only [Node.parts, List.map_cons, List.map_nil, List.forall_mem_cons]
  refine ⟨leaf, .intro trivial ?_, by simp⟩
  simp only [Node.parts, List.forall_mem_singleton]
  refine .intro trivial ?_
  simp only [Node.parts, List.forall_mem_cons]
  exact ⟨leaf, leaf, by simp⟩

/-- Two rows, the second with a name that is too short for an item that is no text; no label. -/
def unlabelledShelves : Json := .object [("rows", .array [.object [], .object [("k", .int 0)]])]

/-- The diagnostics of the shelves; the second one is placed at a name in the second row. -/
theorem shelves_placed :
    shelves.validate (m := Except Fault) (.value unlabelledShelves) .null = .ok
      [⟨"$.label", .fieldMissing, "Missing required field."⟩,
        ⟨"$.rows[1].[key:k]", .constraintViolation, "Constraint failed: String.min"⟩,
        ⟨"$.rows[1].k", .typeMismatch, "Expected String."⟩] ∧
    shelves.Everywhere Node.FieldsNamed ∧ unlabelledShelves.Distinct ∧
    Diagnostic.Placed "$" unlabelledShelves
      ⟨"$.rows[1].[key:k]", .constraintViolation, "Constraint failed: String.min"⟩ := by
  have found : shelves.validate (m := Except Fault) (.value unlabelledShelves) .null = .ok
      [⟨"$.label", .fieldMissing, "Missing required field."⟩,
        ⟨"$.rows[1].[key:k]", .constraintViolation, "Constraint failed: String.min"⟩,
        ⟨"$.rows[1].k", .typeMismatch, "Expected String."⟩] := by decide +kernel
  have distinct : (Document.value unlabelledShelves).Distinct := by
    simp [Document.Distinct, unlabelledShelves, Json.int, Json.Distinct, Json.DistinctAll,
      Json.DistinctFields]
  have placed := validate_placed shelves_fieldsNamed distinct found
  exact ⟨found, shelves_fieldsNamed, distinct, placed _ (by simp)⟩

end Catalog

end DocSchema
