import DocSchema.Proofs.Expression.Guard
import DocSchema.Proofs.Schema.RoundTrip
import DocSchema.Proofs.Walk.Equation

/-!
Conditionals with their guard negated.

A guard `path = literal` and the guard `path != literal` are each other's negation only where the path
leads somewhere. So a conditional may state either of them, with its branches in place or exchanged,
as long as the path leads somewhere, or the scope is no object and the branches are tried in turn. In
an object in which the path leads nowhere both guards are false, and both conditionals come to their
own second branch. Main statement: `check_negated`.
-/

namespace DocSchema

namespace Guard

open Expression

/-- The text of a guard, with one blank on either side of its operator. -/
def sentence (names : List (List Char)) (r : Relation) (literal : List Char) : String :=
  String.ofList (dotted names ++ ([' '] ++ (r.text.toList ++ ([' '] ++ literal))))

variable {names : List (List Char)} {r : Relation} {literal : List Char} {v : Json}

theorem ofText_sentence (hne : names ≠ []) (hnames : ∀ name ∈ names, IsName name)
    (hr : r ∈ equalities) (hliteral : Literal.Spells literal v) :
    ofText (sentence names r literal) = .ok (.path (names.map String.ofList) r v) := by
  have hblank : Blanks [' '] := by decide
  have hspells := Spells.intro hne hnames hr hblank hblank hliteral
  rw [ofText, sentence, String.toList_ofList, trim_of_solid (solid_of_spells hspells),
    ofTrimmed_of_spells hspells]

/-- The text is a condition, and its guard is the one it was written for. -/
theorem exists_condition_sentence (hne : names ≠ []) (hnames : ∀ name ∈ names, IsName name)
    (hr : r ∈ equalities) (hliteral : Literal.Spells literal v) : ∃ condition : Condition,
      Condition.read (.string (sentence names r literal)) = .ok condition ∧
      condition.guard = .path (names.map String.ofList) r v := by
  let condition : Condition := ⟨.string (sentence names r literal), _,
    ofText_sentence hne hnames hr hliteral⟩
  exact ⟨condition, condition.read_text, rfl⟩

end Guard

namespace Catalog

variable {c : Catalog} {p q : Condition} {a b : Node} {s g : Slot}

/-! ### Two branches -/

theorem found_yes (h : p.guard.evaluate g = some true) :
    c.found ⟨.conditional p a b, s, g⟩ = c.found ⟨a, s, g⟩ := by
  rw [found_eq_step]
  simp only [step, h]

theorem found_no (h : p.guard.evaluate g = some false) :
    c.found ⟨.conditional p a b, s, g⟩ = c.found ⟨b, s, g⟩ := by
  rw [found_eq_step]
  simp only [step, h]

theorem found_undecided (h : p.guard.evaluate g = none) : c.found ⟨.conditional p a b, s, g⟩ =
    anyOutcome c.found s g "Value does not match conditional branches." [a, b] := by
  rw [found_eq_step]
  simp only [step, h]

/-- Two nodes that end without a fault may be tried in either order. -/
theorem anyOutcome_swap {w : Call → Outcome} {message : String} {own others : List Diagnostic}
    (ha : w ⟨a, s, g⟩ = .ok own) (hb : w ⟨b, s, g⟩ = .ok others) :
    anyOutcome w s g message [a, b] = anyOutcome w s g message [b, a] := by
  simp only [anyOutcome, anyClean_cons, ha, hb]
  cases own <;> cases others <;> rfl

/-- Opposite verdicts select the same branch, if the branches are exchanged. -/
theorem found_negated {verdict : Bool} (hp : p.guard.evaluate g = some verdict)
    (hq : q.guard.evaluate g = some !verdict) :
    c.found ⟨.conditional p a b, s, g⟩ = c.found ⟨.conditional q b a, s, g⟩ := by
  cases verdict with
  | true => rw [found_yes hp, found_no hq]
  | false => rw [found_no hp, found_yes hq]

/-- A check that ends without a fault finds something. -/
theorem exists_found_of_checkInto {n : Node} {path : String} {scope : Scope} {r r' : Report}
    (h : c.checkInto (m := Except Fault) n s path scope r = .ok r') :
    ∃ ds, c.found ⟨n, s, scope.subject⟩ = .ok ds := by
  rw [checkInto_eq_found] at h
  cases hfound : c.found ⟨n, s, scope.subject⟩ with
  | error f => rw [hfound] at h; cases h
  | ok ds => exact ⟨ds, rfl⟩

/-- The conditions `path = literal` and `path != literal` can be read, and a conditional on the one may
be exchanged for the conditional on the other with exchanged branches: where the scope is no object,
if both branches end without a fault, and where it is an object in which the path leads somewhere.
In an object in which the path leads nowhere, either conditional is its own second branch. -/
theorem check_negated (c : Catalog) {names : List (List Char)} {literal : List Char} {v : Json}
    (hne : names ≠ []) (hnames : ∀ name ∈ names, Expression.IsName name)
    (hliteral : Literal.Spells literal v) : ∃ equal unequal : Condition,
      Condition.read (.string (Guard.sentence names .equal literal)) = .ok equal ∧
      Condition.read (.string (Guard.sentence names .unequal literal)) = .ok unequal ∧
      ∀ (a b : Node) (s : Slot) (path : String) (scope : Scope) (r : Report),
        let judged (n : Node) : Except Fault Report := c.checkInto n s path scope r
        ((∀ fields, scope.subject ≠ some (.object fields)) →
          (∃ ra, judged a = .ok ra) → (∃ rb, judged b = .ok rb) →
          judged (.conditional equal a b) = judged (.conditional unequal b a)) ∧
        ∀ fields, scope.subject = some (.object fields) →
          (∀ w, Json.Leads (names.map String.ofList) (.object fields) w →
            judged (.conditional equal a b) = judged (.conditional unequal b a)) ∧
          ((∀ w, ¬ Json.Leads (names.map String.ofList) (.object fields) w) →
            judged (.conditional equal a b) = judged b ∧
            judged (.conditional unequal b a) = judged a) := by
  obtain ⟨equal, hequal, hp⟩ :=
    Guard.exists_condition_sentence (r := .equal) hne hnames (by decide) hliteral
  obtain ⟨unequal, hunequal, hq⟩ :=
    Guard.exists_condition_sentence (r := .unequal) hne hnames (by decide) hliteral
  refine ⟨equal, unequal, hequal, hunequal, ?_⟩
  intro a b s path scope r judged
  have hjudged (n : Node) : judged n = (c.found ⟨n, s, scope.subject⟩).into path r :=
    c.checkInto_eq_found n s path scope r
  obtain ⟨hundecided, hobject⟩ := Guard.evaluate_path (names.map String.ofList) .equal v scope.subject
  obtain ⟨hundecided', hobject'⟩ :=
    Guard.evaluate_path (names.map String.ofList) .unequal v scope.subject
  rw [← hp] at hundecided hobject
  rw [← hq] at hundecided' hobject'
  constructor
  · rintro hnone ⟨ra, ha⟩ ⟨rb, hb⟩
    obtain ⟨own, hown⟩ := exists_found_of_checkInto ha
    obtain ⟨others, hothers⟩ := exists_found_of_checkInto hb
    rw [hjudged, hjudged, found_undecided (hundecided.mpr hnone),
      found_undecided (hundecided'.mpr hnone), anyOutcome_swap hown hothers]
  · intro fields hfields
    obtain ⟨hnowhere, hfound⟩ := hobject fields hfields
    obtain ⟨hnowhere', hfound'⟩ := hobject' fields hfields
    constructor
    · intro w hw
      -- the relations are each other's negation on what the path leads to
      rw [hjudged, hjudged, found_negated (hfound w hw) (hfound' w hw)]
    · intro hw
      rw [hjudged, hjudged, hjudged, hjudged, found_no (hnowhere hw), found_no (hnowhere' hw)]
      exact ⟨rfl, rfl⟩

/-- The condition that a thing is of a kind. -/
def isOfKind : Condition where
  text := .string "meta.kind = 'a=b'"
  guard := .path ["meta", "kind"] .equal (.string "a=b")
  isRead := rfl

/-- The condition that it is not. -/
def isOfOtherKind : Condition where
  text := .string "meta.kind != 'a=b'"
  guard := .path ["meta", "kind"] .unequal (.string "a=b")
  isRead := rfl

/-- A thing of the kind, and one of no kind. -/
def thing : Json := .object [("meta", .object [("kind", .string "a=b")])]

def bareThing : Json := .object [("meta", .object [])]

/-- A number for things of another kind and a text for things of this one: exchanged under an equation,
the branches are tried alike outside of things and selected alike inside of one with a kind, but
inside of one without a kind each conditional comes to its own second branch. -/
theorem check_kind_negated :
    Literal.Spells "'a=b'".toList (.string "a=b") ∧
    Condition.read (.string (Guard.sentence ["meta".toList, "kind".toList] .equal "'a=b'".toList)) =
      .ok isOfKind ∧
    Condition.read (.string (Guard.sentence ["meta".toList, "kind".toList] .unequal
      "'a=b'".toList)) = .ok isOfOtherKind ∧
    let number : Node := .named (.string "Int") []
    let text : Node := .named (.string "String") []
    let judged (n : Node) (scope : Scope) : Except Fault Report :=
      empty.checkInto n (some .null) "$" scope .empty
    judged (.conditional isOfOtherKind number text) (.atRoot (some .null)) =
      .ok ⟨[⟨"$", .typeMismatch, "Value does not match conditional branches."⟩]⟩ ∧
    judged (.conditional isOfOtherKind number text) (.inside (.atRoot none) .null thing) =
      .ok ⟨[⟨"$", .typeMismatch, "Expected String."⟩]⟩ ∧
    judged (.conditional isOfOtherKind number text) (.inside (.atRoot none) .null bareThing) =
      .ok ⟨[⟨"$", .typeMismatch, "Expected String."⟩]⟩ ∧
    judged (.conditional isOfKind text number) (.inside (.atRoot none) .null bareThing) =
      .ok ⟨[⟨"$", .typeMismatch, "Expected Int."⟩]⟩ := by
  have hliteral : Literal.Spells "'a=b'".toList (.string "a=b") :=
    @Literal.Spells.quoted '\'' _ _ (.inr rfl) (.plain (by decide) (.plain (by decide)
      (.plain (by decide) .nil)))
  have hequal := isOfKind.read_text
  have hunequal := isOfOtherKind.read_text
  have hnames : ∀ name ∈ ["meta".toList, "kind".toList], Expression.IsName name := by decide
  obtain ⟨equal, unequal, he, hu, h⟩ :=
    check_negated empty (List.cons_ne_nil _ _) hnames hliteral
  obtain rfl : isOfKind = equal := Except.ok.inj (hequal.symm.trans he)
  obtain rfl : isOfOtherKind = unequal := Except.ok.inj (hunequal.symm.trans hu)
  refine ⟨hliteral, hequal, hunequal, ?_⟩
  intro number text judged
  have houtside := (h text number (some .null) "$" (.atRoot (some .null)) .empty).1
    (by rintro fields ⟨⟩) ⟨⟨[⟨"$", .typeMismatch, "Expected String."⟩]⟩, by decide +kernel⟩
    ⟨⟨[⟨"$", .typeMismatch, "Expected Int."⟩]⟩, by decide +kernel⟩
  have hinside := ((h text number (some .null) "$" (.inside (.atRoot none) .null thing)
    .empty).2 _ rfl).1 (.string "a=b") (.down rfl (.down rfl (.here _)))
  have hbare := ((h text number (some .null) "$" (.inside (.atRoot none) .null bareThing)
    .empty).2 _ rfl).2 <| by
    intro w hw
    cases hw with
    | down hkey hrest =>
      cases hkey
      cases hrest with
      | down hkey => cases hkey
  refine ⟨houtside.symm.trans (by decide +kernel), hinside.symm.trans (by decide +kernel),
    hbare.2.trans (by decide +kernel), hbare.1.trans (by decide +kernel)⟩

end Catalog

end DocSchema
