import DocSchema.Proofs.Walk.Equation
import DocSchema.Proofs.Walk.Locality

/-!
Records look at declared fields only.

A visit to a record looks up the declared names in an object and nothing else, so keys that are not
declared, and the order of all keys, do not matter to the record itself. They could matter to the
types of its fields: below a record, guards are asked about the whole object. This is the only way
out, and it is closed again by the next array, record or dictionary. So two objects with the same
declared fields are judged alike as soon as the guards tell them no different. Main statement:
`check_record_open`.
-/

namespace DocSchema.Catalog

variable {c : Catalog} {fields others : List (String × Json)}

/-- Where all guards have the same verdicts on two subjects, the same is found. -/
theorem found_congr_subject {n : Node} {g h : Slot} (hc : c.Everywhere (Node.GuardAgrees g h))
    (hn : n.Everywhere (Node.GuardAgrees g h)) (s : Slot) : c.found ⟨n, s, g⟩ = c.found ⟨n, s, h⟩ :=
  outcome_congr_subject hc _ hn

/-- The objects have the same value under the name of a field, or none. -/
def SameField (fields others : List (String × Json)) (f : FieldHead × Node) : Prop :=
  ∀ key, f.1.name = .string key → lookup key fields = lookup key others

/-- A declared field is judged alike in two objects that have the same under its name, if its type
is judged alike inside both. -/
theorem fieldOutcome_congr {w : Call → Outcome} {f : FieldHead × Node} {g h : Slot}
    (hfield : SameField fields others f) (hcalls : ∀ v, w ⟨f.2, some v, g⟩ = w ⟨f.2, some v, h⟩) :
    fieldOutcome w fields g f = fieldOutcome w others h f := by
  obtain ⟨⟨name, optional, default⟩, type⟩ := f
  cases name with
  | string key =>
    simp only [fieldOutcome, ← hfield key rfl]
    cases lookup key fields with
    | none => rfl
    | some v => simp only [hcalls v]
  | _ => rfl

/-- A record finds the same in two objects with the same declared fields, if the guards have the same
verdicts on both objects. What the record itself was asked under does not matter. -/
theorem found_record_open {declared : List (FieldHead × Node)}
    (hfields : ∀ f ∈ declared, SameField fields others f)
    (hrecord : (Node.record declared).Everywhere
      (Node.GuardAgrees (some (.object fields)) (some (.object others))))
    (htypes : c.Everywhere (Node.GuardAgrees (some (.object fields)) (some (.object others))))
    (g h : Slot) : c.found ⟨.record declared, some (.object fields), g⟩ =
      c.found ⟨.record declared, some (.object others), h⟩ := by
  rw [found_eq_step, found_eq_step]
  refine eq_congruence.collect fun f hf => fieldOutcome_congr (hfields f hf) ?_
  intro v
  have htype : f.2.Everywhere (Node.GuardAgrees (some (.object fields)) (some (.object others))) :=
    hrecord.inside f.2 (List.mem_map_of_mem hf)
  exact found_congr_subject htypes htype (some v)

/-- Objects that agree on the declared fields of a record are checked against it alike, with the same
reports and the same faults, whatever other keys they have, in whatever order, and under whatever
scopes: provided that no guard in the record or in a definition tells the two objects apart. -/
theorem check_record_open (c : Catalog) {declared : List (FieldHead × Node)}
    (hfields : ∀ f ∈ declared, SameField fields others f)
    (hrecord : (Node.record declared).Everywhere
      (Node.GuardAgrees (some (.object fields)) (some (.object others))))
    (htypes : c.Everywhere (Node.GuardAgrees (some (.object fields)) (some (.object others))))
    (path : String) (a b : Scope) (r : Report) :
    c.checkInto (m := Except Fault) (.record declared) (some (.object fields)) path a r =
      c.checkInto (.record declared) (some (.object others)) path b r := by
  rw [checkInto_eq_found, checkInto_eq_found, found_record_open hfields hrecord htypes]

/-- A verdict on an application: a reason, and who signed it. -/
def verdictFields : List (FieldHead × Node) :=
  [(⟨.string "reason", true, .null⟩, .nullable (.named (.string "Reason") [])),
    (⟨.string "signed", false, .null⟩, .named (.string "String") [])]

/-- A rejection with a reason that is too short, and nobody's name. -/
def rejection : List (String × Json) :=
  [("status", .string "Rejected"), ("reason", .string "no"), ("signed", .null)]

/-- The same in another order, with more in it. -/
def filedRejection : List (String × Json) :=
  [("signed", .null), ("file", .int 12), ("reason", .string "no"), ("status", .string "Rejected")]

/-- The state of an application is not declared in a verdict, and the reason depends on it. -/
theorem check_rejection_open :
    (∀ f ∈ verdictFields, SameField rejection filedRejection f) ∧
    (Node.record verdictFields).Everywhere
      (Node.GuardAgrees (some (.object rejection)) (some (.object filedRejection))) ∧
    applications.Everywhere
      (Node.GuardAgrees (some (.object rejection)) (some (.object filedRejection))) ∧
    applications.checkInto (m := Except Fault) (.record verdictFields)
      (some (.object filedRejection)) "$" (.atRoot none) .empty = .ok ⟨[
        ⟨"$.reason", .constraintViolation, "Constraint failed: String.min"⟩,
        ⟨"$.signed", .typeMismatch, "Expected String."⟩]⟩ := by
  have hfields : ∀ f ∈ verdictFields, SameField rejection filedRejection f := by
    simp [verdictFields, SameField, rejection, filedRejection, lookup]
  have hrecord : (Node.record verdictFields).Everywhere
      (Node.GuardAgrees (some (.object rejection)) (some (.object filedRejection))) := by
    refine .intro trivial ?_
    simp only [Node.parts, verdictFields, List.map_cons, List.map_nil, List.forall_mem_cons]
    exact ⟨.intro trivial (by simpa [Node.parts] using .leaf rfl trivial), .leaf rfl trivial, by simp⟩
  have htypes : applications.Everywhere
      (Node.GuardAgrees (some (.object rejection)) (some (.object filedRejection))) :=
    applications_everywhere rfl
  have hfound : applications.checkInto (m := Except Fault) (.record verdictFields)
      (some (.object rejection)) "$" (.atRoot (some (.object rejection))) .empty = .ok ⟨[
        ⟨"$.reason", .constraintViolation, "Constraint failed: String.min"⟩,
        ⟨"$.signed", .typeMismatch, "Expected String."⟩]⟩ := by decide +kernel
  have hopen := check_record_open applications hfields hrecord htypes "$"
    (.atRoot (some (.object rejection))) (.atRoot none) .empty
  exact ⟨hfields, hrecord, htypes, hopen ▸ hfound⟩

end DocSchema.Catalog
