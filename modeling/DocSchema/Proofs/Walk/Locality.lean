import DocSchema.Proofs.Walk.Equivariance

/-!
What the walk sees of a document besides the value it checks.

A scope holds the whole document, the value that is being checked, and the container of the value.
Guards are asked about the container, or about the document where there is no container, and nothing
else looks at the scope: the value being checked is put into it again at every part, and never asked
for. So two checks of the same value agree if all guards that could be asked have the same verdicts
on both sides (`outcome_congr_subject`). Arrays, records and dictionaries put themselves in the place
of the container, so nothing from outside them reaches their parts. Main statement: `check_local`.
-/

namespace DocSchema

/-- The node goes down into the value: its parts are asked about parts of the value. -/
def Node.Descends : Node → Prop
  | .arrayOf .. | .record _ | .dict .. => True
  | _ => False

namespace Catalog

variable {c : Catalog} {n : Node} {s : Slot} {g h : Slot}

/-- Where all guards have the same verdicts on two subjects, the subject makes no difference. -/
theorem outcome_congr_subject (hc : c.Everywhere (Node.GuardAgrees g h)) (fuel : Nat) :
    ∀ {n : Node}, n.Everywhere (Node.GuardAgrees g h) →
      c.outcome fuel ⟨n, s, g⟩ = c.outcome fuel ⟨n, s, h⟩ := by
  induction fuel with
  | zero => exact fun _ => rfl
  | succ fuel ih =>
    intro n hn
    rw [outcome_succ, outcome_succ]
    -- calls on the same value have the other subject, calls below are the same on both sides
    exact eq_congruence.step hn.here (fun _ _ => rfl) fun m hm => ih (hm.everywhere hc hn)

/-- Below an array, a record or a dictionary the subject is replaced. -/
theorem outcome_of_descends (fuel : Nat) (hn : n.Descends) (s g h : Slot) :
    c.outcome fuel ⟨n, s, g⟩ = c.outcome fuel ⟨n, s, h⟩ := by
  cases fuel with
  | zero => rfl
  | succ fuel =>
    rw [outcome_succ, outcome_succ]
    cases n with
    | arrayOf | record | dict => rcases s with _ | (_ | _ | _ | _ | _ | _) <;> rfl
    | _ => exact hn.elim

/-- A check under two scopes reports the same, or breaks off for the same reason: where all guards in
the node and in the definitions have the same verdicts on what they are asked about; always, if the
node goes down into the value; always, if the scopes differ only in what they hold as the value being
checked; and always, if both are scopes of the inside of one container, whatever parts they hold and
wherever the container stands. -/
theorem check_local (c : Catalog) (fuel : Nat) (n : Node) (s : Slot) (path : String) (r : Report)
    (a b : Scope) :
    (n.Everywhere (Node.GuardAgrees a.subject b.subject) →
      c.Everywhere (Node.GuardAgrees a.subject b.subject) →
      c.check (m := Except Fault) fuel n s path a r = c.check fuel n s path b r) ∧
    (n.Descends → c.check (m := Except Fault) fuel n s path a r = c.check fuel n s path b r) ∧
    (∀ current, c.check (m := Except Fault) fuel n s path { a with current := current } r =
      c.check fuel n s path a r) ∧
    ∀ part other container, c.check (m := Except Fault) fuel n s path (a.inside part container) r =
      c.check fuel n s path (b.inside other container) r := by
  refine ⟨fun hn hc => ?_, fun hn => ?_, fun current => ?_, fun part other container => ?_⟩
  · rw [check_eq_into, check_eq_into, outcome_congr_subject hc fuel hn]
  · rw [check_eq_into, check_eq_into, outcome_of_descends fuel hn]
  · rw [check_eq_into, check_eq_into, Scope.subject_current]
  · rw [check_eq_into, check_eq_into, Scope.subject_inside, Scope.subject_inside]

/-- The condition that an application is rejected. -/
def isRejected : Condition where
  text := .string "status = 'Rejected'"
  guard := .path ["status"] .equal (.string "Rejected")
  isRead := rfl

/-- Applications: only those that are rejected have a reason. -/
def applications : Catalog where
  version := .null
  root := .null
  types := [("Reason", .nullable (.conditional isRejected
    (.named (.string "String") [⟨.string "min", [], .int 3⟩]) .absent))]
  validators := []

/-- The scope of a reason inside an application. -/
def insideApplication : Scope :=
  .inside (.atRoot none) (.string "no")
    (.object [("status", .string "Rejected"), ("name", .string "A")])

/-- The scope of an application on its own, with nothing but the same status. -/
def bareApplication : Scope := .atRoot (some (.object [("status", .string "Rejected")]))

/-- There is one guard in applications. -/
theorem applications_everywhere {g h : Slot}
    (hguard : isRejected.guard.evaluate g = isRejected.guard.evaluate h) :
    applications.Everywhere (Node.GuardAgrees g h) := by
  simp only [Everywhere, applications, List.forall_mem_singleton]
  refine .intro trivial ?_
  simp only [Node.parts, List.forall_mem_singleton]
  refine .intro hguard ?_
  simp only [Node.parts, List.forall_mem_cons]
  exact ⟨.leaf rfl trivial, .leaf rfl trivial, by simp⟩

theorem applications_agree : applications.Everywhere
    (Node.GuardAgrees insideApplication.subject bareApplication.subject) :=
  applications_everywhere rfl

/-- A reason is judged alike in two applications with the same status, and a list of reasons in any
two scopes: its items see the list, which is no application. -/
theorem check_reason_local :
    applications.Everywhere (Node.GuardAgrees insideApplication.subject bareApplication.subject) ∧
    applications.check (m := Except Fault) 5 (.named (.string "Reason") []) (some (.string "no"))
      "$.reason" bareApplication .empty = .ok ⟨[⟨"$.reason", .constraintViolation,
        "Constraint failed: String.min"⟩]⟩ ∧
    (Node.arrayOf (.named (.string "Reason") []) []).Descends ∧
    applications.check (m := Except Fault) 6 (.arrayOf (.named (.string "Reason") []) [])
      (some (.array [.string "no"])) "$.reasons" bareApplication .empty =
        .ok ⟨[⟨"$.reasons[0]", .typeMismatch, "Value does not match conditional branches."⟩]⟩ := by
  have inside : applications.check (m := Except Fault) 5 (.named (.string "Reason") [])
      (some (.string "no")) "$.reason" insideApplication .empty = .ok ⟨[⟨"$.reason",
        .constraintViolation, "Constraint failed: String.min"⟩]⟩ := by decide +kernel
  have listed : applications.check (m := Except Fault) 6
      (.arrayOf (.named (.string "Reason") []) []) (some (.array [.string "no"])) "$.reasons"
      insideApplication .empty = .ok ⟨[⟨"$.reasons[0]", .typeMismatch,
        "Value does not match conditional branches."⟩]⟩ := by decide +kernel
  have alike := (check_local applications 5 (.named (.string "Reason") []) (some (.string "no"))
    "$.reason" .empty insideApplication bareApplication).1 (.intro trivial (by simp [Node.parts]))
    applications_agree
  have below := (check_local applications 6 (.arrayOf (.named (.string "Reason") []) [])
    (some (.array [.string "no"])) "$.reasons" .empty insideApplication bareApplication).2.1 trivial
  exact ⟨applications_agree, alike ▸ inside, trivial, below ▸ listed⟩

end Catalog

end DocSchema
