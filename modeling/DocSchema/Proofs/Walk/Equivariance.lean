import DocSchema.Proofs.Walk.Fuel

/-!
The walk only ever adds to the report, and paths only ever go in front.

What a check reports is one list of diagnostics with paths that start at the value checked. It is
fixed by the node, the slot and the scope: the path of the value goes in front of each of its paths,
and what was reported before stays in front of all of it. A fault is a fault under every path and
behind every report. The list is `Catalog.outcome` at the budget, so the main statement puts
`check_eq_into` and `outcome_budget` together.
-/

namespace DocSchema.Catalog

variable (c : Catalog)

theorem checkInto_eq (n : Node) (s : Slot) (path : String) (scope : Scope) (r : Report) :
    c.checkInto n s path scope r =
      (c.outcome (c.budget n s) ⟨n, s, scope.subject⟩).into path r :=
  c.check_eq_into _ n s path scope r

theorem isValid_eq (n : Node) (s : Slot) (scope : Scope) : c.isValid n s scope =
    (c.outcome (c.budget n s) ⟨n, s, scope.subject⟩).map List.isEmpty := by
  rw [← Outcome.into_isEmpty rootPath, ← checkInto_eq]
  rfl

theorem checkSlot_eq (n : Node) (s : Slot) (path : String) (scope : Scope) :
    c.checkSlot n s path scope = (c.outcome (c.budget n s) ⟨n, s, scope.subject⟩).under path := by
  have h : c.checkSlot n s path scope =
      (c.checkInto (m := Except Fault) n s path scope .empty).map Report.entries := rfl
  rw [h, checkInto_eq, Outcome.entries_into]
  cases c.outcome (c.budget n s) ⟨n, s, scope.subject⟩ <;> rfl

/-- A check that did not run out of fuel has the outcome that the budget gives. -/
theorem check_eq_into_budget {fuel : Nat} {n : Node} {s : Slot} {path : String} {scope : Scope}
    {r : Report} (h : c.check (m := Except Fault) fuel n s path scope r ≠ .error .exhausted) :
    c.check fuel n s path scope r =
      (c.outcome (c.budget n s) ⟨n, s, scope.subject⟩).into path r := by
  rw [check_eq_into] at h ⊢
  have hne : c.outcome fuel ⟨n, s, scope.subject⟩ ≠ .error .exhausted :=
    fun hf => h (by rw [hf]; rfl)
  rw [← outcome_budget hne]

/-- One list of diagnostics, or one fault, is behind all checks of a slot against a node: each check
leaves the report as it was with that list at its end, the path in front of each entry, and the slot
is valid exactly if the list is empty. More or less fuel, so long as it does not run out, changes
nothing. -/
theorem exists_outcome_of_check (n : Node) (s : Slot) (scope : Scope) : ∃ found : Outcome,
    (∀ (path : String) (r : Report),
      (c.checkInto (m := Except Fault) n s path scope r).map Report.entries =
        found.map fun ds => r.entries ++ ds.map (Diagnostic.under path)) ∧
    c.isValid n s scope = found.map List.isEmpty ∧
    ∀ (fuel : Nat) (path : String) (r : Report),
      c.check (m := Except Fault) fuel n s path scope r = .error .exhausted ∨
      (c.check (m := Except Fault) fuel n s path scope r).map Report.entries =
        found.map fun ds => r.entries ++ ds.map (Diagnostic.under path) := by
  refine ⟨c.outcome (c.budget n s) ⟨n, s, scope.subject⟩, fun path r => ?_, c.isValid_eq n s scope,
    fun fuel path r => ?_⟩
  · rw [checkInto_eq, Outcome.entries_into]
  · by_cases h : c.check (m := Except Fault) fuel n s path scope r = .error .exhausted
    · exact .inl h
    · exact .inr (by rw [c.check_eq_into_budget h, Outcome.entries_into])

end DocSchema.Catalog
