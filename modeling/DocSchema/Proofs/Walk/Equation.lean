import DocSchema.Proofs.Walk.Equivariance

/-!
The walk without fuel.

What a walk finds within its budget is what it finds with any fuel at all, so the budget drops out:
`Catalog.found` answers every call, and it answers each one by a single visit whose calls it answers
too (`found_eq_step`). Later proofs that compare two walks rewrite with this equation and go by the
node, and need neither fuel nor a budget.
-/

namespace DocSchema.Catalog

variable {c : Catalog}

/-- What a walk finds, with fuel to match. -/
def found (c : Catalog) (x : Call) : Outcome := c.outcome (c.budget x.node x.slot) x

/-! ### Budgets of calls -/

theorem depth_le_of_lookup {t : String} {n : Node} (h : lookup t c.types = some n) :
    n.depth ≤ depthsBut [] c.types := by
  have henter := depthsBut_enter List.not_mem_nil h
  omega

/-- A call may need more fuel than the visit that makes it, as a definition may be deeper than the
name it stands behind, but never more than twice as much. -/
theorem Calls.budget_le {rejected : Call → Prop} {x y : Call} (h : c.Calls rejected x y) :
    c.budget y.node y.slot ≤ 2 * c.budget x.node x.slot := by
  have hdepths : y.node.depth ≤ x.node.depth + depthsBut [] c.types ∧
      slotDepth y.slot ≤ slotDepth x.slot := by
    rcases h.level with ⟨hs, -, hn, -⟩ | ⟨hs, hn⟩ | ⟨t, -, ht, hs, -⟩
    · exact ⟨by omega, by rw [hs]⟩
    · exact ⟨by omega, by omega⟩
    · have hdefinition := depth_le_of_lookup ht
      exact ⟨by omega, by rw [hs]⟩
  have hlevel : c.visitsPerLevel y.node ≤ 2 * c.visitsPerLevel x.node := by
    simp only [visitsPerLevel, ← depthsBut_nil]
    omega
  calc c.budget y.node y.slot
      ≤ (slotDepth x.slot + 1) * (2 * c.visitsPerLevel x.node) :=
        Nat.mul_le_mul (by omega) hlevel
    _ = 2 * c.budget x.node x.slot := Nat.mul_left_comm _ _ _

/-! ### The equation -/

/-- From the budget on, more fuel finds no more. -/
theorem outcome_eq_found {fuel : Nat} {x : Call} (h : c.budget x.node x.slot ≤ fuel) :
    c.outcome fuel x = c.found x := by
  by_cases hended : c.found x = .error .exhausted
  · by_contra hne
    have hfuel : c.outcome fuel x ≠ .error .exhausted := fun hexhausted =>
      hne (hexhausted.trans hended.symm)
    exact hne (outcome_budget hfuel).symm
  · exact c.outcome_extends h x hended

/-- What is found is found by one visit whose calls find what is found. -/
theorem found_eq_step (c : Catalog) (x : Call) : c.found x = c.step c.found x := by
  rw [← outcome_eq_found (show c.budget x.node x.slot ≤ 2 * c.budget x.node x.slot + 1 by omega),
    outcome_succ]
  exact eq_congruence.step x.node.guardAgrees_refl (fun y hy => outcome_eq_found hy.budget_le)
    fun m hm => outcome_eq_found hm.budget_le

theorem checkInto_eq_found (c : Catalog) (n : Node) (s : Slot) (path : String) (scope : Scope)
    (r : Report) : c.checkInto n s path scope r = (c.found ⟨n, s, scope.subject⟩).into path r :=
  c.checkInto_eq n s path scope r

end DocSchema.Catalog
