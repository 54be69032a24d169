import DocSchema.Schema.Catalog

/-!
The search for a constraint, one target at a time.

At each target the search has an answer, or goes on with the type that the target plainly refers to, if
there is one (`search_succ`). More fuel only matters to a search that has not found anything yet
(`search_of_le`).
-/

namespace DocSchema.Catalog

variable {c : Catalog} {constraint target : Json}

/-- What the search for a constraint comes to at a target, if it does not have to go on. -/
def answerAt (c : Catalog) (constraint target : Json) :
    Option (Except Fault (Option ValidatorEntry)) :=
  match target, constraint with
  | .string t, .string name => (c.registered? t name).map fun v => .ok (some v)
  | .string _, v => if Bindings.isKey v then none else some (.error .unkeyable)
  | v, w => some (if Bindings.isKey v && Bindings.isKey w then .ok none else .error .unkeyable)

/-- The target with which the search goes on. -/
def next? (c : Catalog) : Json → Option Json
  | .string t => c.aliasOf? t
  | _ => none

theorem search_succ (fuel : Nat) : c.search constraint (fuel + 1) target =
    match c.answerAt constraint target with
    | some r => r
    | none =>
      match c.next? target with
      | some next => c.search constraint fuel next
      | none => .ok none := by
  cases target with
  | string t =>
    cases constraint with
    | string name =>
      simp only [search, answerAt, next?]
      cases c.registered? t name <;> rfl
    | _ => rfl
  | _ => rfl

/-- More fuel finds what less fuel finds. -/
theorem search_of_le {j k : Nat} (hjk : j ≤ k) (h : c.search constraint j target ≠ .ok none) :
    c.search constraint k target = c.search constraint j target := by
  induction j generalizing k target with
  | zero => exact absurd rfl h
  | succ j ih =>
    obtain ⟨k, rfl⟩ := Nat.exists_eq_add_of_le' hjk
    rw [← Nat.add_assoc]
    simp only [search_succ] at h ⊢
    split
    · rfl
    · next hanswer =>
      rw [hanswer] at h
      split
      · next hnext =>
        rw [hnext] at h
        exact ih (Nat.le_add_left j k) h
      · rfl

/-- A validator that is an answer is registered for the target. -/
theorem registered_of_answerAt {e : ValidatorEntry}
    (h : c.answerAt constraint target = some (.ok (some e))) :
    ∃ t name, constraint = .string name ∧ c.registered? t name = some e := by
  unfold answerAt at h
  split at h
  · next t name =>
    cases hv : c.registered? t name with
    | none => rw [hv] at h; cases h
    | some v => rw [hv] at h; cases h; exact ⟨t, name, rfl, hv⟩
  · split at h <;> cases h
  · split at h <;> cases h

/-- An answer is never that the fuel ran out. -/
theorem answerAt_ne_exhausted : c.answerAt constraint target ≠ some (.error .exhausted) := by
  intro h
  unfold answerAt at h
  split at h
  · next t name => cases hv : c.registered? t name <;> rw [hv] at h <;> cases h
  · split at h <;> cases h
  · split at h <;> cases h

end DocSchema.Catalog
