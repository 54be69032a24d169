import DocSchema.Check.Journal
import DocSchema.Diagnostic
import DocSchema.Schema.Catalog

/-!
Applying constraints.

A use of a constraint is resolved against its target type and adds at most one diagnostic: the
constraint is unknown, or its verdict is false. An indeterminate verdict passes.
-/

namespace DocSchema

variable {m : Type → Type} [Monad m] [MonadExceptOf Fault m] [Journal m]

namespace Catalog

/-- The words that name a constraint in diagnostics. -/
def constraintName (target : Json) (u : Usage) : String := s!"{target.plain}.{u.name.plain}"

/-- A diagnostic unless the verdict is other than false. -/
def unlessFalse (verdict : Verdict) (d : Diagnostic) : List Diagnostic :=
  if verdict = some false then [d] else []

/-- Checks what is in a slot against one use of a constraint. -/
def applyConstraint (c : Catalog) (target : Json) (u : Usage) (s : Slot) (path : String) :
    m (List Diagnostic) := do
  let failed := s!"Constraint failed: {constraintName target u}"
  match ← settled (c.validator? target u.name) with
  | none => return [⟨path, .unknownConstraint, s!"Unknown constraint: {constraintName target u}"⟩]
  | some (.builtin k) =>
    let argument ← settled u.resolved
    let verdict ← settled (k.evaluate s argument)
    return unlessFalse verdict ⟨path, .constraintViolation, failed⟩
  | some (.custom v) =>
    let bindings ← settled (v.bind u)
    let verdict := v.rule.evaluate s bindings
    if verdict.isNone then
      note "typegraph.constraints" s!"indeterminate validator {constraintName target u} at {path}"
    return unlessFalse verdict ⟨path, .validatorFailed, failed⟩

end Catalog

end DocSchema
