import DocSchema.Json.Slot

/-!
Scopes: what a guard can see.
-/

namespace DocSchema

/-- The whole document, the value that is being checked, and its container, if it has one. -/
structure Scope where
  root : Slot
  current : Slot
  parent : Option Json

namespace Scope

/-- The scope of a whole document. -/
def atRoot (v : Slot) : Scope := ⟨v, v, none⟩

/-- The scope of a part that is directly inside a container. -/
def inside (s : Scope) (part container : Json) : Scope := ⟨s.root, some part, some container⟩

/-- What guards are asked about: the container, or else the document. -/
def subject (s : Scope) : Slot :=
  match s.parent with
  | some v => some v
  | none => s.root

@[simp] theorem subject_atRoot (v : Slot) : (atRoot v).subject = v := rfl

@[simp] theorem subject_inside (s : Scope) (part container : Json) :
    (s.inside part container).subject = some container := rfl

@[simp] theorem subject_current (s : Scope) (v : Slot) :
    ({ s with current := v } : Scope).subject = s.subject := rfl

end Scope

end DocSchema
