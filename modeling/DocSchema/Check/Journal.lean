import DocSchema.Fault

/-!
Journals: remarks made on the way, besides the result.

A computation that may fault and may leave remarks is written once, for any monad with both. Plain
`Except` drops the remarks; `Recorded` keeps them, also those made before a fault.
-/

namespace DocSchema

/-- A remark with the part of the library that makes it. -/
structure Note where
  topic : String
  text : String
  deriving DecidableEq

/-- A place where remarks can be left. -/
class Journal (m : Type → Type) where
  note : Note → m Unit

/-- Leaves a remark. -/
def note {m : Type → Type} [Journal m] (topic text : String) : m Unit := Journal.note ⟨topic, text⟩

instance {ε : Type} : Journal (Except ε) := ⟨fun _ => .ok ()⟩

/-- Computations that keep their remarks. -/
abbrev Recorded (ε : Type) := ExceptT ε (StateM (List Note))

instance {ε : Type} : Journal (Recorded ε) := ⟨fun n => modifyGet fun ns => ((), ns ++ [n])⟩

/-- A plain result as a step of such a computation. -/
def settled {m : Type → Type} {ε α : Type} [Monad m] [MonadExceptOf ε m] (x : Except ε α) : m α :=
  match x with
  | .ok a => pure a
  | .error e => throw e

end DocSchema
