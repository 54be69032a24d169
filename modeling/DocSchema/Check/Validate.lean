import DocSchema.Check.Walk
import DocSchema.Json.Reader
import DocSchema.Text.Utf8

/-!
Validating whole documents.

A document comes as text, as octets, or as a value; a value that is text is read as JSON text too.
A document that cannot be read and a root type that cannot be resolved each give a single
diagnostic.
-/

namespace DocSchema

variable {m : Type → Type} [Monad m] [MonadExceptOf Fault m] [Journal m]

/-- A document as it is handed over. -/
inductive Document where
  | text (s : String)
  | octets (bytes : List UInt8)
  | value (v : Json)

/-- Reads JSON text strictly: no numbers by name. -/
def readStrict (text : String) : Except Failure Json := (Json.read true text).mapError .read

/-- Reads a document in UTF-8. -/
def readOctets (bytes : List UInt8) : Except Failure Json :=
  match Utf8.decode bytes with
  | .ok text => readStrict text
  | .error e => .error (.encoding e)

/-- The value of a document. -/
def Document.read : Document → Except Failure Json
  | .text s => readStrict s
  | .octets bytes => readOctets bytes
  | .value (.string s) => readStrict s
  | .value v => .ok v

namespace Catalog

/-- Checks a value against a root type by name. -/
def checkDocument (c : Catalog) (root : String) (v : Json) : m (List Diagnostic) := do
  let s : Slot := some v
  let node := Node.named (.string root) []
  let found ← c.checkSlot node s rootPath (.atRoot s)
  note "typegraph.validator" s!"validated against {root}: {found.length} diagnostic(s)"
  return found

/-- Validates a document against a root type, or the default one if the name is null. -/
def validate (c : Catalog) (document : Document) (root : Json) : m (List Diagnostic) := do
  match document.read with
  | .error e =>
    let reason := e.message?.getD ""
    note "typegraph.validator" s!"input is not JSON: {reason}"
    return [⟨rootPath, .invalidExpression, s!"Invalid JSON: {reason}"⟩]
  | .ok v =>
    match c.resolveRoot root with
    | .ok name => c.checkDocument name v
    | .error (.fault f) => throw f
    | .error e =>
      let reason := e.message?.getD ""
      note "typegraph.validator" s!"root type {root.display} not resolved: {reason}"
      return [⟨rootPath, .unknownType, reason⟩]

end Catalog

end DocSchema
