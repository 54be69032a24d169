import DocSchema.Json.Reader
import DocSchema.Json.Display
import DocSchema.Text.Utf8
import DocSchema.Text.Quoted

/-!
Failures: why a schema, a root type or an input could not be used at all.

Each failure carries its cause; the wording is in one function per family.
-/

namespace DocSchema

/-- What makes a compiled schema malformed. The place is a path of type names and node positions. -/
inductive SchemaError where
  | notAList (place what : String)
  | unnamedConstraint (place : String)
  | unnamedField (place : String)
  | noMembers (place : String)
  | missingKey (place key : String) (kind : Json)
  | notANode (place : String) (found : Json)
  | unknownKind (place : String) (kind : Json)
  | noBody (place : String)
  | malformedParameter (place : String) (found : Json)
  | notAnObject
  | typesNotAnObject
  | validatorsNotAnObject
  | tableNotAnObject (target : String)
  | redefines (names : List String)

def SchemaError.message : SchemaError → String
  | .notAList place what => s!"{place}: '{what}' must be a list"
  | .unnamedConstraint place => s!"{place}: constraint entries need a 'name'"
  | .unnamedField place => s!"{place}: record fields need a 'name'"
  | .noMembers place => s!"{place}: 'members' must be a non-empty list"
  | .missingKey place key kind => s!"{place}: missing '{key}' for kind '{kind.plain}'"
  | .notANode place found =>
    s!"{place}: expected an object or a type name, got {found.storageName}"
  | .unknownKind place kind => s!"{place}: unknown node kind {kind.display}"
  | .noBody place => s!"{place}: a custom validator needs a string 'body'"
  | .malformedParameter place found => s!"{place}: malformed parameter {found.display}"
  | .notAnObject => "compiled schema must be a JSON object"
  | .typesNotAnObject => "'types' must be an object mapping names to type nodes"
  | .validatorsNotAnObject => "'validators' must be an object keyed by target type"
  | .tableNotAnObject target => s!"validators for '{target}' must be an object"
  | .redefines names =>
    s!"cannot redefine builtin type(s): {(Json.array (names.map Json.string)).display}"

/-- Why there is no root type. -/
inductive RootError where
  | undeclared
  | unknown (name : Json)

def RootError.message : RootError → String
  | .undeclared => "No root type given and the schema declares no default root"
  | .unknown name => s!"Unknown root type: {name.plain}"

/-- Why an operation has no result. -/
inductive Failure where
  | schema (e : SchemaError)
  | root (e : RootError)
  | fault (f : Fault)
  | read (e : ReadError)
  | schemaText (origin : String) (e : ReadError)
  | encoding (e : Utf8Error)
  | notFound (path : String)
  | nameTooLong (path : String)
  | unknownCode (name : String)
  /-- A file was to be read, and there is not even a path. -/
  | noPath

namespace Failure

/-- What a failure has to say; some faults say nothing. -/
def message? : Failure → Option String
  | .schema e => some e.message
  | .root e => some e.message
  | .fault f => f.message?
  | .read e => some e.message
  | .schemaText origin e => some s!"Invalid JSON in {origin}: {e.message}"
  | .encoding e => some e.message
  | .notFound path => some s!"Schema '{path}' not found on disk or in package data"
  | .nameTooLong path => some s!"[Errno 36] File name too long: {quoted path}"
  | .unknownCode name => some s!"{quoted name} is not a valid ErrorCode"
  | .noPath => none

/-- The message of a failure that lies in the input, as opposed to a fault of the evaluation that
is not in a value. -/
def inInput? : Failure → Option String
  | .fault f => if f.inValue then f.message? else none
  | e => e.message?

end Failure

/-- Turns a fault into a failure. -/
def orFault {α : Type} (x : Except Fault α) : Except Failure α := x.mapError .fault

end DocSchema
