import DocSchema.Builtin.Constraint
import DocSchema.Builtin.Type
import DocSchema.Schema.Decode

/-!
The catalog: the types and validators that names stand for.

User types are kept in the order of their declaration and never share a name with a builtin type.
A custom validator takes precedence over the builtin constraint of the same target and name. A
constraint that is not registered for a type is looked for along the chain of types that are plain
references to one another.
-/

namespace DocSchema

/-- The version of the schema language. -/
def supportedVersion : String := "0.14.2"

/-- The types and validators of one compiled schema. -/
structure Catalog where
  version : Json
  root : Json
  types : List (String × Node)
  validators : List (String × List (String × CustomValidator))

/-- What a type name stands for. -/
inductive TypeEntry where
  | builtin (t : BuiltinType)
  | defined (n : Node)

/-- What a constraint name stands for. -/
inductive ValidatorEntry where
  | builtin (c : BuiltinConstraint)
  | custom (v : CustomValidator)

namespace Catalog

/-- The catalog without a schema. -/
def empty : Catalog := ⟨.string supportedVersion, .null, [], []⟩

/-! ### Queries -/

/-- The type of a name. -/
def typeNamed? (c : Catalog) (name : String) : Option TypeEntry :=
  match lookup name c.types with
  | some n => some (.defined n)
  | none => (BuiltinType.ofName? name).map .builtin

/-- The type of a name that may be any value: only text names a type, and an array or object cannot
even be looked up. -/
def type? (c : Catalog) : Json → Except Fault (Option TypeEntry)
  | .string name => .ok (c.typeNamed? name)
  | v => if Bindings.isKey v then .ok none else .error .unkeyable

/-- The validator registered for a target and a name. -/
def registered? (c : Catalog) (target name : String) : Option ValidatorEntry :=
  match (lookup target c.validators).bind (lookup name) with
  | some v => some (.custom v)
  | none => (BuiltinConstraint.find? target name).map .builtin

/-- The type that a type plainly refers to. -/
def aliasOf? (c : Catalog) (name : String) : Option Json :=
  (lookup name c.types).bind Node.alias?

/-- Looks for a validator along the chain of references, for as many types as `fuel`. -/
def search (c : Catalog) (constraint : Json) : Nat → Json → Except Fault (Option ValidatorEntry)
  | 0, _ => .ok none
  | fuel + 1, target =>
    match target, constraint with
    | .string t, .string name =>
      match c.registered? t name with
      | some v => .ok (some v)
      | none =>
        match c.aliasOf? t with
        | some next => search c constraint fuel next
        | none => .ok none
    | .string t, v =>
      if Bindings.isKey v then
        match c.aliasOf? t with
        | some next => search c constraint fuel next
        | none => .ok none
      else .error .unkeyable
    | v, w => if Bindings.isKey v && Bindings.isKey w then .ok none else .error .unkeyable

/-- The validator of a target and a constraint name. A chain that visits more types than there are
has run into a cycle. -/
def validator? (c : Catalog) (target constraint : Json) : Except Fault (Option ValidatorEntry) :=
  c.search constraint (c.types.length + 1) target

/-- The name given, else the declared root, else the only type. -/
def rootName (c : Catalog) (name : Json) : Json :=
  if !name.isNull then name
  else if !c.root.isNull then c.root
  else match c.types with
    | [(only, _)] => .string only
    | _ => .null

/-- The root type to check against. -/
def resolveRoot (c : Catalog) (name : Json) : Except Failure String :=
  match c.rootName name with
  | .null => .error (.root .undeclared)
  | .string n =>
    if (c.typeNamed? n).isSome then .ok n else .error (.root (.unknown (.string n)))
  | v => if Bindings.isKey v then .error (.root (.unknown v)) else .error (.fault .unkeyable)

/-! ### Reading a compiled schema -/

/-- The value under a key that must be an object, the given one if the key is missing. -/
def tableUnder (key : String) (e : SchemaError) (fields : List (String × Json)) :
    Except Failure (List (String × Json)) :=
  match lookup key fields with
  | none => .ok []
  | some (.object table) => .ok table
  | some _ => .error (.schema e)

def readTypes : List (String × Json) → Except Failure (List (String × Node))
  | [] => .ok []
  | (name, v) :: rest => do
    let n ← Node.read name v
    let ns ← readTypes rest
    .ok ((name, n) :: ns)

def readTable (target : String) :
    List (String × Json) → Except Failure (List (String × CustomValidator))
  | [] => .ok []
  | (name, v) :: rest => do
    let x ← CustomValidator.read s!"{target}.{name}" v
    let xs ← readTable target rest
    .ok ((name, x) :: xs)

def readTables :
    List (String × Json) → Except Failure (List (String × List (String × CustomValidator)))
  | [] => .ok []
  | (target, .object table) :: rest => do
    let t ← readTable target table
    let ts ← readTables rest
    .ok ((target, t) :: ts)
  | (target, _) :: _ => .error (.schema (.tableNotAnObject target))

/-- Puts a name in front of the first one that does not come before it. -/
def insertName (n : String) : List String → List String
  | [] => [n]
  | m :: rest => if m < n then m :: insertName n rest else n :: m :: rest

/-- The names that builtin types have already, sorted. -/
def clashes (types : List (String × Node)) : List String :=
  ((types.map (·.1)).filter fun n => (BuiltinType.ofName? n).isSome).foldr insertName []

/-- Reads a compiled schema. -/
def read : Json → Except Failure Catalog
  | .object fields => do
    let types ← tableUnder "types" .typesNotAnObject fields >>= readTypes
    let validators ← tableUnder "validators" .validatorsNotAnObject fields >>= readTables
    match clashes types with
    | [] =>
      let version := (lookup "version" fields).getD (.string supportedVersion)
      .ok ⟨version, (lookup "root" fields).getD .null, types, validators⟩
    | names => .error (.schema (.redefines names))
  | _ => .error (.schema .notAnObject)

end Catalog

end DocSchema
