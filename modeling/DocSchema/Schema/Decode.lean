import DocSchema.Schema.Failure
import DocSchema.Schema.Node
import DocSchema.Schema.Validator

/-!
Reading type nodes and validators from their JSON form.

A text is a reference by name; an object says by its `kind` which node it is. The recursion follows
the JSON value: `at_` readers look for a key among the fields of an object and read what is under
it. Keys are checked in the order in which the node lists them, and the first fault is reported.
-/

namespace DocSchema

/-- The items that an argument list stands for: the items of an array, the characters of a text,
the keys of an object, and nothing for null, false, zero and empty values. -/
def argumentItems : Json → Except Fault (List Json)
  | .array items => .ok items
  | .string s => .ok (s.toList.map fun c => .string (String.ofList [c]))
  | .object fields => .ok (fields.map fun f => .string f.1)
  | v => if v.truthy then .error .notIterable else .ok []

/-- One use of a constraint. -/
def Usage.read (place : String) (v : Json) : Except Failure Usage :=
  match v.get? "name" with
  | none => .error (.schema (.unnamedConstraint place))
  | some name =>
    (orFault (argumentItems (v.getD "args"))).map fun args => ⟨name, args, v.getD "argument"⟩

def Usage.readAll (place : String) : List Json → Except Failure (List Usage)
  | [] => .ok []
  | v :: rest => do
    let u ← Usage.read place v
    let us ← readAll place rest
    .ok (u :: us)

/-- The list of constraint uses under `constraints`; null stands for none. -/
def Usage.readList (place : String) : Json → Except Failure (List Usage)
  | .null => .ok []
  | .array items => readAll place items
  | _ => .error (.schema (.notAList place "constraints"))

/-- A condition with its guard. -/
def Condition.read (v : Json) : Except Failure Condition :=
  match h : Guard.ofJson v with
  | .ok g => .ok ⟨v, g, h⟩
  | .error f => .error (.fault f)

namespace Node

/-- The value under a key that a node of this kind must have. -/
def require (place key : String) (v : Json) : Except Failure Json :=
  match v.get? key with
  | some w => .ok w
  | none => .error (.schema (.missingKey place key (v.getD "kind")))

/-- The result of reading what is under a key, if the key is there. -/
def present {α : Type} (place key : String) (v : Json) :
    Option (Except Failure α) → Except Failure α
  | some r => r
  | none => .error (.schema (.missingKey place key (v.getD "kind")))

mutual

/-- Reads a node; the place is named in messages. -/
def read (place : String) : Json → Except Failure Node
  | .string name => .ok (.named (.string name) [])
  | .object fields =>
    let v := Json.object fields
    match v.getD "kind" with
    | .string "named" => do
      let name ← require place "name" v
      let constraints ← Usage.readList place (v.getD "constraints")
      .ok (.named name constraints)
    | .string "nullableNamed" => (require place "name" v).map .nullableNamed
    | .string "nullable" =>
      (present place "inner" v (readUnder "inner" (place ++ "?") fields)).map .nullable
    | .string "array" => do
      let item ← present place "itemType" v (readUnder "itemType" (place ++ "[]") fields)
      let constraints ← Usage.readList place (v.getD "constraints")
      .ok (.arrayOf item constraints)
    | .string "record" => (readFieldsUnder place fields).map .record
    | .string "dict" => do
      let key ← present place "keyType" v (readUnder "keyType" (place ++ ".<key>") fields)
      let value ← present place "valueType" v (readUnder "valueType" (place ++ ".<value>") fields)
      .ok (.dict key value)
    | .string "union" => (readMembersUnder place fields).map .union
    | .string "intersection" => (readMembersUnder place fields).map .intersection
    | .string "conditional" => do
      let condition ← require place "condition" v
      let yes ← present place "then" v (readUnder "then" (place ++ "<then>") fields)
      let no ← present place "else" v (readUnder "else" (place ++ "<else>") fields)
      let condition ← Condition.read condition
      .ok (.conditional condition yes no)
    | .string "literal" => (require place "value" v).map .literal
    | .string "absent" => .ok .absent
    | kind => .error (.schema (.unknownKind place kind))
  | v => .error (.schema (.notANode place v))

/-- Reads the node under a key, if the key is there. -/
def readUnder (key place : String) : List (String × Json) → Option (Except Failure Node)
  | [] => none
  | (k, v) :: rest => if k = key then some (read place v) else readUnder key place rest

/-- Reads the list under `members`, which must not be empty. -/
def readMembersUnder (place : String) : List (String × Json) → Except Failure (List Node)
  | [] => .error (.schema (.noMembers place))
  | (k, v) :: rest =>
    if k = "members" then
      match v with
      | .array [] => .error (.schema (.noMembers place))
      | .array items => readMembers place 0 items
      | _ => .error (.schema (.noMembers place))
    else readMembersUnder place rest

/-- Reads members, numbered from `i`. -/
def readMembers (place : String) (i : Nat) : List Json → Except Failure (List Node)
  | [] => .ok []
  | v :: rest => do
    let n ← read s!"{place}|{i}" v
    let ns ← readMembers place (i + 1) rest
    .ok (n :: ns)

/-- Reads the list under `fields`; a value that is not truthy stands for none. -/
def readFieldsUnder (place : String) :
    List (String × Json) → Except Failure (List (FieldHead × Node))
  | [] => .ok []
  | (k, v) :: rest =>
    if k = "fields" then
      match v with
      | .array items => readFields place items
      | v => if v.truthy then .error (.schema (.notAList place "fields")) else .ok []
    else readFieldsUnder place rest

/-- Reads the fields of a record. -/
def readFields (place : String) : List Json → Except Failure (List (FieldHead × Node))
  | [] => .ok []
  | .object spec :: rest =>
    let v := Json.object spec
    match lookup "name" spec with
    | none => .error (.schema (.unnamedField place))
    | some name => do
      let type ← present place "type" v (readUnder "type" s!"{place}.{name.plain}" spec)
      let fields ← readFields place rest
      .ok ((⟨name, (v.getD "optional").truthy, v.getD "default"⟩, type) :: fields)
  | _ :: _ => .error (.schema (.unnamedField place))

end

end Node

end DocSchema
