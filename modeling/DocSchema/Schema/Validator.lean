import DocSchema.Expression.Rule
import DocSchema.Schema.Failure
import DocSchema.Schema.Node

/-!
Custom validators: a body with parameters, and the binding of arguments to them.
-/

namespace DocSchema

/-- A parameter with its default, null if there is none. -/
structure Parameter where
  name : Json
  default : Json

/-- A validator that a schema defines: its body and the rule the body was read as. -/
structure CustomValidator where
  body : String
  parameters : List Parameter
  rule : Rule

/-! ### Reading -/

/-- A parameter: a bare name, or an object with a name and perhaps a default. -/
def Parameter.read (place : String) (v : Json) : Except Failure Parameter :=
  match v, v.get? "name" with
  | .string s, _ => .ok ⟨.string s, .null⟩
  | v, some name => .ok ⟨name, v.getD "default"⟩
  | v, none => .error (.schema (.malformedParameter place v))

def Parameter.readAll (place : String) : List Json → Except Failure (List Parameter)
  | [] => .ok []
  | v :: rest => do
    let p ← Parameter.read place v
    let ps ← readAll place rest
    .ok (p :: ps)

/-- The list of parameters; a value that is not truthy stands for none. -/
def Parameter.readList (place : String) : Json → Except Failure (List Parameter)
  | .array items => readAll place items
  | v => if v.truthy then .error (.schema (.notAList place "params")) else .ok []

namespace CustomValidator

/-- A validator from its body and parameters. -/
def ofBody (body : String) (parameters : List Parameter) : Except Failure CustomValidator :=
  (orFault (Rule.ofText body)).map fun rule => ⟨body, parameters, rule⟩

/-- A validator: a bare body, or an object with a body and perhaps parameters. -/
def read (place : String) (v : Json) : Except Failure CustomValidator :=
  match v, v.get? "body" with
  | .string body, _ => ofBody body []
  | v, some (.string body) => do
    let parameters ← Parameter.readList place (v.getD "params")
    ofBody body parameters
  | _, _ => .error (.schema (.noBody place))

end CustomValidator

/-! ### Arguments -/

/-- The arguments that a use hands to a custom validator, by position. -/
def Usage.incoming (u : Usage) : List Json :=
  if !u.args.isEmpty then u.args
  else if u.argument.isNull then []
  else [u.argument]

def Literal.coerceAll : List Json → Except Fault (List Json)
  | [] => .ok []
  | v :: rest => do
    let w ← Literal.coerce v
    let ws ← coerceAll rest
    .ok (w :: ws)

/-- The argument that a use hands to a builtin constraint: one call argument as a literal, several
as an array of literals, or else the single argument as it is. -/
def Usage.resolved (u : Usage) : Except Fault Json :=
  match u.args with
  | [] => .ok u.argument
  | [a] => Literal.coerce a
  | args => (Literal.coerceAll args).map .array

namespace Bindings

/-- A value can be a key; arrays and objects cannot. -/
def isKey : Json → Bool
  | .array _ | .object _ => false
  | _ => true

/-- A number among the keys, true and false counting as one and zero. -/
def keyNumber? : Json → Option Number
  | .bool b => some (.int (if b then 1 else 0))
  | .number n => some n
  | _ => none

/-- Two values are the same key. -/
def sameKey (a b : Json) : Bool :=
  match keyNumber? a, keyNumber? b with
  | some m, some n => m.eq n
  | _, _ => a.same b

/-- Binds a name: in place if it is bound already, at the end if not. -/
def bind (name value : Json) : Bindings → Bindings
  | [] => [(name, value)]
  | (k, v) :: rest => if sameKey k name then (k, value) :: rest else (k, v) :: bind name value rest

/-- Binds parameters to arguments by position; a missing or null argument gives way to the
default. All values are read as literals. -/
def ofArguments : List Parameter → List Json → Bindings → Except Fault Bindings
  | [], _, done => .ok done
  | p :: ps, args, done => do
    let raw := args.headD .null
    let value ← Literal.coerce (if raw.isNull then p.default else raw)
    if isKey p.name then ofArguments ps args.tail (bind p.name value done) else .error .unkeyable

end Bindings

/-- The bindings of a validator's parameters under one use. -/
def CustomValidator.bind (v : CustomValidator) (u : Usage) : Except Fault Bindings :=
  Bindings.ofArguments v.parameters u.incoming []

end DocSchema
