import DocSchema.Check.Constraint
import DocSchema.Check.Scope

/-!
The walk: checking a value against a type node.

Value and node are followed in step, and the report so far is handed from visit to visit. Named
references are looked up at each visit, and unions and undecided conditionals try their members in
isolation, on a report of their own. Each visit costs one unit of fuel, so the walk always ends;
`Catalog.budget` is enough for every schema in which references come back to themselves only below
an array, a record or a dictionary.
-/

namespace DocSchema

variable {m : Type → Type} [Monad m] [MonadExceptOf Fault m] [Journal m]

/-- Adds one diagnostic. -/
def report (path : String) (code : Code) (message : String) (r : Report) : m Report :=
  pure (r.add ⟨path, code, message⟩)

/-- The path of the whole document. -/
def rootPath : String := "$"

namespace Catalog

/-- How a node is visited: the node, what is in the slot, its path, its scope, and the report so
far. -/
abbrev Visit (m : Type → Type) := Node → Slot → String → Scope → Report → m Report

/-- Visits a node in isolation: nothing is reported, only whether something would be. -/
def accepts (visit : Visit m) (s : Slot) (scope : Scope) (n : Node) : m Bool := do
  return (← visit n s rootPath scope .empty).isEmpty

/-- Checks against a type by name, and says whether the name is known. -/
def checkName (c : Catalog) (visit : Visit m) (name : Json) (s : Slot) (path : String)
    (scope : Scope) (r : Report) : m (Bool × Report) := do
  match ← settled (c.type? name) with
  | none => return (false, ← report path .unknownType s!"Unknown type: {name.plain}" r)
  | some (.builtin t) =>
    if ← settled (t.accepts s) then return (true, r)
    else return (true, ← report path .typeMismatch s!"Expected {name.plain}." r)
  | some (.defined n) => return (true, ← visit n s path scope r)

/-- Applies uses of constraints, one after another. -/
def checkUses (c : Catalog) (target : Json) (us : List Usage) (s : Slot) (path : String)
    (r : Report) : m Report :=
  us.foldlM (fun r u => return r.addAll (← c.applyConstraint target u s path)) r

/-- Checks a named reference, then its constraints if the name is known. -/
def checkNamed (c : Catalog) (visit : Visit m) (name : Json) (constraints : List Usage) (s : Slot)
    (path : String) (scope : Scope) (r : Report) : m Report := do
  let (known, r) ← c.checkName visit name s path scope r
  if known then c.checkUses name constraints s path r else return r

/-- Checks the items of an array. -/
def checkItems (visit : Visit m) (item : Node) (items : List Json) (path : String) (scope : Scope)
    (r : Report) : m Report :=
  items.zipIdx.foldlM (fun r (v, i) =>
    visit item (some v) s!"{path}[{i}]" (scope.inside v (.array items)) r) r

/-- Checks one declared field of a record against the fields of an object. -/
def checkField (visit : Visit m) (fields : List (String × Json)) (path : String) (scope : Scope)
    (r : Report) (field : FieldHead × Node) : m Report := do
  let (head, type) := field
  let place := s!"{path}.{head.name.plain}"
  match head.name with
  | .string key =>
    match lookup key fields with
    | some v => visit type (some v) place (scope.inside v (.object fields)) r
    | none => missing head type place r
  | name => if Bindings.isKey name then missing head type place r else throw .unkeyable
where
  /-- A field that is not there. -/
  missing (head : FieldHead) (type : Node) (place : String) (r : Report) : m Report :=
    if head.optional || !head.default.isNull || type.isAbsent then pure r
    else report place .fieldMissing "Missing required field." r

/-- Checks one entry of an object against the types of keys and values. -/
def checkEntry (visit : Visit m) (key value : Node) (fields : List (String × Json)) (path : String)
    (scope : Scope) (r : Report) (entry : String × Json) : m Report := do
  let name := Json.string entry.1
  let r ← visit key (some name) s!"{path}.[key:{entry.1}]" (scope.inside name (.object fields)) r
  visit value (some entry.2) s!"{path}.{entry.1}" (scope.inside entry.2 (.object fields)) r

/-- One visit: checks what is in a slot against a node, leaving its parts to `visit`. -/
def checkNode (c : Catalog) (visit : Visit m) (node : Node) (s : Slot) (path : String)
    (scope : Scope) (r : Report) : m Report :=
  match node, s with
  | .named name constraints, s => c.checkNamed visit name constraints s path scope r
  | .nullableNamed _, some .null => pure r
  | .nullableNamed name, s => do return (← c.checkName visit name s path scope r).2
  | .nullable _, some .null => pure r
  | .nullable inner, s => visit inner s path scope r
  | .arrayOf item constraints, some (.array items) => do
    let r ← c.checkUses (.string "Array") constraints s path r
    checkItems visit item items path scope r
  | .arrayOf .., _ => report path .typeMismatch "Expected array." r
  | .record declared, some (.object fields) =>
    declared.foldlM (checkField visit fields path scope) r
  | .record _, _ => report path .typeMismatch "Expected object." r
  | .dict key value, some (.object fields) =>
    fields.foldlM (checkEntry visit key value fields path scope) r
  | .dict .., _ => report path .typeMismatch "Expected object/dict." r
  | .union members, s => do
    if ← members.anyM (accepts visit s scope) then pure r
    else report path .typeMismatch "Value does not match any union member." r
  | .intersection members, s => members.foldlM (fun r n => visit n s path scope r) r
  | .conditional condition yes no, s =>
    match condition.guard.evaluate scope.subject with
    | some true => visit yes s path scope r
    | some false => visit no s path scope r
    | none => do
      if ← [yes, no].anyM (accepts visit s scope) then pure r
      else report path .typeMismatch "Value does not match conditional branches." r
  | .literal v, s =>
    if s.holds v then pure r
    else report path .typeMismatch s!"Expected literal {v.toText Json.spacedUnicode}." r
  | .absent, none => pure r
  | .absent, some _ => report path .fieldMustBeAbsent "Expected field to be absent." r

/-- Checks what is in a slot against a node, adding to a report. -/
def check (c : Catalog) : Nat → Visit m
  | 0, _, _, _, _, _ => throw .exhausted
  | fuel + 1, node, s, path, scope, r => c.checkNode (check c fuel) node s path scope r

/-- Containers around what is in a slot. -/
def slotDepth : Slot → Nat
  | none => 1
  | some v => v.depth

/-- Visits that one level of a document can take, at most: each defined type once, and the node. -/
def visitsPerLevel (c : Catalog) (n : Node) : Nat :=
  n.depth + c.types.foldr (fun t total => t.2.depth + 1 + total) 0 + 1

/-- Fuel for checking what is in a slot against a node. -/
def budget (c : Catalog) (n : Node) (s : Slot) : Nat := (slotDepth s + 1) * c.visitsPerLevel n

/-- Checks what is in a slot against a node, adding to a report, with fuel to match. -/
def checkInto (c : Catalog) (n : Node) (s : Slot) (path : String) (scope : Scope) (r : Report) :
    m Report := c.check (c.budget n s) n s path scope r

/-- All diagnostics of what is in a slot against a node. -/
def checkSlot (c : Catalog) (n : Node) (s : Slot) (path : String) (scope : Scope) :
    m (List Diagnostic) := do
  return (← c.checkInto n s path scope .empty).entries

/-- A node accepts what is in a slot: there are no diagnostics. -/
def isValid (c : Catalog) (n : Node) (s : Slot) (scope : Scope) : m Bool :=
  accepts c.checkInto s scope n

/-- A JSON value that was not read as a node cannot be checked against. -/
def checkRaw (raw : Json) (path : String) : m (List Diagnostic) :=
  throw (.notANode raw.storageName path)

end Catalog

end DocSchema
