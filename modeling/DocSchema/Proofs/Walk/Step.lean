import DocSchema.Proofs.Walk.Outcome

/-!
One visit as a function of the answers to its calls.

A visit looks at the path only to write it into diagnostics, at the report only to add to it, and at
the scope only to ask guards about its subject. `step` is one visit in these terms, with paths that
start at the value visited. Main statements: `checkNode_visitBy`, which puts path, scope and report
back for one visit, and `check_eq_into`, which does so for the whole walk. `step` is what later
proofs open in place of the walk.
-/

namespace DocSchema

/-- What a constraint says of what is in a slot under one use of it. -/
def ValidatorEntry.verdict (e : ValidatorEntry) (u : Usage) (s : Slot) : Except Fault Verdict :=
  match e with
  | .builtin k => u.resolved >>= k.evaluate s
  | .custom v => (v.bind u).map (v.rule.evaluate s)

/-- The code that reports a false verdict. -/
def ValidatorEntry.code : ValidatorEntry → Code
  | .builtin _ => .constraintViolation
  | .custom _ => .validatorFailed

namespace Catalog

variable (c : Catalog) (w : Call → Outcome)

/-- Answers to calls, as a way of visiting. -/
def visitBy : Visit (Except Fault) := fun n s path scope => (w ⟨n, s, scope.subject⟩).into path

/-! ### Answers of the parts of a visit -/

/-- One use of a constraint: looked up, asked, and reported where its verdict is false. -/
def useOutcome (target : Json) (u : Usage) (s : Slot) : Outcome :=
  match c.validator? target u.name with
  | .error f => .error f
  | .ok none => .ok [⟨"", .unknownConstraint, s!"Unknown constraint: {constraintName target u}"⟩]
  | .ok (some e) => (e.verdict u s).map fun verdict =>
    unlessFalse verdict ⟨"", e.code, s!"Constraint failed: {constraintName target u}"⟩

/-- The type behind a name that is known. -/
def typeOutcome (name : Json) (s g : Slot) : TypeEntry → Outcome
  | .builtin t => (t.accepts s).map fun b =>
    if b then [] else [⟨"", .typeMismatch, s!"Expected {name.plain}."⟩]
  | .defined n => w ⟨n, s, g⟩

/-- A reference: the type behind the name and then the constraints, if the name is known. -/
def namedOutcome (name : Json) (us : List Usage) (s g : Slot) : Outcome :=
  match c.type? name with
  | .error f => .error f
  | .ok none => .ok [⟨"", .unknownType, s!"Unknown type: {name.plain}"⟩]
  | .ok (some e) =>
    (typeOutcome w name s g e).andThen (collect (fun u => c.useOutcome name u s) us)

/-- The items of an array. -/
def itemsOutcome (item : Node) (items : List Json) : Outcome :=
  collect (fun x : Json × Nat =>
    (w ⟨item, some x.1, some (.array items)⟩).under (Step.item x.2).text) items.zipIdx

/-- A declared field that is not there. -/
def missingOutcome (head : FieldHead) (type : Node) : Outcome :=
  if head.optional || !head.default.isNull || type.isAbsent then .ok []
  else .ok [⟨s!".{head.name.plain}", .fieldMissing, "Missing required field."⟩]

/-- A declared field of an object: looked up by its name, and only text can be there. -/
def fieldOutcome (fields : List (String × Json)) (g : Slot) : FieldHead × Node → Outcome
  | (⟨.string key, optional, default⟩, type) =>
    match lookup key fields with
    | some v => (w ⟨type, some v, g⟩).under (Step.member key).text
    | none => missingOutcome ⟨.string key, optional, default⟩ type
  | (head, type) =>
    if Bindings.isKey head.name then missingOutcome head type else .error .unkeyable

/-- An entry of a dictionary: its key, then its value. -/
def entryOutcome (key value : Node) (g : Slot) (e : String × Json) : Outcome :=
  Outcome.andThen ((w ⟨key, some (.string e.1), g⟩).under (Step.key e.1).text)
    ((w ⟨value, some e.2, g⟩).under (Step.member e.1).text)

/-- A single type mismatch. -/
def mismatch (message : String) : Outcome := .ok [⟨"", .typeMismatch, message⟩]

/-- Several nodes of which one has to be clean; they are tried in order. -/
def anyOutcome (s g : Slot) (message : String) (members : List Node) : Outcome :=
  anyClean (fun n => w ⟨n, s, g⟩) members >>= fun clean =>
    if clean then .ok [] else mismatch message

/-- One visit, its calls answered by `w`. -/
def step (x : Call) : Outcome :=
  match x.node, x.slot with
  | .named name us, s => c.namedOutcome w name us s x.subject
  | .nullableNamed _, some .null => .ok []
  | .nullableNamed name, s => c.namedOutcome w name [] s x.subject
  | .nullable _, some .null => .ok []
  | .nullable inner, s => w ⟨inner, s, x.subject⟩
  | .arrayOf item us, some (.array items) =>
    Outcome.andThen (collect (fun u => c.useOutcome (.string "Array") u (some (.array items))) us)
      (itemsOutcome w item items)
  | .arrayOf .., _ => mismatch "Expected array."
  | .record declared, some (.object fields) =>
    collect (fieldOutcome w fields (some (.object fields))) declared
  | .record _, _ => mismatch "Expected object."
  | .dict key value, some (.object fields) =>
    collect (entryOutcome w key value (some (.object fields))) fields
  | .dict .., _ => mismatch "Expected object/dict."
  | .union members, s =>
    anyOutcome w s x.subject "Value does not match any union member." members
  | .intersection members, s => collect (fun n => w ⟨n, s, x.subject⟩) members
  | .conditional condition yes no, s =>
    match condition.guard.evaluate x.subject with
    | some true => w ⟨yes, s, x.subject⟩
    | some false => w ⟨no, s, x.subject⟩
    | none => anyOutcome w s x.subject "Value does not match conditional branches." [yes, no]
  | .literal v, s =>
    if s.holds v then .ok [] else mismatch s!"Expected literal {v.toText Json.spacedUnicode}."
  | .absent, none => .ok []
  | .absent, some _ => .ok [⟨"", .fieldMustBeAbsent, "Expected field to be absent."⟩]

/-- The walk's answer to a call. -/
def outcome (fuel : Nat) (x : Call) : Outcome :=
  Except.map Report.entries (c.check fuel x.node x.slot "" (.atRoot x.subject) .empty)

/-! ### The parts of a visit, path, scope and report put back -/

@[simp] theorem settled_except {ε α : Type} (x : Except ε α) :
    settled (m := Except ε) x = x := by
  cases x <;> rfl

theorem report_into (path : String) (code : Code) (message : String) (r : Report) :
    report path code message r = Outcome.into path (.ok [⟨"", code, message⟩]) r := by
  simp [Outcome.into_ok_singleton, Diagnostic.under, report, pure, Except.pure]

theorem unlessFalse_under (b : Verdict) (path : String) (code : Code) (text : String) :
    (unlessFalse b ⟨"", code, text⟩).map (Diagnostic.under path) =
      unlessFalse b ⟨path, code, text⟩ := by
  simp only [unlessFalse]
  split <;> simp [Diagnostic.under]

theorem applyConstraint_eq (target : Json) (u : Usage) (s : Slot) (path : String) :
    (c.applyConstraint target u s path : Outcome) = (c.useOutcome target u s).under path := by
  simp only [applyConstraint, useOutcome, settled_except]
  rcases c.validator? target u.name with f | (_ | (k | v))
  · rfl
  · simp [bind, Except.bind, pure, Except.pure, Diagnostic.under]
  · simp only [ValidatorEntry.verdict]
    rcases u.resolved with f | a
    · rfl
    · simp only [bind, Except.bind]
      rcases k.evaluate s a with f | verdict
      · rfl
      · simp [Except.map, pure, Except.pure, unlessFalse_under, ValidatorEntry.code]
  · simp only [ValidatorEntry.verdict, bind, Except.bind]
    rcases v.bind u with f | bindings
    · rfl
    · cases h : (v.rule.evaluate s bindings).isNone <;>
        simp [pure, Except.pure, Except.map, note, Journal.note, h, unlessFalse_under,
          ValidatorEntry.code]

theorem checkUses_eq (target : Json) (us : List Usage) (s : Slot) (path : String) (r : Report) :
    c.checkUses target us s path r =
      (collect (fun u => c.useOutcome target u s) us).into path r := by
  refine foldlM_into (fun u _ r => ?_) r
  rw [applyConstraint_eq]
  cases c.useOutcome target u s <;> rfl

theorem checkName_eq (name : Json) (s : Slot) (path : String) (scope : Scope) (r : Report) :
    c.checkName (visitBy w) name s path scope r =
      match c.type? name with
      | .error f => .error f
      | .ok none =>
        Except.map (false, ·) (report path .unknownType s!"Unknown type: {name.plain}" r)
      | .ok (some e) => ((typeOutcome w name s scope.subject e).into path r).map (true, ·) := by
  simp only [checkName, settled_except]
  rcases c.type? name with f | (_ | (t | n))
  · rfl
  · rfl
  · simp only [bind, Except.bind, report_into, typeOutcome]
    rcases t.accepts s with f | b
    · rfl
    · cases b <;> rfl
  · simp only [visitBy, bind, Except.bind, typeOutcome]
    rcases w ⟨n, s, scope.subject⟩ with f | ds <;> rfl

theorem checkNamed_eq (name : Json) (us : List Usage) (s : Slot) (path : String) (scope : Scope)
    (r : Report) : c.checkNamed (visitBy w) name us s path scope r =
      (c.namedOutcome w name us s scope.subject).into path r := by
  simp only [checkNamed, namedOutcome, checkName_eq, checkUses_eq]
  rcases c.type? name with f | (_ | e)
  · rfl
  · exact report_into path _ _ r
  · simp only [Outcome.andThen_into]
    cases (typeOutcome w name s scope.subject e).into path r <;> rfl

theorem nullableNamed_eq (name : Json) (s : Slot) (path : String) (scope : Scope) (r : Report) :
    (do return (← c.checkName (visitBy w) name s path scope r).2 : Except Fault Report) =
      (c.namedOutcome w name [] s scope.subject).into path r := by
  rw [← checkNamed_eq]
  simp only [checkNamed, checkUses, List.foldlM_nil]
  rcases c.checkName (visitBy w) name s path scope r with f | ⟨_ | _, r⟩ <;> rfl

theorem checkItems_eq (item : Node) (items : List Json) (path : String) (scope : Scope)
    (r : Report) :
    checkItems (visitBy w) item items path scope r = (itemsOutcome w item items).into path r := by
  refine foldlM_into (fun x _ r => ?_) r
  rw [Outcome.under_into, ← path_item]
  rfl

theorem missing_eq (head : FieldHead) (type : Node) (path : String) (r : Report) :
    checkField.missing head type s!"{path}.{head.name.plain}" r =
      (missingOutcome head type).into path r := by
  simp only [checkField.missing, missingOutcome]
  split
  · rfl
  · rw [path_member]; rfl

theorem checkField_eq (fields : List (String × Json)) (path : String) (scope : Scope) (r : Report)
    (f : FieldHead × Node) : checkField (visitBy w) fields path scope r f =
      (fieldOutcome w fields (some (.object fields)) f).into path r := by
  obtain ⟨⟨name, optional, default⟩, type⟩ := f
  have hmissing := missing_eq ⟨name, optional, default⟩ type path r
  cases name with
  | string key =>
    simp only [checkField, fieldOutcome]
    cases lookup key fields with
    | some v => rw [Outcome.under_into, ← path_member]; rfl
    | none => exact hmissing
  | null => exact hmissing
  | bool b => exact hmissing
  | number n => exact hmissing
  | array items => rfl
  | object fields => rfl

theorem checkEntry_eq (key value : Node) (fields : List (String × Json)) (path : String)
    (scope : Scope) (r : Report) (e : String × Json) :
    checkEntry (visitBy w) key value fields path scope r e =
      (entryOutcome w key value (some (.object fields)) e).into path r := by
  rw [entryOutcome, Outcome.andThen_into, Outcome.under_into, ← path_key]
  refine congrArg _ (funext fun r => ?_)
  rw [Outcome.under_into, ← path_member]
  rfl

theorem accepts_eq (s : Slot) (scope : Scope) (n : Node) :
    accepts (visitBy w) s scope n = (w ⟨n, s, scope.subject⟩).map List.isEmpty := by
  rw [← Outcome.into_isEmpty rootPath]
  rfl

theorem anyM_accepts (members : List Node) (s : Slot) (scope : Scope) (path message : String)
    (r : Report) : (members.anyM (accepts (visitBy w) s scope) >>= fun clean =>
      if clean then pure r else report path .typeMismatch message r) =
      (anyOutcome w s scope.subject message members).into path r := by
  rw [anyM_eq (accepts_eq w s scope), anyOutcome]
  rcases anyClean (fun n => w ⟨n, s, scope.subject⟩) members with f | clean
  · rfl
  · cases clean with
    | true => rfl
    | false => exact report_into path _ message r

/-! ### A visit, path, scope and report put back -/

/-- A visit writes its path in front and its diagnostics behind the report, and sees nothing of its
scope but the subject of guards. -/
theorem checkNode_visitBy (n : Node) (s : Slot) (path : String) (scope : Scope) (r : Report) :
    c.checkNode (visitBy w) n s path scope r = (c.step w ⟨n, s, scope.subject⟩).into path r := by
  cases n with
  | named name us => exact checkNamed_eq c w name us s path scope r
  | nullableNamed name =>
    by_cases hs : s = some .null
    · subst hs; rfl
    · simp only [checkNode, step]
      exact nullableNamed_eq c w name s path scope r
  | nullable inner =>
    by_cases hs : s = some .null
    · subst hs; rfl
    · simp only [checkNode, step, visitBy]
  | arrayOf item us =>
    rcases s with _ | (_ | _ | _ | _ | items | _)
    case some.array =>
      simp only [checkNode, step, checkUses_eq, Outcome.andThen_into]
      refine congrArg _ (funext fun r => ?_)
      exact checkItems_eq w item items path scope r
    all_goals exact report_into path _ _ r
  | record declared =>
    rcases s with _ | (_ | _ | _ | _ | _ | fields)
    case some.object => exact foldlM_into (fun f _ r => checkField_eq w fields path scope r f) r
    all_goals exact report_into path _ _ r
  | dict key value =>
    rcases s with _ | (_ | _ | _ | _ | _ | fields)
    case some.object =>
      exact foldlM_into (fun e _ r => checkEntry_eq w key value fields path scope r e) r
    all_goals exact report_into path _ _ r
  | union members => exact anyM_accepts w members s scope path _ r
  | intersection members => exact foldlM_into (fun _ _ _ => rfl) r
  | conditional condition yes no =>
    simp only [checkNode, step]
    cases condition.guard.evaluate scope.subject with
    | none => exact anyM_accepts w [yes, no] s scope path _ r
    | some b => cases b <;> rfl
  | literal v =>
    simp only [checkNode, step]
    cases s.holds v with
    | true => rfl
    | false => exact report_into path _ _ r
  | absent =>
    cases s with
    | none => rfl
    | some v => exact report_into path _ _ r

/-- The walk is a visit whose calls are answered by the walk with less fuel. -/
theorem check_eq_visitBy (fuel : Nat) : c.check fuel = visitBy (c.outcome fuel) := by
  induction fuel with
  | zero => rfl
  | succ fuel ih =>
    funext n s path scope r
    simp only [visitBy, outcome, check, ih, checkNode_visitBy, Outcome.into_empty]
    rfl

/-- The walk writes its path in front and its diagnostics behind the report, and sees nothing of its
scope but the subject of guards. -/
theorem check_eq_into (fuel : Nat) (n : Node) (s : Slot) (path : String) (scope : Scope)
    (r : Report) : c.check fuel n s path scope r =
      (c.outcome fuel ⟨n, s, scope.subject⟩).into path r := by
  rw [check_eq_visitBy, visitBy]

/-- With one more unit of fuel the walk makes one more visit. -/
theorem outcome_succ (fuel : Nat) (x : Call) :
    c.outcome (fuel + 1) x = c.step (c.outcome fuel) x := by
  rw [outcome, check, check_eq_visitBy, checkNode_visitBy, Outcome.into_empty]
  rfl

end Catalog

end DocSchema
