import DocSchema.Check.Validate
import DocSchema.Schema.Source

/-!
Remarks change no answer.

Validation is written once for all monads with faults and remarks, so it is one computation that is
run in two ways: plainly, and with its remarks kept. `Keeps x y` says that `x`, which keeps remarks,
answers what `y` answers plainly, whatever was remarked before. Each way of putting computations
together keeps the relation, and so does each function of the walk, up to whole validations
(`validate_keeps`) and to the loading of schemas (`loadCatalog_keeps`).
-/

namespace DocSchema

/-- With its remarks kept, a computation has the same answer. -/
def Keeps {ε α : Type} (x : Recorded ε α) (y : Except ε α) : Prop :=
  ∀ notes, (x.run.run notes).1 = y

section Keeps

variable {ε α β : Type}

theorem keeps_pure (a : α) : Keeps (pure a : Recorded ε α) (pure a) := fun _ => rfl

theorem keeps_throw (e : ε) : Keeps (throw e : Recorded ε α) (throw e) := fun _ => rfl

theorem keeps_note (topic text : String) :
    Keeps (note topic text : Recorded ε Unit) (note topic text) := fun _ => rfl

theorem keeps_settled (x : Except ε α) : Keeps (settled x : Recorded ε α) (settled x) := by
  cases x <;> exact fun _ => rfl

theorem Keeps.bind {x : Recorded ε α} {y : Except ε α} {f : α → Recorded ε β}
    {g : α → Except ε β} (hxy : Keeps x y) (hfg : ∀ a, Keeps (f a) (g a)) :
    Keeps (x >>= f) (y >>= g) := by
  intro notes
  have hx := hxy notes
  rcases hrun : x.run.run notes with ⟨_ | a, after⟩ <;> rw [hrun] at hx <;> subst hx <;>
    simp only [ExceptT.run_bind, StateT.run_bind, hrun]
  · rfl
  · exact hfg a after

theorem keeps_foldlM {f : β → α → Recorded ε β} {g : β → α → Except ε β} {l : List α}
    (h : ∀ b, ∀ a ∈ l, Keeps (f b a) (g b a)) (b : β) : Keeps (l.foldlM f b) (l.foldlM g b) := by
  induction l generalizing b with
  | nil => exact keeps_pure b
  | cons a l ih =>
    rw [List.foldlM_cons, List.foldlM_cons]
    exact (h b a List.mem_cons_self).bind
      (ih fun b a ha => h b a (List.mem_cons_of_mem _ ha))

theorem keeps_anyM {f : α → Recorded ε Bool} {g : α → Except ε Bool}
    (h : ∀ a, Keeps (f a) (g a)) (l : List α) : Keeps (l.anyM f) (l.anyM g) := by
  induction l with
  | nil => exact keeps_pure false
  | cons a l ih =>
    refine (h a).bind fun b => ?_
    cases b with
    | true => exact keeps_pure true
    | false => exact ih

end Keeps

/-! ### One visit -/

theorem report_keeps (path : String) (code : Code) (message : String) (r : Report) :
    Keeps (ε := Fault) (report path code message r) (report path code message r) := keeps_pure _

namespace Catalog

variable {c : Catalog} {visit : Visit (Recorded Fault)} {plain : Visit (Except Fault)}

/-- Two ways of visiting, one of which keeps remarks. -/
def VisitKeeps (visit : Visit (Recorded Fault)) (plain : Visit (Except Fault)) : Prop :=
  ∀ n s path scope r, Keeps (visit n s path scope r) (plain n s path scope r)

theorem applyConstraint_keeps (target : Json) (u : Usage) (s : Slot) (path : String) :
    Keeps (ε := Fault) (c.applyConstraint target u s path) (c.applyConstraint target u s path) := by
  refine (keeps_settled _).bind fun e => ?_
  rcases e with _ | (k | v)
  · exact keeps_pure _
  · exact (keeps_settled _).bind fun a => (keeps_settled _).bind fun verdict => keeps_pure _
  · refine (keeps_settled _).bind fun bindings => ?_
    dsimp only
    split
    · exact (keeps_note _ _).bind fun _ => keeps_pure _
    · exact keeps_pure _

theorem accepts_keeps (h : VisitKeeps visit plain) (s : Slot) (scope : Scope) (n : Node) :
    Keeps (accepts visit s scope n) (accepts plain s scope n) :=
  (h n s rootPath scope .empty).bind fun _ => keeps_pure _

theorem checkName_keeps (h : VisitKeeps visit plain) (name : Json) (s : Slot) (path : String)
    (scope : Scope) (r : Report) :
    Keeps (c.checkName visit name s path scope r) (c.checkName plain name s path scope r) := by
  refine (keeps_settled _).bind fun e => ?_
  rcases e with _ | (t | n)
  · exact (report_keeps _ _ _ r).bind fun _ => keeps_pure _
  · refine (keeps_settled _).bind fun ok => ?_
    cases ok with
    | true => exact keeps_pure _
    | false => exact (report_keeps _ _ _ r).bind fun _ => keeps_pure _
  · exact (h n s path scope r).bind fun _ => keeps_pure _

theorem checkUses_keeps (target : Json) (us : List Usage) (s : Slot) (path : String) (r : Report) :
    Keeps (ε := Fault) (c.checkUses target us s path r) (c.checkUses target us s path r) :=
  keeps_foldlM (fun _ u _ => (applyConstraint_keeps target u s path).bind fun _ => keeps_pure _) r

theorem checkNamed_keeps (h : VisitKeeps visit plain) (name : Json) (us : List Usage) (s : Slot)
    (path : String) (scope : Scope) (r : Report) :
    Keeps (c.checkNamed visit name us s path scope r)
      (c.checkNamed plain name us s path scope r) := by
  refine (checkName_keeps h name s path scope r).bind fun x => ?_
  rcases x with ⟨_ | _, r⟩
  · exact keeps_pure r
  · exact checkUses_keeps name us s path r

theorem checkField_keeps (h : VisitKeeps visit plain) (fields : List (String × Json))
    (path : String) (scope : Scope) (r : Report) (f : FieldHead × Node) :
    Keeps (checkField visit fields path scope r f) (checkField plain fields path scope r f) := by
  obtain ⟨⟨name, optional, default⟩, type⟩ := f
  have missing (place : String) : Keeps (ε := Fault)
      (checkField.missing ⟨name, optional, default⟩ type place r)
      (checkField.missing ⟨name, optional, default⟩ type place r) := by
    simp only [checkField.missing]
    split
    · exact keeps_pure r
    · exact report_keeps _ _ _ r
  cases name with
  | string key =>
    simp only [checkField]
    cases lookup key fields with
    | some v => exact h type (some v) _ _ r
    | none => exact missing _
  | null | bool _ | number _ => exact missing _
  | array _ | object _ => exact keeps_throw _

theorem checkEntry_keeps (h : VisitKeeps visit plain) (key value : Node)
    (fields : List (String × Json)) (path : String) (scope : Scope) (r : Report)
    (e : String × Json) :
    Keeps (checkEntry visit key value fields path scope r e)
      (checkEntry plain key value fields path scope r e) :=
  (h key _ _ _ r).bind fun r => h value _ _ _ r

/-- One member of several that accepts the value, or else one diagnostic. -/
theorem anyAccepts_keeps (h : VisitKeeps visit plain) (members : List Node) (s : Slot)
    (scope : Scope) (path message : String) (r : Report) :
    Keeps (members.anyM (accepts visit s scope) >>= fun clean =>
        if clean then pure r else report path .typeMismatch message r)
      (members.anyM (accepts plain s scope) >>= fun clean =>
        if clean then pure r else report path .typeMismatch message r) := by
  refine (keeps_anyM (accepts_keeps h s scope) members).bind fun clean => ?_
  cases clean with
  | true => exact keeps_pure r
  | false => exact report_keeps path _ message r

/-- A visit keeps its answer if its calls do. -/
theorem checkNode_keeps (h : VisitKeeps visit plain) :
    VisitKeeps (c.checkNode visit) (c.checkNode plain) := by
  intro n s path scope r
  cases n with
  | named name us => exact checkNamed_keeps h name us s path scope r
  | nullableNamed name =>
    by_cases hs : s = some .null
    · subst hs; exact keeps_pure r
    · simp only [checkNode]
      exact (checkName_keeps h name s path scope r).bind fun _ => keeps_pure _
  | nullable inner =>
    by_cases hs : s = some .null
    · subst hs; exact keeps_pure r
    · simp only [checkNode]
      exact h inner s path scope r
  | arrayOf item us =>
    rcases s with _ | (_ | _ | _ | _ | items | _)
    case some.array =>
      exact (checkUses_keeps _ us _ path r).bind fun r =>
        keeps_foldlM (fun r x _ => h item (some x.1) _ _ r) r
    all_goals exact report_keeps path _ _ r
  | record declared =>
    rcases s with _ | (_ | _ | _ | _ | _ | fields)
    case some.object => exact keeps_foldlM (fun r f _ => checkField_keeps h fields path scope r f) r
    all_goals exact report_keeps path _ _ r
  | dict key value =>
    rcases s with _ | (_ | _ | _ | _ | _ | fields)
    case some.object =>
      exact keeps_foldlM (fun r e _ => checkEntry_keeps h key value fields path scope r e) r
    all_goals exact report_keeps path _ _ r
  | union members => exact anyAccepts_keeps h members s scope path _ r
  | intersection members => exact keeps_foldlM (fun r n _ => h n s path scope r) r
  | conditional condition yes no =>
    simp only [checkNode]
    cases condition.guard.evaluate scope.subject with
    | none => exact anyAccepts_keeps h [yes, no] s scope path _ r
    | some b =>
      cases b with
      | true => exact h yes s path scope r
      | false => exact h no s path scope r
  | literal v =>
    simp only [checkNode]
    split
    · exact keeps_pure r
    · exact report_keeps path _ _ r
  | absent =>
    cases s with
    | none => exact keeps_pure r
    | some v => exact report_keeps path _ _ r

/-! ### The walk -/

theorem check_keeps (fuel : Nat) : VisitKeeps (c.check fuel) (c.check fuel) := by
  induction fuel with
  | zero => exact fun _ _ _ _ _ => keeps_throw _
  | succ fuel ih => exact checkNode_keeps ih

theorem checkDocument_keeps (root : String) (v : Json) :
    Keeps (ε := Fault) (c.checkDocument root v) (c.checkDocument root v) :=
  Keeps.bind ((check_keeps _ _ _ _ _ _).bind fun _ => keeps_pure _) fun _ =>
    (keeps_note _ _).bind fun _ => keeps_pure _

/-- A validation with its remarks has the diagnostics, or the fault, of one without. -/
theorem validate_keeps (document : Document) (root : Json) :
    Keeps (ε := Fault) (c.validate document root) (c.validate document root) := by
  simp only [validate]
  cases document.read with
  | error e => exact (keeps_note _ _).bind fun _ => keeps_pure _
  | ok v =>
    dsimp only
    split
    · exact checkDocument_keeps _ v
    · exact keeps_throw _
    · exact (keeps_note _ _).bind fun _ => keeps_pure _

end Catalog

/-! ### Loading -/

theorem loadSchema_keeps (folder : Folder) (path : String) :
    Keeps (ε := Failure) (loadSchema folder path) (loadSchema folder path) := by
  simp only [loadSchema]
  cases folder.file? path with
  | some octets =>
    exact (keeps_note _ _).bind fun _ => (keeps_settled _).bind fun _ => keeps_settled _
  | none =>
    dsimp only
    split
    · exact keeps_throw _
    split
    · exact (keeps_note _ _).bind fun _ => keeps_pure _
    · exact keeps_throw _

/-- A schema that is loaded with remarks gives the catalog, or the failure, of one without. -/
theorem loadCatalog_keeps (folder : Folder) (path : String) :
    Keeps (ε := Failure) (loadCatalog folder path) (loadCatalog folder path) :=
  (loadSchema_keeps folder path).bind fun _ => keeps_settled _

end DocSchema
