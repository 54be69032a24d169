import DocSchema.Proofs.Schema.Form
import DocSchema.Schema.Catalog

/-!
What breaks the reading of a schema off.

A schema is read, or it is malformed, or an operand in it breaks the reading off. `SchemaBreaks` lists
the operands that can: the arguments of a use of a constraint, where a number or true is no list, the
conditions, and the bodies of validators, where an integer may be too long and a pattern too large or
of two modes. A schema that is read has no such operand, and a reading breaks off only at one of them
(`Catalog.read_cases`). Everything else that may be wrong with a schema is reported as such.
-/

namespace DocSchema

/-- What may come of a reading: a result, if no fault can break it off; that the schema is malformed;
or one of those faults. -/
def Reads {α : Type} (r : Except Failure α) (breaks : Fault → Prop) : Prop :=
  match r with
  | .ok _ => ∀ f, ¬ breaks f
  | .error (.schema _) => True
  | .error (.fault f) => breaks f
  | .error _ => False

namespace Reads

variable {α β : Type} {r : Except Failure α} {p q : Fault → Prop}

theorem congr (h : Reads r p) (hpq : ∀ f, p f ↔ q f) : Reads r q := by
  obtain rfl : p = q := funext fun f => propext (hpq f)
  exact h

theorem ok (a : α) (hp : ∀ f, ¬ p f) : Reads (.ok a) p := hp

theorem schema (e : SchemaError) : Reads (.error (.schema e) : Except Failure α) p := trivial

theorem orFault (x : Except Fault α) : Reads (orFault x) fun f => x = .error f := by
  cases x with
  | ok a => exact fun f h => nomatch h
  | error f => exact rfl

theorem map (h : Reads r p) (g : α → β) : Reads (r.map g) p := by
  cases r with
  | ok a => exact h
  | error e => cases e <;> exact h

theorem bind {k : α → Except Failure β} (h : Reads r p) (hk : ∀ a, r = .ok a → Reads (k a) q) :
    Reads (r >>= k) fun f => p f ∨ q f := by
  cases r with
  | ok a =>
    show Reads (k a) _
    exact (hk a rfl).congr fun f => (or_iff_right (h f)).symm
  | error e =>
    cases e with
    | fault f => exact Or.inl h
    | _ => exact h

theorem mapM {γ : Type} {l : List γ} {k : γ → Except Failure β} {b : γ → Fault → Prop}
    (h : ∀ a ∈ l, Reads (k a) (b a)) : Reads (l.mapM k) fun f => ∃ a ∈ l, b a f := by
  induction l with
  | nil => exact fun f ⟨a, ha, _⟩ => nomatch ha
  | cons a l ih =>
    obtain ⟨ha, hl⟩ := List.forall_mem_cons.mp h
    rw [List.mapM_cons]
    refine (ha.bind fun _ _ => (ih hl).bind fun _ _ => ok (p := fun _ => False) _ fun _ => id).congr
      fun f => ?_
    rw [or_false, List.exists_mem_cons_iff]

theorem inr (h : Reads r q) : Reads r fun f => False ∨ q f := h.congr fun f => by rw [false_or]

/-- The three outcomes. -/
theorem cases (h : Reads r p) : (∃ a, r = .ok a ∧ ∀ f, ¬ p f) ∨ (∃ e, r = .error (.schema e)) ∨
    ∃ f, r = .error (.fault f) ∧ p f := by
  cases r with
  | ok a => exact .inl ⟨a, rfl, h⟩
  | error e =>
    cases e with
    | schema e => exact .inr (.inl ⟨e, rfl⟩)
    | fault f => exact .inr (.inr ⟨f, rfl, h⟩)
    | _ => exact h.elim

end Reads

/-! ### Faults of operands -/

/-- The faults that an operand in a schema can have. -/
def Fault.ofOperand : Fault → Bool
  | .notIterable | .tooManyDigits _ | .tooLarge | .conflictingModes => true
  | _ => false

/-- Only a number other than zero, and true, are no list of arguments. -/
theorem argumentItems_eq_error {v : Json} {f : Fault} : argumentItems v = .error f ↔
    f = .notIterable ∧ (v = .bool true ∨ ∃ n, v = .number n ∧ n.isZero = false) := by
  have fault (b : Bool) : (if b then .error .notIterable else .ok []) =
      (.error f : Except Fault (List Json)) ↔ f = .notIterable ∧ b = true := by
    cases b <;> simp [eq_comm (a := f)]
  cases v with
  | bool b => exact (fault b).trans (by simp)
  | number n => exact (fault (!n.isZero)).trans (by simp)
  | _ => simp [argumentItems, Json.truthy]

section Faults

variable {f : Fault}

theorem argumentItems_fault {v : Json} (h : argumentItems v = .error f) : f.ofOperand := by
  obtain ⟨rfl, -⟩ := argumentItems_eq_error.mp h
  rfl

theorem Literal.ofText_fault {cs : List Char} (h : ofText cs = .error f) : f.ofOperand := by
  unfold ofText ofTrimmed at h
  split at h
  · cases h
  split at h
  · cases h
  split at h
  · cases h
  split at h
  · next t _ =>
    have hvalue := map_eq_error.mp h
    unfold NumberText.value at hvalue
    split at hvalue
    · split at hvalue
      · cases hvalue; rfl
      · cases hvalue
    · cases hvalue
  · split at h <;> cases h

theorem Guard.ofJson_fault {v : Json} (h : ofJson v = .error f) : f.ofOperand := by
  cases v with
  | string text =>
    change ofTrimmed _ = _ at h
    unfold ofTrimmed at h
    split at h
    · exact Literal.ofText_fault (map_eq_error.mp h)
    · cases h
  | _ => cases h

theorem Pattern.compileLiteral_fault {cs : List Char} (h : compileLiteral cs = .error f) :
    f.ofOperand := by
  unfold compileLiteral compile at h
  split at h
  · split at h
    · cases h
    · unfold SourceError.toOutcome at h
      split at h <;> cases h <;> rfl
  · cases h

theorem Rule.operand_fault {cs : List Char} (h : operand cs = .error f) : f.ofOperand := by
  unfold operand at h
  split at h
  · cases h
  · exact Literal.ofText_fault (map_eq_error.mp h)

theorem Rule.ofText_fault {body : String} (h : ofText body = .error f) : f.ofOperand := by
  unfold ofText ofTrimmed at h
  split at h
  · exact Pattern.compileLiteral_fault (map_eq_error.mp h)
  · exact Pattern.compileLiteral_fault (map_eq_error.mp h)
  · cases h
  · exact operand_fault (map_eq_error.mp h)
  · cases h

end Faults

/-! ### Operands that break a reading off -/

/-- The faults of the operands of one kind of node: the arguments of its uses of constraints, and its
condition. -/
def OwnBreaks (v : Json) (f : Fault) : Json → Prop
  | .string "named" | .string "array" =>
    ∃ u ∈ v.itemsUnder "constraints", argumentItems (u.getD "args") = .error f
  | .string "conditional" => ∃ text ∈ v.get? "condition", Guard.ofJson text = .error f
  | _ => False

/-- The faults of the operands of a node and of the nodes inside it. -/
inductive NodeBreaks : Json → Fault → Prop
  | here {v f} (h : OwnBreaks v f (v.getD "kind")) : NodeBreaks v f
  | inside {v w f} (hw : w ∈ v.nodeParts) (h : NodeBreaks w f) : NodeBreaks v f

/-- The faults of the body of a validator. -/
def BodyBreaks (v : Json) (f : Fault) : Prop :=
  ∃ body, (v = .string body ∨ v.get? "body" = some (.string body)) ∧ Rule.ofText body = .error f

/-- The entries of an object; none of any other value. -/
def Json.entries : Json → List (String × Json)
  | .object fields => fields
  | _ => []

/-- The faults of the operands of a schema. -/
def SchemaBreaks (data : Json) (f : Fault) : Prop :=
  (∃ t ∈ (data.getD "types").entries, NodeBreaks t.2 f) ∨
    ∃ t ∈ (data.getD "validators").entries, ∃ x ∈ t.2.entries, BodyBreaks x.2 f

theorem OwnBreaks.fault {v kind : Json} {f : Fault} (h : OwnBreaks v f kind) : f.ofOperand := by
  unfold OwnBreaks at h
  split at h
  · obtain ⟨u, -, hu⟩ := h
    exact argumentItems_fault hu
  · obtain ⟨u, -, hu⟩ := h
    exact argumentItems_fault hu
  · obtain ⟨text, -, htext⟩ := h
    exact Guard.ofJson_fault htext
  · exact h.elim

theorem NodeBreaks.fault {v : Json} {f : Fault} (h : NodeBreaks v f) : f.ofOperand := by
  induction h with
  | here h => exact h.fault
  | inside _ _ ih => exact ih

theorem SchemaBreaks.fault {data : Json} {f : Fault} (h : SchemaBreaks data f) : f.ofOperand := by
  rcases h with ⟨t, -, ht⟩ | ⟨t, -, x, -, body, -, hbody⟩
  · exact ht.fault
  · exact Rule.ofText_fault hbody

/-! ### Nodes -/

theorem Usage.read_reads (place : String) (v : Json) :
    Reads (Usage.read place v) fun f => argumentItems (v.getD "args") = .error f := by
  unfold Usage.read
  cases v.get? "name" with
  | none => exact .schema _
  | some name => exact (Reads.orFault _).map _

theorem Usage.readAll_eq (place : String) (vs : List Json) :
    Usage.readAll place vs = vs.mapM (Usage.read place) := by
  induction vs with
  | nil => rfl
  | cons v vs ih => rw [readAll, List.mapM_cons, ih]; rfl

theorem Usage.readList_reads (place : String) (v : Json) :
    Reads (Usage.readList place (v.getD "constraints")) fun f =>
      ∃ u ∈ v.itemsUnder "constraints", argumentItems (u.getD "args") = .error f := by
  rw [Json.getD, Json.itemsUnder]
  cases v.get? "constraints" with
  | none =>
    refine Reads.ok _ ?_
    rintro f ⟨u, hu, -⟩
    exact absurd hu List.not_mem_nil
  | some w =>
    cases w with
    | null =>
      refine Reads.ok _ ?_
      rintro f ⟨u, hu, -⟩
      exact absurd hu List.not_mem_nil
    | array items =>
      show Reads (Usage.readAll place items) _
      rw [readAll_eq]
      exact Reads.mapM fun u _ => read_reads place u
    | _ => exact .schema _

theorem Condition.read_reads (v : Json) :
    Reads (Condition.read v) fun f => Guard.ofJson v = .error f := by
  unfold Condition.read
  split
  · next g hg => exact Reads.ok _ fun f hf => by rw [hg] at hf; cases hf
  · next f hf => exact hf

namespace Node

variable {r : Reader} {b : Json → Fault → Prop} {v : Json} {place key : String}

theorem require_reads : Reads (require place key v) fun _ => False := by
  unfold require
  split
  · exact Reads.ok _ fun _ => id
  · exact .schema _

theorem nodeUnder_reads {inner : String}
    (hr : ∀ w ∈ (v.get? key).toList, ∀ place, Reads (r place w) (b w)) :
    Reads (nodeUnder r place key inner v) fun f => ∃ w ∈ (v.get? key).toList, b w f := by
  unfold nodeUnder require
  cases hw : v.get? key with
  | none => exact .schema _
  | some w =>
    have hmem : w ∈ (v.get? key).toList := Option.mem_toList.mpr hw
    refine (hr w hmem inner).congr fun f => ?_
    simp

theorem membersBy_reads (hr : ∀ w ∈ v.itemsUnder "members", ∀ place, Reads (r place w) (b w)) :
    Reads (membersBy r place v) fun f => ∃ w ∈ v.itemsUnder "members", b w f := by
  unfold membersBy
  generalize v.itemsUnder "members" = members at hr ⊢
  cases members with
  | nil => exact .schema _
  | cons m ms =>
    refine (Reads.mapM (b := fun x => b x.1) fun x hx =>
      hr x.1 (List.fst_mem_of_mem_zipIdx hx) _).congr fun f => ?_
    constructor
    · rintro ⟨x, hx, h⟩
      exact ⟨x.1, List.fst_mem_of_mem_zipIdx hx, h⟩
    · rintro ⟨w, hw, h⟩
      rw [← List.zipIdx_map_fst 0 (m :: ms)] at hw
      obtain ⟨x, hx, rfl⟩ := List.mem_map.mp hw
      exact ⟨x, hx, h⟩

theorem fieldBy_reads (hr : ∀ w ∈ (v.get? "type").toList, ∀ place, Reads (r place w) (b w)) :
    Reads (fieldBy r place v) fun f => ∃ w ∈ (v.get? "type").toList, b w f := by
  unfold fieldBy
  split
  · exact .schema _
  · exact (nodeUnder_reads hr).map _

theorem fieldsBy_reads
    (hr : ∀ spec ∈ v.itemsUnder "fields", ∀ w ∈ (spec.get? "type").toList, ∀ place,
      Reads (r place w) (b w)) :
    Reads (fieldsBy r place v) fun f =>
      ∃ spec ∈ v.itemsUnder "fields", ∃ w ∈ (spec.get? "type").toList, b w f := by
  unfold fieldsBy Json.getD
  cases hw : v.get? "fields" with
  | none =>
    simp only [Json.itemsUnder, hw] at hr ⊢
    refine Reads.ok _ ?_
    rintro f ⟨spec, hspec, -⟩
    exact absurd hspec List.not_mem_nil
  | some w =>
    cases w with
    | array specs =>
      simp only [Json.itemsUnder, hw] at hr ⊢
      exact Reads.mapM fun spec hspec => fieldBy_reads (hr spec hspec)
    | _ =>
      simp only [Json.itemsUnder, hw, Option.getD_some] at hr ⊢
      split
      · exact .schema _
      · refine Reads.ok _ ?_
        rintro f ⟨spec, hspec, -⟩
        exact absurd hspec List.not_mem_nil

theorem conditionUnder_reads {text : Json} (h : require place "condition" v = .ok text) :
    Reads (Condition.read text) fun f =>
      ∃ text ∈ v.get? "condition", Guard.ofJson text = .error f := by
  rw [require_eq_ok.mp h]
  exact (Condition.read_reads text).congr fun f => by simp

/-- One level of a node: what breaks it off are its own operands and the nodes inside it. -/
theorem readBy_reads (hr : ∀ w ∈ v.nodeParts, ∀ place, Reads (r place w) (b w)) :
    Reads (readBy r place v) fun f =>
      OwnBreaks v f (v.getD "kind") ∨ ∃ w ∈ v.nodeParts, b w f := by
  unfold readBy
  split
  · refine Reads.ok _ fun f => ?_
    rintro (h | ⟨w, hw, _⟩)
    · exact h
    · exact nomatch hw
  · next fields =>
    unfold Json.nodeParts at *
    generalize (Json.object fields).getD "kind" = kind at hr ⊢
    generalize Json.object fields = v at hr ⊢
    unfold kindBy
    split
    · -- a reference
      refine (require_reads.bind fun name _ => (Usage.readList_reads place v).map _).congr
        fun f => ?_
      simp [OwnBreaks, Json.partsOf]
    · exact (require_reads.map _).congr fun f => by simp [OwnBreaks, Json.partsOf]
    · exact ((nodeUnder_reads hr).map _).inr
    · -- an array
      exact ((nodeUnder_reads hr).bind fun item _ => (Usage.readList_reads place v).map _).congr
        fun f => or_comm
    · -- a record
      refine ((fieldsBy_reads fun spec hspec w hw =>
        hr w (List.mem_flatMap.mpr ⟨spec, hspec, hw⟩)).map _).inr.congr fun f => ?_
      refine or_congr Iff.rfl ?_
      simp only [Json.partsOf, List.mem_flatMap]
      constructor
      · rintro ⟨spec, hspec, w, hw, h⟩
        exact ⟨w, ⟨spec, hspec, hw⟩, h⟩
      · rintro ⟨w, ⟨spec, hspec, hw⟩, h⟩
        exact ⟨spec, hspec, w, hw, h⟩
    · -- a dictionary
      obtain ⟨hkey, hvalue⟩ := List.forall_mem_append.mp hr
      refine ((nodeUnder_reads hkey).bind fun _ _ =>
        (nodeUnder_reads hvalue).map _).inr.congr fun f => or_congr Iff.rfl ?_
      simp only [Json.partsOf, List.mem_append, or_and_right, exists_or]
    · exact ((membersBy_reads hr).map _).inr
    · exact ((membersBy_reads hr).map _).inr
    · -- a conditional
      obtain ⟨hyes, hno⟩ := List.forall_mem_append.mp hr
      refine (require_reads.bind fun text htext => (nodeUnder_reads hyes).bind fun _ _ =>
        (nodeUnder_reads hno).bind fun _ _ => (conditionUnder_reads htext).map _).congr
        fun f => ?_
      simp only [OwnBreaks, Json.partsOf, List.mem_append, or_and_right, exists_or, false_or]
      rw [← or_assoc, or_comm]
    · exact (require_reads.map _).congr fun f => by simp [OwnBreaks, Json.partsOf]
    · exact Reads.ok _ fun f => by simp [OwnBreaks, Json.partsOf]
    · exact .schema _
  · exact .schema _

/-- What breaks a node off is one of the operands in it. -/
theorem read_reads (v : Json) : ∀ place, Reads (read place v) (NodeBreaks v) := by
  induction v using Json.nodeParts_induction with
  | h v ih =>
    intro place
    rw [read_eq]
    refine (readBy_reads ih).congr fun f => ?_
    constructor
    · rintro (h | ⟨w, hw, h⟩)
      · exact .here h
      · exact .inside hw h
    · rintro (h | ⟨hw, h⟩)
      · exact .inl h
      · exact .inr ⟨_, hw, h⟩

end Node

/-! ### Validators -/

theorem Parameter.readAll_reads (place : String) (vs : List Json) :
    Reads (Parameter.readAll place vs) fun _ => False := by
  induction vs with
  | nil => exact Reads.ok _ fun _ => id
  | cons v vs ih =>
    have first : Reads (Parameter.read place v) fun _ => False := by
      unfold Parameter.read
      split
      · exact Reads.ok _ fun _ => id
      · exact Reads.ok _ fun _ => id
      · exact .schema _
    exact (first.bind fun _ _ => ih.map _).congr fun f => by rw [or_false]

theorem Parameter.readList_reads (place : String) (v : Json) :
    Reads (Parameter.readList place v) fun _ => False := by
  unfold Parameter.readList
  split
  · exact readAll_reads place _
  · split
    · exact .schema _
    · exact Reads.ok _ fun _ => id

theorem CustomValidator.ofBody_reads (body : String) (ps : List Parameter) :
    Reads (ofBody body ps) fun f => Rule.ofText body = .error f := (Reads.orFault _).map _

/-- What breaks a validator off is its body. -/
theorem CustomValidator.read_reads (place : String) (v : Json) :
    Reads (CustomValidator.read place v) (BodyBreaks v) := by
  unfold CustomValidator.read
  split
  · next body =>
    refine (ofBody_reads body []).congr fun f => ?_
    constructor
    · exact fun h => ⟨body, .inl rfl, h⟩
    · rintro ⟨_, h | h, hf⟩
      · cases h; exact hf
      · cases h
  · next body hv hbody =>
    refine ((Parameter.readList_reads place _).bind fun ps _ => ofBody_reads body ps).congr
      fun f => ?_
    rw [false_or]
    constructor
    · exact fun h => ⟨body, .inr hbody, h⟩
    · rintro ⟨_, h | h, hf⟩
      · exact absurd h (hv _)
      · rw [hbody] at h; cases h; exact hf
  · exact .schema _

/-! ### Schemas -/

namespace Catalog

theorem readTypes_reads (types : List (String × Json)) :
    Reads (readTypes types) fun f => ∃ t ∈ types, NodeBreaks t.2 f := by
  induction types with
  | nil => exact Reads.ok _ fun f ⟨t, ht, _⟩ => nomatch ht
  | cons t types ih =>
    obtain ⟨name, v⟩ := t
    refine ((Node.read_reads v name).bind fun _ _ => ih.map _).congr fun f => ?_
    rw [List.exists_mem_cons_iff]

theorem readTable_reads (target : String) (table : List (String × Json)) :
    Reads (readTable target table) fun f => ∃ x ∈ table, BodyBreaks x.2 f := by
  induction table with
  | nil => exact Reads.ok _ fun f ⟨x, hx, _⟩ => nomatch hx
  | cons x table ih =>
    obtain ⟨name, v⟩ := x
    refine ((CustomValidator.read_reads s!"{target}.{name}" v).bind fun _ _ => ih.map _).congr
      fun f => ?_
    rw [List.exists_mem_cons_iff]

theorem readTables_reads (tables : List (String × Json)) :
    Reads (readTables tables) fun f => ∃ t ∈ tables, ∃ x ∈ t.2.entries, BodyBreaks x.2 f := by
  induction tables with
  | nil => exact Reads.ok _ fun f ⟨t, ht, _⟩ => nomatch ht
  | cons t tables ih =>
    obtain ⟨target, v⟩ := t
    cases v with
    | object table =>
      refine ((readTable_reads target table).bind fun _ _ => ih.map _).congr fun f => ?_
      rw [List.exists_mem_cons_iff]
      rfl
    | _ => exact .schema _

/-- A table that is there is read; nothing is read where there is none. -/
theorem tableUnder_reads {β : Type} {key : String} {e : SchemaError} {fields : List (String × Json)}
    {k : List (String × Json) → Except Failure β} {b : Json → Fault → Prop}
    (hk : ∀ table, Reads (k table) fun f => ∃ t ∈ table, b t.2 f) :
    Reads (tableUnder key e fields >>= k) fun f =>
      ∃ t ∈ ((Json.object fields).getD key).entries, b t.2 f := by
  have hget : (Json.object fields).getD key = (lookup key fields).getD .null := rfl
  rw [tableUnder, hget]
  cases lookup key fields with
  | none => exact hk []
  | some v =>
    cases v with
    | object table => exact hk table
    | _ => exact .schema _

/-- What breaks a schema off is one of the operands in it. -/
theorem read_reads (data : Json) : Reads (read data) (SchemaBreaks data) := by
  cases data with
  | object fields =>
    refine ((tableUnder_reads (b := NodeBreaks) readTypes_reads).bind fun types _ =>
      (tableUnder_reads (b := fun v f => ∃ x ∈ v.entries, BodyBreaks x.2 f)
        readTables_reads).bind (q := fun _ => False) fun validators _ => ?_).congr
        fun f => by rw [or_false]; rfl
    split
    · exact Reads.ok _ fun _ => id
    · exact .schema _
  | _ => exact .schema _

/-- A schema is read, and then no operand in it breaks the reading off; or it is malformed; or the
reading breaks off at an operand. -/
theorem read_cases (data : Json) :
    (∃ c, read data = .ok c ∧ ∀ f, ¬ SchemaBreaks data f) ∨
    (∃ e, read data = .error (.schema e)) ∨
    ∃ f, read data = .error (.fault f) ∧ SchemaBreaks data f ∧ f.ofOperand := by
  rcases (read_reads data).cases with hok | hschema | ⟨f, hf, hbreaks⟩
  · exact .inl hok
  · exact .inr (.inl hschema)
  · exact .inr (.inr ⟨f, hf, hbreaks, hbreaks.fault⟩)

/-- A schema with true where the arguments of a use belong. -/
def trueForArguments : Json := .object [("types", .object [("Id", .object [
  ("kind", .string "named"), ("name", .string "Int"),
  ("constraints", .array [.object [("name", .string "min"), ("args", .bool true)]])])])]

/-- It is not reported as malformed. -/
theorem read_trueForArguments : read trueForArguments = .error (.fault .notIterable) := rfl

end Catalog

end DocSchema
