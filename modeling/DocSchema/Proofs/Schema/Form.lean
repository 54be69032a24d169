import DocSchema.Proofs.Walk.Calls

/-!
The JSON form of a node, one level at a time.

The reader of nodes recurs along the JSON value, with one function for each kind of list that it
meets. `Node.readBy` is one level of it, with a parameter in place of the reader for the nodes inside,
and with lookups and maps over lists in place of recursions; `Node.read_eq` says that the reader is
its fixed point. `Json.nodeParts` are the values in the place of nodes directly inside a node. They
have less depth, so what holds of a value if it holds of its parts holds of all values
(`Json.nodeParts_induction`).
-/

namespace DocSchema

/-! ### What a reading was made of -/

section Readings

variable {ε α β : Type} {r : Except ε α} {f : α → Except ε β}

theorem bind_eq_ok {b : β} : r >>= f = .ok b ↔ ∃ a, r = .ok a ∧ f a = .ok b := by
  cases r <;> simp [bind, Except.bind]

theorem map_eq_ok {k : α → β} {b : β} : r.map k = .ok b ↔ ∃ a, r = .ok a ∧ k a = b := by
  cases r <;> simp [Except.map]

theorem map_eq_error {k : α → β} {e : ε} : r.map k = .error e ↔ r = .error e := by
  cases r <;> simp [Except.map]

/-- A list is read if its members are, one by one. -/
theorem mapM_eq_ok {l : List α} {l' : List β} :
    l.mapM f = .ok l' ↔ List.Forall₂ (fun a b => f a = .ok b) l l' := by
  induction l generalizing l' with
  | nil =>
    rw [List.mapM_nil, List.forall₂_nil_left_iff]
    constructor
    · intro h; cases h; rfl
    · rintro rfl; rfl
  | cons a l ih =>
    rw [List.mapM_cons, List.forall₂_cons_left_iff]
    constructor
    · intro h
      obtain ⟨b, ha, h⟩ := bind_eq_ok.mp h
      obtain ⟨bs, hl, h⟩ := bind_eq_ok.mp h
      cases h
      exact ⟨b, bs, ha, ih.mp hl, rfl⟩
    · rintro ⟨b, bs, ha, hl, rfl⟩
      rw [ha, ih.mpr hl]
      rfl

end Readings

/-- The items of the array under a key; none if there is no such array. -/
def Json.itemsUnder (key : String) (v : Json) : List Json :=
  match v.get? key with
  | some (.array items) => items
  | _ => []

namespace Node

/-- A way of reading the nodes inside a node: by their place in messages. -/
abbrev Reader := String → Json → Except Failure Node

/-- The node under a key that must be there. -/
def nodeUnder (r : Reader) (place key inner : String) (v : Json) : Except Failure Node :=
  require place key v >>= r inner

/-- The nodes in the list under `members`, which must not be empty. -/
def membersBy (r : Reader) (place : String) (v : Json) : Except Failure (List Node) :=
  match v.itemsUnder "members" with
  | [] => .error (.schema (.noMembers place))
  | m :: ms => ((m :: ms).zipIdx).mapM fun x => r s!"{place}|{x.2}" x.1

/-- A field of a record. -/
def fieldBy (r : Reader) (place : String) (v : Json) : Except Failure (FieldHead × Node) :=
  match v.get? "name" with
  | none => .error (.schema (.unnamedField place))
  | some name => (nodeUnder r place "type" s!"{place}.{name.plain}" v).map fun type =>
    (⟨name, (v.getD "optional").truthy, v.getD "default"⟩, type)

/-- The fields in the list under `fields`; a value that is not truthy stands for none. -/
def fieldsBy (r : Reader) (place : String) (v : Json) : Except Failure (List (FieldHead × Node)) :=
  match v.getD "fields" with
  | .array specs => specs.mapM (fieldBy r place)
  | w => if w.truthy then .error (.schema (.notAList place "fields")) else .ok []

theorem require_eq_ok {place key : String} {v w : Json} :
    require place key v = .ok w ↔ v.get? key = some w := by
  unfold require
  cases v.get? key <;> simp

theorem nodeUnder_eq_ok {r : Reader} {place key inner : String} {v : Json} {n : Node} :
    nodeUnder r place key inner v = .ok n ↔ ∃ w, v.get? key = some w ∧ r inner w = .ok n := by
  simp only [nodeUnder, bind_eq_ok, require_eq_ok]

/-- A node by its kind, the nodes inside read by `r`. -/
def kindBy (r : Reader) (place : String) (v : Json) : Json → Except Failure Node
  | .string "named" => do
    let name ← require place "name" v
    let constraints ← Usage.readList place (v.getD "constraints")
    .ok (.named name constraints)
  | .string "nullableNamed" => (require place "name" v).map .nullableNamed
  | .string "nullable" => (nodeUnder r place "inner" (place ++ "?") v).map .nullable
  | .string "array" => do
    let item ← nodeUnder r place "itemType" (place ++ "[]") v
    let constraints ← Usage.readList place (v.getD "constraints")
    .ok (.arrayOf item constraints)
  | .string "record" => (fieldsBy r place v).map .record
  | .string "dict" => do
    let key ← nodeUnder r place "keyType" (place ++ ".<key>") v
    let value ← nodeUnder r place "valueType" (place ++ ".<value>") v
    .ok (.dict key value)
  | .string "union" => (membersBy r place v).map .union
  | .string "intersection" => (membersBy r place v).map .intersection
  | .string "conditional" => do
    let condition ← require place "condition" v
    let yes ← nodeUnder r place "then" (place ++ "<then>") v
    let no ← nodeUnder r place "else" (place ++ "<else>") v
    let condition ← Condition.read condition
    .ok (.conditional condition yes no)
  | .string "literal" => (require place "value" v).map .literal
  | .string "absent" => .ok .absent
  | kind => .error (.schema (.unknownKind place kind))

/-- One level of a node, the nodes inside read by `r`. -/
def readBy (r : Reader) (place : String) (v : Json) : Except Failure Node :=
  match v with
  | .string name => .ok (.named (.string name) [])
  | .object fields => kindBy r place (.object fields) ((Json.object fields).getD "kind")
  | v => .error (.schema (.notANode place v))

/-! ### The reader is a fixed point -/

theorem readUnder_eq (key place : String) (fields : List (String × Json)) :
    readUnder key place fields = (lookup key fields).map (read place) := by
  induction fields with
  | nil => rfl
  | cons f fields ih =>
    rw [readUnder, lookup]
    split
    · rfl
    · exact ih

theorem present_readUnder (place key inner : String) (fields : List (String × Json)) :
    present place key (.object fields) (readUnder key inner fields) =
      nodeUnder read place key inner (.object fields) := by
  rw [readUnder_eq, nodeUnder, require, Json.get?]
  cases lookup key fields <;> rfl

theorem readMembers_eq (place : String) (vs : List Json) : ∀ i, readMembers place i vs =
    (vs.zipIdx i).mapM fun x => read s!"{place}|{x.2}" x.1 := by
  induction vs with
  | nil => intro i; rfl
  | cons v vs ih =>
    intro i
    rw [readMembers, List.zipIdx_cons, List.mapM_cons, ih]
    rfl

theorem readMembersUnder_eq (place : String) (fields : List (String × Json)) :
    readMembersUnder place fields = membersBy read place (.object fields) := by
  rw [membersBy, Json.itemsUnder, Json.get?]
  induction fields with
  | nil => rfl
  | cons f fields ih =>
    obtain ⟨k, v⟩ := f
    by_cases hk : k = "members"
    · simp only [lookup, if_pos hk]
      cases v with
      | array items =>
        cases items with
        | nil => simp only [readMembersUnder, if_pos hk]
        | cons m ms => simp only [readMembersUnder, if_pos hk, readMembers_eq]
      | _ => simp only [readMembersUnder, if_pos hk]
    · simp only [lookup, if_neg hk, ← ih]
      cases v with
      | array items => cases items <;> simp only [readMembersUnder, if_neg hk]
      | _ => simp only [readMembersUnder, if_neg hk]

theorem readFields_eq (place : String) (specs : List Json) :
    readFields place specs = specs.mapM (fieldBy read place) := by
  induction specs with
  | nil => rfl
  | cons spec specs ih =>
    rw [List.mapM_cons, ← ih]
    cases spec with
    | object fields =>
      simp only [readFields, fieldBy, Json.get?, present_readUnder]
      cases lookup "name" fields with
      | none => rfl
      | some name =>
        dsimp only
        cases nodeUnder read place "type" s!"{place}.{name.plain}" (.object fields) <;> rfl
    | _ => rfl

theorem readFieldsUnder_eq (place : String) (fields : List (String × Json)) :
    readFieldsUnder place fields = fieldsBy read place (.object fields) := by
  rw [fieldsBy, Json.getD, Json.get?]
  induction fields with
  | nil => rfl
  | cons f fields ih =>
    obtain ⟨k, v⟩ := f
    by_cases hk : k = "fields"
    · simp only [lookup, if_pos hk, Option.getD_some]
      cases v <;> simp only [readFieldsUnder, if_pos hk, readFields_eq]
    · simp only [lookup, if_neg hk, ← ih]
      cases v <;> simp only [readFieldsUnder, if_neg hk]

/-- The reader reads level by level. -/
theorem read_eq (place : String) (v : Json) : read place v = readBy read place v := by
  cases v with
  | object fields =>
    simp only [read, present_readUnder, readMembersUnder_eq, readFieldsUnder_eq, readBy]
    generalize (Json.object fields).getD "kind" = kind
    split <;> simp only [kindBy]
  | _ => rfl

end Node

/-! ### Nodes inside nodes -/

namespace Json

/-- The values in the place of nodes directly inside a node of a kind. -/
def partsOf (v : Json) : Json → List Json
  | .string "nullable" => (v.get? "inner").toList
  | .string "array" => (v.get? "itemType").toList
  | .string "record" => (v.itemsUnder "fields").flatMap fun spec => (spec.get? "type").toList
  | .string "dict" => (v.get? "keyType").toList ++ (v.get? "valueType").toList
  | .string "union" => v.itemsUnder "members"
  | .string "intersection" => v.itemsUnder "members"
  | .string "conditional" => (v.get? "then").toList ++ (v.get? "else").toList
  | _ => []

/-- The values in the place of nodes directly inside a node. -/
def nodeParts (v : Json) : List Json := v.partsOf (v.getD "kind")

variable {key : String} {v w : Json}

theorem depth_lt_of_get? (h : v.get? key = some w) : w.depth < v.depth := by
  cases v with
  | object fields =>
    have := depth_le_of_mem_fields (mem_of_lookup h)
    simp only [depth]
    omega
  | _ => cases h

theorem depth_lt_of_mem_itemsUnder (h : w ∈ v.itemsUnder key) : w.depth < v.depth := by
  unfold itemsUnder at h
  split at h
  · next items hitems =>
    have hw := depth_le_of_mem h
    have hv := depth_lt_of_get? hitems
    simp only [depth] at hv
    omega
  · cases h

theorem depth_lt_of_mem_nodeParts (h : w ∈ v.nodeParts) : w.depth < v.depth := by
  have under {key : String} (h : w ∈ (v.get? key).toList) : w.depth < v.depth :=
    depth_lt_of_get? (Option.mem_toList.mp h)
  unfold nodeParts partsOf at h
  split at h
  · exact under h
  · exact under h
  · obtain ⟨spec, hspec, hw⟩ := List.mem_flatMap.mp h
    exact Nat.lt_trans (depth_lt_of_get? (Option.mem_toList.mp hw))
      (depth_lt_of_mem_itemsUnder hspec)
  · exact (List.mem_append.mp h).elim under under
  · exact depth_lt_of_mem_itemsUnder h
  · exact depth_lt_of_mem_itemsUnder h
  · exact (List.mem_append.mp h).elim under under
  · cases h

/-- What holds of a value if it holds of the nodes inside it holds of all values. -/
theorem nodeParts_induction {p : Json → Prop} (h : ∀ v : Json, (∀ w ∈ v.nodeParts, p w) → p v)
    (v : Json) : p v := by
  induction hd : v.depth using Nat.strongRecOn generalizing v with
  | ind d ih =>
    subst hd
    exact h v fun w hw => ih w.depth (depth_lt_of_mem_nodeParts hw) w rfl

end Json

end DocSchema
