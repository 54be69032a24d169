import DocSchema.Proofs.Schema.Form
import DocSchema.Proofs.Walk.Everywhere

/-!
Nullable references written out.

A nullable reference is short for a nullable node around a plain reference. `Node.longhand` writes it
out in a node and `Json.longhand` in the JSON form of one, wherever a node may stand. What a schema is
read as changes accordingly (`Catalog.read_longhandSchema`), if all nullable references have text for
a name: as a node inside another one, text is a plain reference, and any other value is something
else.
-/

namespace DocSchema

/-! ### Nodes -/

namespace Node

mutual

/-- A node with its nullable references written out. -/
def longhand : Node → Node
  | .nullableNamed name => .nullable (.named name [])
  | .nullable inner => .nullable inner.longhand
  | .arrayOf item us => .arrayOf item.longhand us
  | .record fields => .record (longhandFields fields)
  | .dict key value => .dict key.longhand value.longhand
  | .union members => .union (longhandAll members)
  | .intersection members => .intersection (longhandAll members)
  | .conditional condition yes no => .conditional condition yes.longhand no.longhand
  | .named name us => .named name us
  | .literal v => .literal v
  | .absent => .absent

def longhandAll : List Node → List Node
  | [] => []
  | n :: rest => n.longhand :: longhandAll rest

def longhandFields : List (FieldHead × Node) → List (FieldHead × Node)
  | [] => []
  | (head, n) :: rest => (head, n.longhand) :: longhandFields rest

end

theorem longhandAll_eq (members : List Node) : longhandAll members = members.map longhand := by
  induction members with
  | nil => rfl
  | cons n members ih => rw [longhandAll, ih, List.map_cons]

theorem longhandFields_eq (fields : List (FieldHead × Node)) :
    longhandFields fields = fields.map fun f => (f.1, f.2.longhand) := by
  induction fields with
  | nil => rfl
  | cons f fields ih => rw [longhandFields, ih, List.map_cons]

/-- A nullable reference has text for a name. -/
def HasTextName : Node → Prop
  | .nullableNamed name => ∃ s, name = .string s
  | _ => True

end Node

/-- A catalog with the nullable references of its types written out. -/
def Catalog.longhand (c : Catalog) : Catalog :=
  { c with types := c.types.map fun t => (t.1, t.2.longhand) }

/-! ### The JSON form -/

namespace Json

/-- What the value under a key is to the node around it. -/
inductive Role where
  | node
  | members
  | fields
  | plain

/-- What the values in a node of a kind are to it. -/
def roleIn : Json → String → Role
  | .string "nullable", "inner" => .node
  | .string "array", "itemType" => .node
  | .string "record", "fields" => .fields
  | .string "dict", "keyType" => .node
  | .string "dict", "valueType" => .node
  | .string "union", "members" => .members
  | .string "intersection", "members" => .members
  | .string "conditional", "then" => .node
  | .string "conditional", "else" => .node
  | _, _ => .plain

theorem roleIn_kind (kind : Json) : roleIn kind "kind" = .plain := by
  unfold roleIn
  split <;> simp_all

/-- What the values in a record field are to it. -/
def roleInField : String → Role
  | "type" => .node
  | _ => .plain

mutual

/-- The form of a node with its nullable references written out. -/
def longhand : Json → Json
  | .object fields =>
    match (Json.object fields).getD "kind" with
    | .string "nullableNamed" =>
      .object [("kind", .string "nullable"), ("inner", (Json.object fields).getD "name")]
    | kind => .object (longhandUnder (roleIn kind) fields)
  | v => v

/-- Writes out all nodes among the values of an object, which the keys tell. -/
def longhandUnder (role : String → Role) : List (String × Json) → List (String × Json)
  | [] => []
  | (k, v) :: rest =>
    let w := match role k with
      | .node => v.longhand
      | .members => v.longhandMembers
      | .fields => v.longhandFields
      | .plain => v
    (k, w) :: longhandUnder role rest

def longhandMembers : Json → Json
  | .array items => .array (longhandAll items)
  | v => v

def longhandAll : List Json → List Json
  | [] => []
  | v :: rest => v.longhand :: longhandAll rest

def longhandFields : Json → Json
  | .array specs => .array (longhandSpecs specs)
  | v => v

def longhandSpecs : List Json → List Json
  | [] => []
  | .object fields :: rest => .object (longhandUnder roleInField fields) :: longhandSpecs rest
  | v :: rest => v :: longhandSpecs rest

end

/-- A value written out as what it is to the node around it. -/
def longhandAs (v : Json) : Role → Json
  | .node => v.longhand
  | .members => v.longhandMembers
  | .fields => v.longhandFields
  | .plain => v

/-- The form of a record field with its type written out. -/
def longhandField : Json → Json
  | .object fields => .object (longhandUnder roleInField fields)
  | v => v

/-- The types of a schema, written out. -/
def longhandTypes : Json → Json
  | .object table => .object (table.map fun t => (t.1, t.2.longhand))
  | v => v

/-- An entry of a schema, written out if it is the types. -/
def longhandEntry (key : String) (v : Json) : Json := if key = "types" then v.longhandTypes else v

/-- A compiled schema with the nullable references of its types written out. -/
def longhandSchema : Json → Json
  | .object fields => .object (fields.map fun f => (f.1, longhandEntry f.1 f.2))
  | v => v

theorem longhandUnder_eq (role : String → Role) (fields : List (String × Json)) :
    longhandUnder role fields = fields.map fun f => (f.1, f.2.longhandAs (role f.1)) := by
  induction fields with
  | nil => rfl
  | cons f fields ih =>
    rw [longhandUnder, ih, List.map_cons]
    rfl

theorem longhandAll_eq (items : List Json) : longhandAll items = items.map longhand := by
  induction items with
  | nil => rfl
  | cons v items ih => rw [longhandAll, ih, List.map_cons]

theorem longhandSpecs_eq (specs : List Json) : longhandSpecs specs = specs.map longhandField := by
  induction specs with
  | nil => rfl
  | cons v specs ih => cases v <;> simp only [longhandSpecs, ih, List.map_cons, longhandField]

end Json

/-! ### Reading what is written out -/

namespace Json

variable {role : String → Role} {fields : List (String × Json)} {key : String}

theorem get?_longhandUnder : (Json.object (longhandUnder role fields)).get? key =
    ((Json.object fields).get? key).map (·.longhandAs (role key)) := by
  rw [longhandUnder_eq]
  exact lookup_map (fun k v => v.longhandAs (role k)) key fields

theorem get?_longhandUnder_plain (h : role key = .plain) :
    (Json.object (longhandUnder role fields)).get? key = (Json.object fields).get? key := by
  rw [get?_longhandUnder, h]
  cases (Json.object fields).get? key <;> rfl

theorem getD_longhandUnder_plain (h : role key = .plain) :
    (Json.object (longhandUnder role fields)).getD key = (Json.object fields).getD key := by
  rw [getD, get?_longhandUnder_plain h, getD]

theorem itemsUnder_longhandUnder (h : role key = .members) :
    (Json.object (longhandUnder role fields)).itemsUnder key =
      ((Json.object fields).itemsUnder key).map longhand := by
  rw [itemsUnder, get?_longhandUnder, h, itemsUnder]
  cases (Json.object fields).get? key with
  | none => rfl
  | some v =>
    cases v with
    | array items => exact longhandAll_eq items
    | _ => rfl

end Json

/-- Lists whose members are exchanged are read if the members are. -/
theorem mapM_map_eq_ok {ε α β γ δ : Type} {f : α → Except ε β} {g : γ → Except ε δ} {k : α → γ}
    {m : β → δ} {l : List α} {l' : List β} (h : l.mapM f = .ok l')
    (hstep : ∀ a ∈ l, ∀ b ∈ l', f a = .ok b → g (k a) = .ok (m b)) :
    (l.map k).mapM g = .ok (l'.map m) := by
  rw [mapM_eq_ok] at h ⊢
  induction h with
  | nil => exact .nil
  | cons hab _ ih =>
    refine .cons (hstep _ List.mem_cons_self _ List.mem_cons_self hab) (ih fun a ha b hb => ?_)
    exact hstep a (List.mem_cons_of_mem _ ha) b (List.mem_cons_of_mem _ hb)

namespace Node

open Json

/-- Written out, a value is read as the node it was, written out. -/
def ReadsLonghand (v : Json) : Prop := ∀ place n, read place v = .ok n →
  n.Everywhere HasTextName → read place v.longhand = .ok n.longhand

variable {role : String → Role} {fields : List (String × Json)} {place key inner : String}
  {n : Node}

theorem require_longhand {w : Json} (hrole : role key = .plain)
    (h : require place key (.object fields) = .ok w) :
    require place key (.object (longhandUnder role fields)) = .ok w := by
  rwa [require_eq_ok, get?_longhandUnder_plain hrole, ← require_eq_ok]

theorem uses_longhand {us : List Usage} (hrole : role key = .plain)
    (h : Usage.readList place ((Json.object fields).getD key) = .ok us) :
    Usage.readList place ((Json.object (longhandUnder role fields)).getD key) = .ok us := by
  rwa [getD_longhandUnder_plain hrole]

theorem nodeUnder_longhand (hrole : role key = .node)
    (ih : ∀ w ∈ ((Json.object fields).get? key).toList, ReadsLonghand w)
    (hn : n.Everywhere HasTextName)
    (h : nodeUnder read place key inner (.object fields) = .ok n) :
    nodeUnder read place key inner (.object (longhandUnder role fields)) = .ok n.longhand := by
  obtain ⟨w, hw, hread⟩ := nodeUnder_eq_ok.mp h
  refine nodeUnder_eq_ok.mpr ⟨w.longhand, ?_, ih w (Option.mem_toList.mpr hw) _ n hread hn⟩
  rw [get?_longhandUnder, hw, hrole]
  rfl

theorem membersBy_longhand {members : List Node} (hrole : role "members" = .members)
    (ih : ∀ w ∈ (Json.object fields).itemsUnder "members", ReadsLonghand w)
    (hn : ∀ n ∈ members, n.Everywhere HasTextName)
    (h : membersBy read place (.object fields) = .ok members) :
    membersBy read place (.object (longhandUnder role fields)) = .ok (longhandAll members) := by
  rw [membersBy, itemsUnder_longhandUnder hrole, longhandAll_eq]
  rw [membersBy] at h
  generalize (Json.object fields).itemsUnder "members" = items at ih h ⊢
  cases items with
  | nil => cases h
  | cons m ms =>
    show (((m :: ms).map Json.longhand).zipIdx).mapM _ = _
    rw [List.zipIdx_map]
    refine mapM_map_eq_ok h fun x hx n hn' hread => ?_
    exact ih x.1 (List.fst_mem_of_mem_zipIdx hx) _ n hread (hn n hn')

theorem fieldBy_longhand {spec : Json} {f : FieldHead × Node}
    (ih : ∀ w ∈ (spec.get? "type").toList, ReadsLonghand w) (hn : f.2.Everywhere HasTextName)
    (h : fieldBy read place spec = .ok f) :
    fieldBy read place spec.longhandField = .ok (f.1, f.2.longhand) := by
  cases spec with
  | object fields =>
    rw [longhandField, fieldBy, get?_longhandUnder_plain rfl, getD_longhandUnder_plain rfl,
      getD_longhandUnder_plain rfl]
    rw [fieldBy] at h
    cases hname : (Json.object fields).get? "name" with
    | none => rw [hname] at h; cases h
    | some name =>
      rw [hname] at h
      obtain ⟨type, htype, rfl⟩ := map_eq_ok.mp h
      exact map_eq_ok.mpr ⟨type.longhand, nodeUnder_longhand rfl ih hn htype, rfl⟩
  | _ => cases h

theorem fieldsBy_longhand {declared : List (FieldHead × Node)} (hrole : role "fields" = .fields)
    (ih : ∀ spec ∈ (Json.object fields).itemsUnder "fields",
      ∀ w ∈ (spec.get? "type").toList, ReadsLonghand w)
    (hn : ∀ f ∈ declared, f.2.Everywhere HasTextName)
    (h : fieldsBy read place (.object fields) = .ok declared) :
    fieldsBy read place (.object (longhandUnder role fields)) = .ok (longhandFields declared) := by
  rw [fieldsBy, getD, get?_longhandUnder, hrole, longhandFields_eq]
  rw [fieldsBy, getD] at h
  rw [itemsUnder] at ih
  cases hw : (Json.object fields).get? "fields" with
  | none => rw [hw] at h; cases h; rfl
  | some w =>
    rw [hw] at h ih
    cases w with
    | array specs =>
      show (longhandSpecs specs).mapM _ = _
      rw [longhandSpecs_eq]
      exact mapM_map_eq_ok h fun spec hspec f hf hread =>
        fieldBy_longhand (ih spec hspec) (hn f hf) hread
    | _ =>
      -- no array: there is nothing to write out, and nothing to read
      obtain rfl : declared = [] := by
        dsimp only [Option.getD_some] at h
        split at h
        · cases h
        · cases h; rfl
      exact h

/-- A node of any other kind is read as the node of its kind, its parts written out. -/
theorem kindBy_longhand {kind : Json} (hkind : kind ≠ .string "nullableNamed")
    (ih : ∀ w ∈ (Json.object fields).partsOf kind, ReadsLonghand w)
    (hn : n.Everywhere HasTextName) (h : kindBy read place (.object fields) kind = .ok n) :
    kindBy read place (.object (Json.longhandUnder (roleIn kind) fields)) kind = .ok n.longhand := by
  unfold kindBy at h
  split at h
  · -- a reference
    obtain ⟨name, hname, h⟩ := bind_eq_ok.mp h
    obtain ⟨us, hus, h⟩ := bind_eq_ok.mp h
    cases h
    exact bind_eq_ok.mpr ⟨name, require_longhand rfl hname,
      bind_eq_ok.mpr ⟨us, uses_longhand rfl hus, rfl⟩⟩
  · exact absurd rfl hkind
  · -- a nullable node
    obtain ⟨m, hm, rfl⟩ := map_eq_ok.mp h
    have hinner := hn.inside m List.mem_cons_self
    exact map_eq_ok.mpr ⟨_, nodeUnder_longhand rfl ih hinner hm, rfl⟩
  · -- an array
    obtain ⟨item, hitem, h⟩ := bind_eq_ok.mp h
    obtain ⟨us, hus, h⟩ := bind_eq_ok.mp h
    cases h
    have hinner := hn.inside item List.mem_cons_self
    exact bind_eq_ok.mpr ⟨_, nodeUnder_longhand rfl ih hinner hitem,
      bind_eq_ok.mpr ⟨us, uses_longhand rfl hus, rfl⟩⟩
  · -- a record
    obtain ⟨declared, hdeclared, rfl⟩ := map_eq_ok.mp h
    refine map_eq_ok.mpr ⟨_, fieldsBy_longhand rfl (fun spec hspec w hw => ?_) (fun f hf => ?_)
      hdeclared, rfl⟩
    · exact ih w (List.mem_flatMap.mpr ⟨spec, hspec, hw⟩)
    · exact hn.inside f.2 (List.mem_map_of_mem hf)
  · -- a dictionary
    obtain ⟨ihkey, ihvalue⟩ := List.forall_mem_append.mp ih
    obtain ⟨key, hkey, h⟩ := bind_eq_ok.mp h
    obtain ⟨value, hvalue, h⟩ := bind_eq_ok.mp h
    cases h
    have hkeys := hn.inside key List.mem_cons_self
    have hvalues := hn.inside value (List.mem_cons_of_mem _ List.mem_cons_self)
    exact bind_eq_ok.mpr ⟨_, nodeUnder_longhand rfl ihkey hkeys hkey,
      bind_eq_ok.mpr ⟨_, nodeUnder_longhand rfl ihvalue hvalues hvalue, rfl⟩⟩
  · -- a union
    obtain ⟨members, hmembers, rfl⟩ := map_eq_ok.mp h
    exact map_eq_ok.mpr ⟨_, membersBy_longhand rfl ih hn.inside hmembers, rfl⟩
  · -- an intersection
    obtain ⟨members, hmembers, rfl⟩ := map_eq_ok.mp h
    exact map_eq_ok.mpr ⟨_, membersBy_longhand rfl ih hn.inside hmembers, rfl⟩
  · -- a conditional
    obtain ⟨ihyes, ihno⟩ := List.forall_mem_append.mp ih
    obtain ⟨text, htext, h⟩ := bind_eq_ok.mp h
    obtain ⟨yes, hyes, h⟩ := bind_eq_ok.mp h
    obtain ⟨no, hno, h⟩ := bind_eq_ok.mp h
    obtain ⟨condition, hcondition, h⟩ := bind_eq_ok.mp h
    cases h
    have hthen := hn.inside yes List.mem_cons_self
    have helse := hn.inside no (List.mem_cons_of_mem _ List.mem_cons_self)
    exact bind_eq_ok.mpr ⟨text, require_longhand rfl htext,
      bind_eq_ok.mpr ⟨_, nodeUnder_longhand rfl ihyes hthen hyes,
      bind_eq_ok.mpr ⟨_, nodeUnder_longhand rfl ihno helse hno,
      bind_eq_ok.mpr ⟨condition, hcondition, rfl⟩⟩⟩⟩
  · -- a literal
    obtain ⟨v, hv, rfl⟩ := map_eq_ok.mp h
    exact map_eq_ok.mpr ⟨v, require_longhand rfl hv, rfl⟩
  · cases h
    rfl
  · cases h

/-- Written out, every value is read as the node it was, written out. -/
theorem read_longhand (v : Json) : ReadsLonghand v := by
  induction v using Json.nodeParts_induction with
  | h v ih =>
    intro place n h hn
    rw [read_eq] at h ⊢
    cases v with
    | string name => cases h; rfl
    | object fields =>
      change kindBy read place (.object fields) _ = _ at h
      rw [nodeParts] at ih
      by_cases hkind : (Json.object fields).getD "kind" = .string "nullableNamed"
      · rw [hkind] at h
        obtain ⟨name, hname, rfl⟩ := map_eq_ok.mp h
        obtain ⟨s, rfl⟩ := hn.here
        have hname : (Json.object fields).getD "name" = .string s := by
          rw [Json.getD, require_eq_ok.mp hname, Option.getD_some]
        simp only [Json.longhand, hkind, hname]
        rfl
      · have hlonghand : (Json.object fields).longhand =
            .object (Json.longhandUnder (roleIn ((Json.object fields).getD "kind")) fields) := by
          rw [Json.longhand]
          split
          · next h => exact absurd h hkind
          · rfl
        rw [hlonghand, readBy, getD_longhandUnder_plain (roleIn_kind _)]
        exact kindBy_longhand hkind ih hn h
    | _ => cases h

end Node

namespace Catalog

theorem readTypes_eq (table : List (String × Json)) :
    readTypes table = table.mapM fun t => (Node.read t.1 t.2).map (t.1, ·) := by
  induction table with
  | nil => rfl
  | cons t table ih =>
    rw [readTypes, List.mapM_cons, ih]
    cases Node.read t.1 t.2 <;> rfl

theorem readTypes_longhand {table : List (String × Json)} {types : List (String × Node)}
    (hnames : ∀ t ∈ types, t.2.Everywhere Node.HasTextName) (h : readTypes table = .ok types) :
    readTypes (table.map fun t => (t.1, t.2.longhand)) =
      .ok (types.map fun t => (t.1, t.2.longhand)) := by
  rw [readTypes_eq] at h ⊢
  refine mapM_map_eq_ok h fun t _ u hu hread => ?_
  obtain ⟨n, hn, rfl⟩ := map_eq_ok.mp hread
  exact map_eq_ok.mpr ⟨_, Node.read_longhand t.2 t.1 n hn (hnames _ hu), rfl⟩

theorem clashes_longhand (types : List (String × Node)) :
    clashes (types.map fun t => (t.1, t.2.longhand)) = clashes types := by
  simp only [clashes, List.map_map, Function.comp_def]

/-- The table of types is read as the types it was read as, written out. -/
theorem typesUnder_longhand {fields : List (String × Json)} {types : List (String × Node)}
    (hnames : ∀ t ∈ types, t.2.Everywhere Node.HasTextName)
    (h : tableUnder "types" .typesNotAnObject fields >>= readTypes = .ok types) :
    tableUnder "types" .typesNotAnObject
        (fields.map fun f => (f.1, Json.longhandEntry f.1 f.2)) >>= readTypes =
      .ok (types.map fun t => (t.1, t.2.longhand)) := by
  obtain ⟨table, htable, htypes⟩ := bind_eq_ok.mp h
  refine bind_eq_ok.mpr ⟨_, ?_, readTypes_longhand hnames htypes⟩
  rw [tableUnder] at htable ⊢
  rw [lookup_map Json.longhandEntry]
  cases hv : lookup "types" fields with
  | none => rw [hv] at htable; cases htable; rfl
  | some v =>
    rw [hv] at htable
    cases v with
    | object table => cases htable; rfl
    | _ => cases htable

/-- Written out, a schema is read as the catalog it was, written out. -/
theorem read_longhandSchema {schema : Json} {c : Catalog} (h : read schema = .ok c)
    (hnames : c.Everywhere Node.HasTextName) : read schema.longhandSchema = .ok c.longhand := by
  cases schema with
  | object fields =>
    have other {key : String} (hkey : key ≠ "types") :
        lookup key (fields.map fun f => (f.1, Json.longhandEntry f.1 f.2)) = lookup key fields := by
      rw [lookup_map Json.longhandEntry]
      cases lookup key fields with
      | none => rfl
      | some v => exact congrArg some (if_neg hkey)
    obtain ⟨types, htypes, h⟩ := bind_eq_ok.mp h
    obtain ⟨validators, hvalidators, h⟩ := bind_eq_ok.mp h
    split at h
    · next hclashes =>
      cases h
      refine bind_eq_ok.mpr ⟨_, typesUnder_longhand hnames htypes, bind_eq_ok.mpr ⟨validators, ?_, ?_⟩⟩
      · rw [tableUnder, other (by decide)]
        exact hvalidators
      · rw [clashes_longhand, hclashes, other (by decide), other (by decide)]
        rfl
    · cases h
  | _ => cases h

end Catalog

end DocSchema
