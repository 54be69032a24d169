import DocSchema.Expression.Guard
import DocSchema.Proofs.Expression.Rule

/-!
Guards read back as what they are written for, and look up what they name.

`Spells` says which texts are written for a guard: identifiers joined by points, an equality operator
and any literal, with white space around the operator. A path is read up to the first character that
neither continues an identifier nor is a point, so what the literal holds does not matter. `Leads` is
the meaning of a path, one object for each of its keys. Main statement: `ofText_lookup`.
-/

namespace DocSchema

/-! ### Paths of keys -/

/-- A path of keys leads from a value to another one, through one object for each key. -/
inductive Json.Leads : List String → Json → Json → Prop
  | here (v : Json) : Leads [] v v
  | down {key : String} {path : List String} {fields : List (String × Json)} {v w : Json}
      (hkey : lookup key fields = some v) (hrest : Leads path v w) :
      Leads (key :: path) (.object fields) w

theorem Json.follow_eq_some {path : List String} {v w : Json} :
    v.follow path = some w ↔ Leads path v w := by
  constructor
  · intro h
    induction path generalizing v with
    | nil =>
      cases h
      exact .here _
    | cons key path ih =>
      rw [follow, Option.bind_eq_some_iff] at h
      obtain ⟨u, hkey, hrest⟩ := h
      -- only an object has something under a key
      cases v with
      | object fields => exact .down hkey (ih hrest)
      | _ => cases hkey
  · intro h
    induction h with
    | here v => rfl
    | down hkey hrest ih => rw [follow, get?, hkey, Option.bind_some, ih]

namespace Guard

open Expression

/-! ### Writing -/

/-- Names joined by points. -/
def dotted : List (List Char) → List Char
  | [] => []
  | [name] => name
  | name :: names => name ++ '.' :: dotted names

/-- The relations that a guard may state. -/
def equalities : List Relation := [.equal, .unequal]

/-- The text is written for the guard. -/
inductive Spells : List Char → Guard → Prop
  | intro {names : List (List Char)} {r : Relation} {w z text : List Char} {v : Json}
      (hne : names ≠ []) (hnames : ∀ name ∈ names, IsName name) (hr : r ∈ equalities)
      (hw : Blanks w) (hz : Blanks z) (htext : Literal.Spells text v) :
      Spells (dotted names ++ (w ++ (r.text.toList ++ (z ++ text))))
        (.path (names.map String.ofList) r v)

/-! ### Reading back -/

variable {names : List (List Char)} {r : Relation} {w z cs rest : List Char} {g : Guard}

theorem length_le_dotted (hnames : ∀ name ∈ names, IsName name) :
    names.length ≤ (dotted names).length := by
  induction names with
  | nil => exact Nat.le_refl _
  | cons name names ih =>
    obtain ⟨hname, hnames⟩ := List.forall_mem_cons.mp hnames
    have hpositive := List.length_pos_iff.mpr hname.ne_nil
    have hrest := ih hnames
    cases names with
    | nil => exact hpositive
    | cons other names =>
      rw [dotted, List.length_append]
      · simp only [List.length_cons] at hrest ⊢
        omega
      · simp

/-- A path is read up to where it ends. -/
theorem segments?_dotted (hne : names ≠ []) (hnames : ∀ name ∈ names, IsName name)
    (hrest : ∀ c ∈ rest.head?, isNameRest c = false ∧ c ≠ '.') :
    ∀ fuel, names.length ≤ fuel → segments? fuel (dotted names ++ rest) = some (names, rest) := by
  induction names with
  | nil => exact absurd rfl hne
  | cons name names ih =>
    obtain ⟨hname, hnames⟩ := List.forall_mem_cons.mp hnames
    rintro (_ | fuel) hfuel
    · simp at hfuel
    cases names with
    | nil =>
      have hlast : identifier? (name ++ rest) = some (name, rest) :=
        identifier?_append hname fun c hc => (hrest c hc).1
      rw [dotted, segments?, hlast]
      split
      · next heq => cases heq
      · next _ tail heq =>
        cases heq
        exact absurd rfl (hrest '.' rfl).2
      · next heq =>
        cases heq
        rfl
    | cons other names =>
      have hfirst : identifier? (name ++ '.' :: (dotted (other :: names) ++ rest)) =
          some (name, '.' :: (dotted (other :: names) ++ rest)) :=
        identifier?_append hname (by rintro c ⟨⟩; decide)
      have hmore := ih (List.cons_ne_nil _ _) hnames fuel (Nat.le_of_succ_le_succ hfuel)
      rw [dotted, List.append_assoc, List.cons_append, segments?, hfirst]
      · simp only [hmore]
      · simp

theorem operator?_append (hr : r ∈ equalities) (hcs : cs ≠ []) :
    operator? (r.text.toList ++ cs) = some (r, cs) := by
  obtain ⟨c, cs, rfl⟩ := List.exists_cons_of_ne_nil hcs
  cases r with
  | equal | unequal => rfl
  | _ => exact absurd hr (by decide)

/-- Neither white space nor an equality operator continues a path. -/
theorem head_behind_path (hr : r ∈ equalities) (hw : Blanks w) (cs : List Char) :
    ∀ c ∈ (w ++ (r.text.toList ++ cs)).head?, isNameRest c = false ∧ c ≠ '.' := by
  cases w with
  | nil => cases r with
    | equal | unequal => rintro c ⟨⟩; decide
    | _ => exact absurd hr (by decide)
  | cons b w =>
    rintro c ⟨⟩
    have hb := hw b List.mem_cons_self
    refine ⟨not_isNameRest_of_isBlank hb, ?_⟩
    rintro rfl
    cases hb

theorem ofTrimmed_of_spells (h : Spells cs g) : ofTrimmed cs = .ok g := by
  cases h with
  | @intro names r w z text v hne hnames hr hw hz htext =>
    have hpath := segments?_dotted hne hnames
      (head_behind_path hr hw (z ++ text))
      ((dotted names ++ (w ++ (r.text.toList ++ (z ++ text)))).length + 1) <| by
        have hlength := length_le_dotted hnames
        rw [List.length_append]
        omega
    have hoperator : operator? (r.text.toList ++ (z ++ text)) = some (r, z ++ text) :=
      operator?_append hr (by simp [Literal.ne_nil_of_spells htext])
    have hread : Literal.ofText (z ++ text) = .ok v := by
      have hspelled := Literal.ofText_spelled htext hz (List.forall_mem_nil _)
      rwa [List.append_nil] at hspelled
    have hparts : parts? (dotted names ++ (w ++ (r.text.toList ++ (z ++ text)))) =
        some (names.map String.ofList, r, z ++ text) := by
      simp only [parts?, hpath, Rule.trimStart_operator hw, hoperator, Option.bind_eq_bind,
        Option.bind_some]
    rw [ofTrimmed, hparts]
    simp only [hread]
    rfl

/-- What is written for a guard neither starts nor ends with white space. -/
theorem solid_of_spells (h : Spells cs g) : Solid cs := by
  cases h with
  | @intro names r w z text v hne hnames hr hw hz htext =>
    have hlast := last_append (a := w) (last_append (a := r.text.toList)
      (last_append (a := z) (Literal.solid_of_spells htext).last (Literal.ne_nil_of_spells htext))
      (by simp [Literal.ne_nil_of_spells htext])) (by simp [Literal.ne_nil_of_spells htext])
    obtain ⟨name, names, rfl⟩ := List.exists_cons_of_ne_nil hne
    have hname : IsName name := hnames name List.mem_cons_self
    have hhead : ∀ c ∈ (dotted (name :: names)).head?, isBlank c = false := by
      cases names with
      | nil => exact (solid_of_isName hname).head
      | cons other names =>
        rw [dotted, List.head?_append_of_ne_nil _ hname.ne_nil]
        · exact (solid_of_isName hname).head
        · simp
    refine solid_append hhead ?_ hlast (by simp [Literal.ne_nil_of_spells htext])
    have hlength := length_le_dotted hnames
    rintro hnil
    simp [hnil] at hlength

/-! ### Looking up -/

/-- A guard decides nothing where the scope is no object; where its path leads nowhere it is false,
and otherwise it compares what is found there. -/
theorem evaluate_path (path : List String) (r : Relation) (expected : Json) (scope : Slot) :
    ((Guard.path path r expected).evaluate scope = none ↔ ∀ fields, scope ≠ some (.object fields)) ∧
    ∀ fields, scope = some (.object fields) →
      ((∀ v, ¬ Json.Leads path (.object fields) v) →
        (Guard.path path r expected).evaluate scope = some false) ∧
      ∀ v, Json.Leads path (.object fields) v →
        (Guard.path path r expected).evaluate scope = some (r.holds (some v) expected) := by
  constructor
  · constructor
    · rintro h fields rfl
      rw [evaluate] at h
      split at h <;> cases h
    · intro h
      unfold evaluate
      split
      · next heq => exact absurd rfl (h _)
      · rfl
  · rintro fields rfl
    constructor
    · intro h
      have hnowhere : (Json.object fields).follow path = none :=
        Option.eq_none_iff_forall_ne_some.mpr fun v hv => h v (Json.follow_eq_some.mp hv)
      rw [evaluate, hnowhere]
    · intro v h
      rw [evaluate, Json.follow_eq_some.mpr h]

/-- A text that is written for a guard is read as that guard, with white space around it. The guard
is indeterminate exactly on what is no object. It is false on an object in which its path leads
nowhere, and otherwise it says whether what is found there equals the literal, or differs from it. -/
theorem ofText_lookup {text a b : List Char} {path : List String} {r : Relation} {expected : Json}
    (h : Spells text (.path path r expected)) (ha : Blanks a) (hb : Blanks b) :
    ofText (String.ofList (a ++ text ++ b)) = .ok (.path path r expected) ∧
    ∀ scope : Slot,
      ((Guard.path path r expected).evaluate scope = none ↔
        ∀ fields, scope ≠ some (.object fields)) ∧
      ∀ fields, scope = some (.object fields) →
        ((∀ v, ¬ Json.Leads path (.object fields) v) →
          (Guard.path path r expected).evaluate scope = some false) ∧
        ∀ v, Json.Leads path (.object fields) v →
          (Guard.path path r expected).evaluate scope =
            some (if r = .equal then v.same expected else !v.same expected) := by
  constructor
  · rw [ofText, String.toList_ofList, trim_around ha hb (solid_of_spells h), ofTrimmed_of_spells h]
  · intro scope
    obtain ⟨hindeterminate, hobject⟩ := evaluate_path path r expected scope
    refine ⟨hindeterminate, fun fields hfields => ?_⟩
    obtain ⟨hnowhere, hfound⟩ := hobject fields hfields
    refine ⟨hnowhere, fun v hv => ?_⟩
    rw [hfound v hv]
    cases h with
    | intro hne hnames hr hw hz htext =>
      cases r with
      | equal | unequal => rfl
      | _ => exact absurd hr (by decide)

/-- A literal may hold a path and an operator of its own. -/
theorem ofText_quotedPath :
    Spells "meta.kind != 'a=b'".toList (.path ["meta", "kind"] .unequal (.string "a=b")) ∧
    Blanks [' '] ∧ Blanks ['\n'] ∧
    ofText " meta.kind != 'a=b'\n" = .ok (.path ["meta", "kind"] .unequal (.string "a=b")) ∧
    (Guard.path ["meta", "kind"] .unequal (.string "a=b")).evaluate
      (some (.object [("meta", .object [("kind", .string "c")])])) = some true := by
  have hliteral : Literal.Spells "'a=b'".toList (.string "a=b") :=
    @Literal.Spells.quoted '\'' _ _ (.inr rfl) (.plain (by decide) (.plain (by decide)
      (.plain (by decide) .nil)))
  have hspells : Spells "meta.kind != 'a=b'".toList
      (.path ["meta", "kind"] .unequal (.string "a=b")) :=
    @Spells.intro ["meta".toList, "kind".toList] .unequal [' '] [' '] "'a=b'".toList _
      (by decide) (by decide) (by decide) (by decide) (by decide) hliteral
  have hspace : Blanks [' '] := by decide
  have hend : Blanks ['\n'] := by decide
  have hwritten := ofText_lookup hspells hspace hend
  have hleads : Json.Leads ["meta", "kind"]
      (.object [("meta", .object [("kind", .string "c")])]) (.string "c") :=
    .down rfl (.down rfl (.here _))
  exact ⟨hspells, hspace, hend, hwritten.1, ((hwritten.2 _).2 _ rfl).2 _ hleads⟩

end Guard

end DocSchema
