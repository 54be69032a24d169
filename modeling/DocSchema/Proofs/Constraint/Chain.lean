import DocSchema.Proofs.Constraint.Search
import DocSchema.Proofs.Json.Distinct
import DocSchema.Proofs.Schema.Form

/-!
The chain of plain references, and the first validator on it.

From a type the search goes on to the type that it plainly refers to, and so on along a chain that may
end, or come back to a name it has been at. `lookFrom` is the search that remembers its names and
ends where it comes back to one; it ends since every name it goes on from is that of a type not seen
before. What it has seen is the part of the chain without a validator (`Passed`), so its answer is the
first validator on the whole chain, and the fuel of the search is never missed. Main statement:
`validator?_first`. Its tables repeat no key if the schema that they are read from repeats none
(`tablesDistinct_of_read`).
-/

namespace DocSchema

/-! ### Tables written over one another -/

section Overlay

variable {α : Type} {key name : String} {v : α}

/-- The entries of a table written over those of another one. -/
def overlay (base table : List (String × α)) : List (String × α) :=
  table.foldl (fun l e => put e.1 e.2 l) base

theorem lookup_overlay {base table : List (String × α)} (h : (table.map Prod.fst).Nodup) :
    lookup key (overlay base table) = (lookup key table).or (lookup key base) := by
  induction table generalizing base with
  | nil => rfl
  | cons e table ih =>
    rw [List.map_cons, List.nodup_cons] at h
    have hrest : lookup key (overlay base (e :: table)) =
        (lookup key table).or (lookup key (put e.1 e.2 base)) := ih h.2
    rw [hrest, lookup_put]
    simp only [lookup]
    split
    · next hkey => rw [lookup_eq_none_of_not_mem (hkey ▸ h.1)]; rfl
    · rfl

end Overlay

namespace Catalog

variable {c : Catalog} {name start t u : String} {seen : List String} {v : ValidatorEntry}

/-- The builtin constraints, as tables of validators by target. -/
def builtinTables : List (String × List (String × ValidatorEntry)) :=
  BuiltinConstraint.catalog.map fun t => (t.1, t.2.map fun e => (e.1, .builtin e.2))

/-- A table of custom validators written over the one that a target has already. -/
def addTable (tables : List (String × List (String × ValidatorEntry)))
    (t : String × List (String × CustomValidator)) : List (String × List (String × ValidatorEntry)) :=
  put t.1 (overlay ((lookup t.1 tables).getD []) (t.2.map fun e => (e.1, .custom e.2))) tables

/-- The validators of a schema written over the builtin ones, target by target. -/
def merged (c : Catalog) : List (String × List (String × ValidatorEntry)) :=
  c.validators.foldl addTable builtinTables

/-- No target has two tables, and no table two entries of one name. -/
def TablesDistinct (c : Catalog) : Prop :=
  (c.validators.map Prod.fst).Nodup ∧ ∀ t ∈ c.validators, (t.2.map Prod.fst).Nodup

theorem keys_of_readTable {target : String} {table : List (String × Json)}
    {validators : List (String × CustomValidator)} (h : readTable target table = .ok validators) :
    validators.map Prod.fst = table.map Prod.fst := by
  induction table generalizing validators with
  | nil => cases h; rfl
  | cons e table ih =>
    obtain ⟨x, -, h⟩ := bind_eq_ok.mp h
    obtain ⟨xs, hxs, h⟩ := bind_eq_ok.mp h
    cases h
    rw [List.map_cons, List.map_cons, ih hxs]

/-- Tables are read under the keys that they have. -/
theorem keys_of_readTables {fields : List (String × Json)}
    {tables : List (String × List (String × CustomValidator))} (h : readTables fields = .ok tables) :
    tables.map Prod.fst = fields.map Prod.fst ∧
    ∀ t ∈ tables, ∃ table, (t.1, .object table) ∈ fields ∧ t.2.map Prod.fst = table.map Prod.fst := by
  induction fields generalizing tables with
  | nil => cases h; exact ⟨rfl, fun t ht => nomatch ht⟩
  | cons f fields ih =>
    obtain ⟨target, v⟩ := f
    cases v with
    | object table =>
      obtain ⟨x, hx, h⟩ := bind_eq_ok.mp h
      obtain ⟨xs, hxs, h⟩ := bind_eq_ok.mp h
      cases h
      obtain ⟨hkeys, htables⟩ := ih hxs
      refine ⟨by rw [List.map_cons, List.map_cons, hkeys], List.forall_mem_cons.mpr ⟨?_, ?_⟩⟩
      · exact ⟨table, List.mem_cons_self, keys_of_readTable hx⟩
      · intro t ht
        obtain ⟨table, hmem, hkeys⟩ := htables t ht
        exact ⟨table, List.mem_cons_of_mem _ hmem, hkeys⟩
    | _ => cases h

/-- The tables of a schema that repeats no key are distinct. -/
theorem tablesDistinct_of_read {v : Json} (hv : v.Distinct) (h : read v = .ok c) :
    c.TablesDistinct := by
  cases v with
  | object fields =>
    obtain ⟨types, -, h⟩ := bind_eq_ok.mp h
    obtain ⟨tables, htables, h⟩ := bind_eq_ok.mp h
    have hc : c.validators = tables := by
      split at h <;> cases h
      rfl
    obtain ⟨entries, hentries, hread⟩ := bind_eq_ok.mp htables
    obtain ⟨hkeys, hinner⟩ := keys_of_readTables hread
    have hdistinct : (Json.object entries).Distinct := by
      rw [tableUnder] at hentries
      split at hentries
      · cases hentries
        exact Json.distinct_object.mpr ⟨List.nodup_nil, fun f hf => nomatch hf⟩
      · next table htable =>
        cases hentries
        exact (Json.distinct_object.mp hv).2 _ (mem_of_lookup htable)
      · cases hentries
    obtain ⟨hnodup, hparts⟩ := Json.distinct_object.mp hdistinct
    rw [TablesDistinct, hc]
    refine ⟨hkeys ▸ hnodup, fun t ht => ?_⟩
    obtain ⟨table, hmem, hsame⟩ := hinner t ht
    exact hsame ▸ (Json.distinct_object.mp (hparts _ hmem)).1
  | _ => cases h

theorem find_addTable {tables : List (String × List (String × ValidatorEntry))}
    {table : String × List (String × CustomValidator)} (h : (table.2.map Prod.fst).Nodup) :
    (lookup t (addTable tables table)).bind (lookup name) =
      if table.1 = t then
        ((lookup name table.2).map .custom).or ((lookup t tables).bind (lookup name))
      else (lookup t tables).bind (lookup name) := by
  rw [addTable, lookup_put]
  split
  · next ht =>
    have hkeys : ((table.2.map fun e => (e.1, ValidatorEntry.custom e.2)).map Prod.fst).Nodup := by
      rwa [List.map_map]
    rw [Option.bind_some, lookup_overlay hkeys, lookup_map fun _ => ValidatorEntry.custom, ht]
    cases lookup t tables <;> rfl
  · rfl

/-- In the tables of a schema written over others, an entry of the schema comes before the one it is
written over, and no other entry is lost. -/
theorem find_foldl_addTable {tables : List (String × List (String × ValidatorEntry))}
    {added : List (String × List (String × CustomValidator))} (hkeys : (added.map Prod.fst).Nodup)
    (htables : ∀ t ∈ added, (t.2.map Prod.fst).Nodup) :
    (lookup t (added.foldl addTable tables)).bind (lookup name) =
      (((lookup t added).bind (lookup name)).map .custom).or
        ((lookup t tables).bind (lookup name)) := by
  induction added generalizing tables with
  | nil => rfl
  | cons table added ih =>
    rw [List.map_cons, List.nodup_cons] at hkeys
    rw [List.forall_mem_cons] at htables
    rw [List.foldl_cons, ih hkeys.2 htables.2, find_addTable htables.1]
    simp only [lookup]
    split
    · next ht => rw [lookup_eq_none_of_not_mem (ht ▸ hkeys.1)]; rfl
    · rfl

/-- What is registered for a target and a name is what the merged tables hold. -/
theorem find_merged (h : c.TablesDistinct) :
    (lookup t c.merged).bind (lookup name) = c.registered? t name := by
  have hbuiltin : (lookup t builtinTables).bind (lookup name) =
      (BuiltinConstraint.find? t name).map .builtin := by
    rw [builtinTables, lookup_map fun _ (table : List (String × BuiltinConstraint)) =>
      table.map fun e => (e.1, ValidatorEntry.builtin e.2), BuiltinConstraint.find?]
    cases lookup t BuiltinConstraint.catalog with
    | none => rfl
    | some table => exact lookup_map (fun _ => ValidatorEntry.builtin) name table
  rw [merged, find_foldl_addTable h.1 h.2, hbuiltin, registered?]
  cases (lookup t c.validators).bind (lookup name) <;> rfl

/-! ### The chain -/

/-- Every plain reference is by a text. -/
def RefersByText (c : Catalog) : Prop := ∀ t v, c.aliasOf? t = some v → ∃ u, v = .string u

/-- The name that the type of a name plainly refers to. -/
def target? (c : Catalog) (t : String) : Option String := (c.aliasOf? t).bind Json.string?

/-- The name that `k` plain references lead to. -/
def chain (c : Catalog) (start : String) : Nat → Option String
  | 0 => some start
  | k + 1 => (c.chain start k).bind c.target?

/-- The validator that is registered for the constraint `k` references away. -/
def hit? (c : Catalog) (name start : String) (k : Nat) : Option ValidatorEntry :=
  (c.chain start k).bind fun t => c.registered? t name

/-- The validator is registered `k` references away, and none is registered before. -/
def FirstAt (c : Catalog) (name start : String) (k : Nat) (v : ValidatorEntry) : Prop :=
  c.hit? name start k = some v ∧ ∀ j < k, c.hit? name start j = none

theorem chain_add (j k : Nat) :
    c.chain start (j + k) = (c.chain start j).bind fun t => c.chain t k := by
  induction k with
  | zero => simp [chain]
  | succ k ih =>
    rw [← Nat.add_assoc, chain, ih]
    cases c.chain start j <;> rfl

theorem hit?_add {j : Nat} (h : c.chain start j = some t) (k : Nat) :
    c.hit? name start (j + k) = c.hit? name t k := by
  rw [hit?, chain_add, h]
  rfl

theorem hit?_succ (hu : c.target? t = some u) (k : Nat) :
    c.hit? name t (k + 1) = c.hit? name u k := by
  have hchain : c.chain t 1 = some u := hu
  rw [Nat.add_comm, hit?_add hchain]

/-- Where anything is registered along the chain, something is registered first. -/
theorem exists_firstAt {k : Nat} (h : c.hit? name start k = some v) :
    ∃ j w, c.FirstAt name start j w := by
  induction k using Nat.strongRecOn generalizing v with
  | ind k ih =>
    by_cases hbefore : ∀ j < k, c.hit? name start j = none
    · exact ⟨k, v, h, hbefore⟩
    · push Not at hbefore
      obtain ⟨j, hj, hhit⟩ := hbefore
      obtain ⟨w, hw⟩ := Option.ne_none_iff_exists'.mp hhit
      exact ih j hj hw

theorem FirstAt.unique {w : ValidatorEntry} {j k : Nat} (hv : c.FirstAt name start j v)
    (hw : c.FirstAt name start k w) : v = w := by
  obtain rfl : j = k := by
    rcases Nat.lt_trichotomy j k with h | h | h
    · have := hw.2 j h; rw [hv.1] at this; cases this
    · exact h
    · have := hv.2 k h; rw [hw.1] at this; cases this
  exact Option.some.inj (hv.1.symm.trans hw.1)

/-! ### The search that remembers its names -/

/-- How many types have a name that was not seen. -/
def unseen (c : Catalog) (seen : List String) : Nat := (c.types.filter fun t => t.1 ∉ seen).length

theorem unseen_cons_lt (ht : t ∉ seen) (hu : c.target? t = some u) :
    c.unseen (t :: seen) < c.unseen seen := by
  obtain ⟨next, hnext, -⟩ := Option.bind_eq_some_iff.mp hu
  obtain ⟨n, hn, -⟩ := Option.bind_eq_some_iff.mp hnext
  have hmem : (t, n) ∈ c.types.filter fun t => t.1 ∉ seen := by
    simpa [ht] using mem_of_lookup hn
  have hfilter : (c.types.filter fun s => s.1 ∉ t :: seen) =
      (c.types.filter fun s => s.1 ∉ seen).filter fun s => s.1 ≠ t := by
    rw [List.filter_filter]
    congr 1
    funext s
    simp
  rw [unseen, unseen, hfilter, List.length_filter_lt_length_iff_exists]
  exact ⟨_, hmem, by simp⟩

/-- The search that remembers the names at which it has been, and ends where it comes back to one. -/
def lookFrom (c : Catalog) (name : String) (seen : List String) (t : String) :
    Option ValidatorEntry :=
  if _ht : t ∈ seen then none
  else
    match c.registered? t name with
    | some v => some v
    | none =>
      match _hu : c.target? t with
      | some u => c.lookFrom name (t :: seen) u
      | none => none
termination_by c.unseen seen
decreasing_by exact unseen_cons_lt _ht _hu

/-- The search has come along the chain to the name `t`, `k` references away, and found nothing: the
names it has seen are those before. -/
structure Passed (c : Catalog) (name start : String) (seen : List String) (t : String) (k : Nat) :
    Prop where
  here : c.chain start k = some t
  seen_iff : ∀ u, u ∈ seen ↔ ∃ j < k, c.chain start j = some u
  missed : ∀ j < k, c.hit? name start j = none

namespace Passed

variable {k : Nat}

theorem first : c.Passed name start [] start 0 := ⟨rfl, by simp, by simp⟩

theorem hit? (h : c.Passed name start seen t k) :
    c.hit? name start k = c.registered? t name := by
  rw [Catalog.hit?, h.here]
  rfl

theorem missed_succ (h : c.Passed name start seen t k) (hnone : c.registered? t name = none) :
    ∀ j < k + 1, c.hit? name start j = none := by
  intro j hj
  rcases Nat.lt_succ_iff_lt_or_eq.mp hj with hj | rfl
  · exact h.missed j hj
  · rw [h.hit?, hnone]

theorem next (h : c.Passed name start seen t k) (hnone : c.registered? t name = none)
    (hu : c.target? t = some u) : c.Passed name start (t :: seen) u (k + 1) where
  here := by rw [chain, h.here]; exact hu
  seen_iff w := by
    rw [List.mem_cons, h.seen_iff]
    constructor
    · rintro (rfl | ⟨j, hj, hw⟩)
      · exact ⟨k, Nat.lt_succ_self k, h.here⟩
      · exact ⟨j, Nat.lt_succ_of_lt hj, hw⟩
    · rintro ⟨j, hj, hw⟩
      rcases Nat.lt_succ_iff_lt_or_eq.mp hj with hj | rfl
      · exact .inr ⟨j, hj, hw⟩
      · exact .inl (Option.some.inj (hw.symm.trans h.here))
  missed := h.missed_succ hnone

/-- Where the search comes back to a name, there is nothing on the whole chain. -/
theorem none_of_mem (h : c.Passed name start seen t k) (ht : t ∈ seen) :
    ∀ m, c.hit? name start m = none := by
  obtain ⟨j, hj, hback⟩ := (h.seen_iff t).mp ht
  -- from the second visit on, each name stands `k - j` references before as well
  intro m
  induction m using Nat.strongRecOn with
  | ind m ih =>
    rcases Nat.lt_or_ge m k with hm | hm
    · exact h.missed m hm
    · obtain ⟨i, rfl⟩ := Nat.exists_eq_add_of_le hm
      rw [hit?_add h.here, ← hit?_add hback]
      exact ih (j + i) (by omega)

/-- Where the chain ends and nothing was found, there is nothing on it. -/
theorem none_of_end (h : c.Passed name start seen t k) (hnone : c.registered? t name = none)
    (hend : c.target? t = none) : ∀ m, c.hit? name start m = none := by
  intro m
  rcases Nat.lt_or_ge m (k + 1) with hm | hm
  · exact h.missed_succ hnone m hm
  · obtain ⟨i, rfl⟩ := Nat.exists_eq_add_of_le hm
    have hstop : c.chain start (k + 1) = none := by rw [chain, h.here]; exact hend
    rw [Catalog.hit?, chain_add, hstop]
    rfl

end Passed

/-- The search that remembers its names finds the first validator on the chain. -/
theorem lookFrom_eq_some {k : Nat} (h : c.Passed name start seen t k) :
    c.lookFrom name seen t = some v ↔ ∃ j, c.FirstAt name start j v := by
  fun_induction lookFrom c name seen t generalizing k with
  | case1 seen t ht =>
    have hnone := h.none_of_mem ht
    simp [FirstAt, hnone]
  | case2 seen t ht w hw =>
    have hfirst : c.FirstAt name start k w := ⟨h.hit?.trans hw, h.missed⟩
    constructor
    · rintro ⟨⟩
      exact ⟨k, hfirst⟩
    · rintro ⟨j, hj⟩
      rw [hfirst.unique hj]
  | case3 seen t ht hnone u hu ih => exact ih (h.next hnone hu)
  | case4 seen t ht hnone hend =>
    have hnone := h.none_of_end hnone hend
    simp [FirstAt, hnone]

/-! ### The search with fuel -/

/-- One step of the search where references are by text. -/
theorem search_text (hc : c.RefersByText) (fuel : Nat) (t : String) :
    c.search (.string name) (fuel + 1) (.string t) =
      match c.registered? t name with
      | some v => .ok (some v)
      | none =>
        match c.target? t with
        | some u => c.search (.string name) fuel (.string u)
        | none => .ok none := by
  simp only [search, target?]
  cases c.registered? t name with
  | some v => rfl
  | none =>
    cases hnext : c.aliasOf? t with
    | none => rfl
    | some next =>
      obtain ⟨u, rfl⟩ := hc t next hnext
      rfl

theorem search_eq_none (hc : c.RefersByText) (fuel : Nat) {t : String}
    (h : ∀ k, c.hit? name t k = none) : c.search (.string name) fuel (.string t) = .ok none := by
  induction fuel generalizing t with
  | zero => rfl
  | succ fuel ih =>
    have hhere : c.registered? t name = none := h 0
    rw [search_text hc, hhere]
    cases hu : c.target? t with
    | none => rfl
    | some u =>
      refine ih fun k => ?_
      rw [← hit?_succ hu, h]

/-- Fuel for one name more than there are types not seen is enough. -/
theorem search_eq_lookFrom (hc : c.RefersByText) {k fuel : Nat} (h : c.Passed name start seen t k)
    (hfuel : c.unseen seen < fuel) :
    c.search (.string name) fuel (.string t) = .ok (c.lookFrom name seen t) := by
  fun_induction lookFrom c name seen t generalizing k fuel with
  | case1 seen t ht =>
    refine search_eq_none hc fuel fun i => ?_
    rw [← hit?_add h.here]
    exact h.none_of_mem ht _
  | case2 seen t ht w hw =>
    obtain ⟨fuel, rfl⟩ := Nat.exists_eq_succ_of_ne_zero (Nat.ne_zero_of_lt hfuel)
    rw [search_text hc, hw]
  | case3 seen t ht hnone u hu ih =>
    obtain ⟨fuel, rfl⟩ := Nat.exists_eq_succ_of_ne_zero (Nat.ne_zero_of_lt hfuel)
    rw [search_text hc, hnone, hu]
    exact ih (h.next hnone hu)
      (Nat.lt_of_lt_of_le (unseen_cons_lt ht hu) (Nat.le_of_lt_succ hfuel))
  | case4 seen t ht hnone hend =>
    obtain ⟨fuel, rfl⟩ := Nat.exists_eq_succ_of_ne_zero (Nat.ne_zero_of_lt hfuel)
    rw [search_text hc, hnone, hend]

theorem validator?_eq_lookFrom (hc : c.RefersByText) (t name : String) :
    c.validator? (.string t) (.string name) = .ok (c.lookFrom name [] t) :=
  search_eq_lookFrom hc Passed.first (Nat.lt_succ_of_le (List.length_filter_le _ _))

/-- A search that finds nothing at a name comes to what the search from the next name comes to. -/
theorem lookFrom_target (hnone : c.registered? t name = none) (hu : c.target? t = some u) :
    c.lookFrom name [] t = c.lookFrom name [] u := by
  have hzero : c.hit? name t 0 = none := hnone
  refine Option.ext fun v => ?_
  rw [lookFrom_eq_some .first, lookFrom_eq_some .first]
  constructor
  · rintro ⟨k, hk, hbefore⟩
    cases k with
    | zero => rw [hzero] at hk; cases hk
    | succ k =>
      refine ⟨k, (hit?_succ hu k).symm.trans hk, fun j hj => ?_⟩
      rw [← hit?_succ hu]
      exact hbefore _ (Nat.succ_lt_succ hj)
  · rintro ⟨k, hk, hbefore⟩
    refine ⟨k + 1, (hit?_succ hu k).trans hk, fun j hj => ?_⟩
    cases j with
    | zero => exact hzero
    | succ j => exact (hit?_succ hu j).trans (hbefore j (Nat.lt_of_succ_lt_succ hj))

/-- The lookup of a constraint from a type ends, as the search that remembers its names does, with the
first validator on the chain of plain references, and with none exactly if there is none on the whole
chain, whether the chain ends or comes back. So a type without the constraint has what the type has
that it refers to. At each name a validator of the schema comes before the builtin one of the same
target and constraint, and every other builtin one is still there. -/
theorem validator?_first (hc : c.RefersByText) (htables : c.TablesDistinct) (t name : String) :
    c.validator? (.string t) (.string name) = .ok (c.lookFrom name [] t) ∧
    (∀ v, c.validator? (.string t) (.string name) = .ok (some v) ↔ ∃ k, c.FirstAt name t k v) ∧
    (c.validator? (.string t) (.string name) = .ok none ↔ ∀ k, c.hit? name t k = none) ∧
    (∀ u, c.registered? t name = none → c.target? t = some u →
      c.validator? (.string t) (.string name) = c.validator? (.string u) (.string name)) ∧
    (lookup t c.merged).bind (lookup name) = c.registered? t name ∧
    (∀ v, (lookup t c.validators).bind (lookup name) = some v →
      c.registered? t name = some (.custom v)) ∧
    ((lookup t c.validators).bind (lookup name) = none →
      c.registered? t name = (BuiltinConstraint.find? t name).map .builtin) := by
  have hlook (v : ValidatorEntry) : c.lookFrom name [] t = some v ↔ ∃ k, c.FirstAt name t k v :=
    lookFrom_eq_some .first
  simp only [validator?_eq_lookFrom hc, Except.ok.injEq]
  refine ⟨trivial, hlook, ⟨fun hnone k => ?_, fun hnone => ?_⟩, fun u => lookFrom_target,
    find_merged htables, fun v hv => ?_, fun hv => ?_⟩
  · cases hhit : c.hit? name t k with
    | none => rfl
    | some v =>
      obtain ⟨j, w, hw⟩ := exists_firstAt hhit
      rw [(hlook w).mpr ⟨j, hw⟩] at hnone
      cases hnone
  · cases hfound : c.lookFrom name [] t with
    | none => rfl
    | some v =>
      obtain ⟨k, hk, -⟩ := (hlook v).mp hfound
      rw [hnone k] at hk
      cases hk
  · rw [registered?, hv]
  · rw [registered?, hv]

/-- A validator without parameters that accepts one text. -/
def onlyText (text : String) : CustomValidator :=
  ⟨"this = '" ++ text ++ "'", [], .comparison ⟨.equal, .value (.string text)⟩⟩

/-- Slugs are names, and names and labels are one another. A code is a text. -/
def namesAndLabels : Catalog where
  version := .string supportedVersion
  root := .null
  types := [
    ("Slug", .named (.string "Name") []),
    ("Name", .nullableNamed (.string "Label")),
    ("Label", .named (.string "Name") []),
    ("Code", .named (.string "String") [])]
  validators := [("Label", [("plain", onlyText "a")]), ("String", [("min", onlyText "b")])]

/-- What labels have is found from slugs, what they do not have is not found although the references
go round, and of the builtin constraints of texts only the one that is defined anew is replaced. -/
theorem validator?_namesAndLabels :
    namesAndLabels.RefersByText ∧ namesAndLabels.TablesDistinct ∧
    namesAndLabels.validator? (.string "Slug") (.string "plain") =
      .ok (some (.custom (onlyText "a"))) ∧
    namesAndLabels.validator? (.string "Slug") (.string "min") = .ok none ∧
    namesAndLabels.validator? (.string "Code") (.string "min") =
      .ok (some (.custom (onlyText "b"))) ∧
    namesAndLabels.validator? (.string "Code") (.string "max") =
      .ok (some (.builtin (.atMost .text))) := by
  have hrefers : namesAndLabels.RefersByText := by
    intro t v h
    simp only [aliasOf?, namesAndLabels, lookup] at h
    split at h
    · exact ⟨_, (Option.some.inj h).symm⟩
    split at h
    · exact ⟨_, (Option.some.inj h).symm⟩
    split at h
    · exact ⟨_, (Option.some.inj h).symm⟩
    split at h
    · exact ⟨_, (Option.some.inj h).symm⟩
    · cases h
  have htables : namesAndLabels.TablesDistinct := by
    simp [TablesDistinct, namesAndLabels]
  have around : namesAndLabels.Passed "min" "Slug" ["Label", "Name", "Slug"] "Name" 3 :=
    .next (.next (.next .first rfl rfl) rfl rfl) rfl rfl
  have first (t name : String) := validator?_first hrefers htables t name
  refine ⟨hrefers, htables, ((first "Slug" "plain").2.1 _).mpr ⟨2, rfl, ?_⟩,
    (first "Slug" "min").2.2.1.mpr (around.none_of_mem (by simp)),
    ((first "Code" "min").2.1 _).mpr ⟨1, rfl, ?_⟩, ((first "Code" "max").2.1 _).mpr ⟨1, rfl, ?_⟩⟩
  · rintro (_ | _ | j) hj
    · rfl
    · rfl
    · omega
  · rintro (_ | j) hj
    · rfl
    · omega
  · rintro (_ | j) hj
    · rfl
    · omega

end Catalog

end DocSchema
