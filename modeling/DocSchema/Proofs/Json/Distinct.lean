import DocSchema.Json.Reader
import Mathlib.Data.List.Nodup

/-!
Objects without repeated keys.

In such an object the fields are exactly what can be looked up. Putting a value under a key repeats
no key (`nodup_put`), and the reader builds every object that way. `Reader.Respects` says of a
property what it takes to hold of all that is read (`Json.of_read`); to repeat no key at any depth is
such a property (`Json.distinct_of_read`).
-/

namespace DocSchema

/-! ### Lookup -/

section Lookup

variable {α : Type} {key : String} {v : α}

theorem mem_of_lookup : ∀ {l : List (String × α)}, lookup key l = some v → (key, v) ∈ l
  | [], h => by simp [lookup] at h
  | (k, a) :: l, h => by
    simp only [lookup] at h
    split at h
    · next hk =>
      obtain rfl : a = v := by simpa using h
      exact hk ▸ List.mem_cons_self
    · exact List.mem_cons_of_mem _ (mem_of_lookup h)

/-- Without repeated keys every field is found. -/
theorem lookup_of_mem : ∀ {l : List (String × α)}, (l.map Prod.fst).Nodup → (key, v) ∈ l →
    lookup key l = some v
  | (k, a) :: l, hl, h => by
    rw [List.map_cons, List.nodup_cons] at hl
    rcases List.mem_cons.mp h with h | h
    · cases h
      simp [lookup]
    · have hk : k ≠ key := fun hk => hl.1 (List.mem_map.mpr ⟨(key, v), h, hk.symm⟩)
      rw [lookup, if_neg hk]
      exact lookup_of_mem hl.2 h

theorem lookup_eq_none_of_not_mem {l : List (String × α)} (h : key ∉ l.map Prod.fst) :
    lookup key l = none := by
  cases hv : lookup key l with
  | none => rfl
  | some v => exact absurd (List.mem_map_of_mem (mem_of_lookup hv)) h

/-- Values exchanged in place are found where they were. -/
theorem lookup_map {β : Type} (k : String → α → β) (key : String) (l : List (String × α)) :
    lookup key (l.map fun f => (f.1, k f.1 f.2)) = (lookup key l).map (k key) := by
  induction l with
  | nil => rfl
  | cons f l ih =>
    simp only [List.map_cons, lookup]
    split
    · next h => rw [h]; rfl
    · exact ih

end Lookup

/-! ### Putting a value under a key -/

section Put

variable {α : Type} {key : String} {v : α}

theorem mem_put {f : String × α} : ∀ {l : List (String × α)}, f ∈ put key v l →
    f = (key, v) ∨ f ∈ l
  | [], h => .inl (by simpa [put] using h)
  | (k, a) :: l, h => by
    simp only [put] at h
    split at h
    · rcases List.mem_cons.mp h with h | h
      · exact .inl h
      · exact .inr (List.mem_cons_of_mem _ h)
    · rcases List.mem_cons.mp h with h | h
      · exact .inr (h ▸ List.mem_cons_self)
      · exact (mem_put h).imp_right (List.mem_cons_of_mem _)

/-- No key is repeated by putting a value under a key. -/
theorem nodup_put : ∀ {l : List (String × α)}, (l.map Prod.fst).Nodup →
    ((put key v l).map Prod.fst).Nodup
  | [], _ => by simp [put]
  | (k, a) :: l, h => by
    rw [List.map_cons, List.nodup_cons] at h
    simp only [put]
    split
    · next hk => rw [List.map_cons, List.nodup_cons]; exact ⟨hk ▸ h.1, h.2⟩
    · next hk =>
      rw [List.map_cons, List.nodup_cons]
      refine ⟨fun hmem => ?_, nodup_put h.2⟩
      obtain ⟨f, hf, hfst⟩ := List.mem_map.mp hmem
      rcases mem_put hf with rfl | hf
      · exact hk hfst.symm
      · exact h.1 (List.mem_map.mpr ⟨f, hf, hfst⟩)

/-- What is put under a key is found there, and nothing else changes. -/
theorem lookup_put (name : String) (l : List (String × α)) :
    lookup key (put name v l) = if name = key then some v else lookup key l := by
  induction l with
  | nil => rfl
  | cons f l ih =>
    simp only [put]
    split
    · simp only [lookup]
      split <;> simp_all
    · next hname =>
      simp only [lookup, ih]
      split
      · next hkey => rw [if_neg fun h => hname (hkey.trans h.symm)]
      · rfl

end Put

/-! ### The parts of a value -/

namespace Json

theorem sizeOf_lt_array {items : List Json} {v : Json} (h : v ∈ items) :
    sizeOf v < sizeOf (array items) := by
  have := List.sizeOf_lt_of_mem h
  simp only [array.sizeOf_spec]
  omega

theorem sizeOf_lt_object {fields : List (String × Json)} {f : String × Json} (h : f ∈ fields) :
    sizeOf f.2 < sizeOf (object fields) := by
  have := List.sizeOf_lt_of_mem h
  obtain ⟨k, v⟩ := f
  simp only [Prod.mk.sizeOf_spec, object.sizeOf_spec] at this ⊢
  omega

/-- What holds of containers if it holds of their parts, and of everything else, holds of every
value. -/
theorem parts_induction {motive : Json → Prop} (null : motive .null) (bool : ∀ b, motive (.bool b))
    (number : ∀ n, motive (.number n)) (string : ∀ s, motive (.string s))
    (array : ∀ items : List Json, (∀ v ∈ items, motive v) → motive (.array items))
    (object : ∀ fields : List (String × Json), (∀ f ∈ fields, motive f.2) →
      motive (.object fields)) : ∀ v, motive v
  | .null => null
  | .bool b => bool b
  | .number n => number n
  | .string s => string s
  | .array items => array items fun v _ =>
      parts_induction null bool number string array object v
  | .object fields => object fields fun f _ =>
      parts_induction null bool number string array object f.2
termination_by v => sizeOf v
decreasing_by
  · exact sizeOf_lt_array ‹v ∈ items›
  · exact sizeOf_lt_object ‹f ∈ fields›

theorem distinctAll_iff : ∀ {items : List Json}, DistinctAll items ↔ ∀ v ∈ items, v.Distinct
  | [] => by simp [DistinctAll]
  | v :: items => by rw [DistinctAll, distinctAll_iff, List.forall_mem_cons]

theorem distinctFields_iff : ∀ {fields : List (String × Json)},
    DistinctFields fields ↔ ∀ f ∈ fields, f.2.Distinct
  | [] => by simp [DistinctFields]
  | f :: fields => by rw [DistinctFields, distinctFields_iff, List.forall_mem_cons]

theorem distinct_array {items : List Json} :
    (Json.array items).Distinct ↔ ∀ v ∈ items, v.Distinct := by
  rw [Distinct, distinctAll_iff]

theorem distinct_object {fields : List (String × Json)} : (Json.object fields).Distinct ↔
    (fields.map Prod.fst).Nodup ∧ ∀ f ∈ fields, f.2.Distinct := by
  rw [Distinct, distinctFields_iff]

end Json

/-! ### What is read -/

namespace Reader

/-- A property of values that reading establishes: scalars and strings have it, and containers have
it if their parts do, where objects repeat no key. -/
structure Respects (strict : Bool) (P : Json → Prop) : Prop where
  scalar : ∀ {cs rest : List Char} {v : Json}, readScalar strict cs = .ok (v, rest) → P v
  string : ∀ s, P (.string s)
  array : ∀ {items : List Json}, (∀ v ∈ items, P v) → P (.array items)
  object : ∀ {fields : List (String × Json)}, (fields.map Prod.fst).Nodup →
    (∀ f ∈ fields, P f.2) → P (.object fields)

variable {strict : Bool} {P : Json → Prop}

mutual

theorem Respects.readValue (hP : Respects strict P) : ∀ {fuel : Nat} {cs rest : List Char}
    {v : Json}, Reader.readValue strict fuel cs = .ok (v, rest) → P v
  | 0, _, _, _, h => by cases h
  | fuel + 1, cs, rest, v, h => by
    simp only [Reader.readValue] at h
    split at h
    · next after =>
      cases hs : readString ('"' :: after) after with
      | error e => rw [hs] at h; cases h
      | ok s => rw [hs] at h; cases h; exact hP.string _
    · split at h
      · cases h; exact hP.array (by simp)
      · exact hP.readItems (by simp) h
    · split at h
      · cases h; exact hP.object List.nodup_nil (by simp)
      · exact hP.readFields (by simp) (by simp) h
    · exact hP.scalar h

theorem Respects.readItems (hP : Respects strict P) : ∀ {fuel : Nat} {done : List Json}
    {cs rest : List Char} {v : Json}, (∀ w ∈ done, P w) →
    Reader.readItems strict fuel done cs = .ok (v, rest) → P v
  | 0, _, _, _, _, _, h => by cases h
  | fuel + 1, done, cs, rest, v, hdone, h => by
    simp only [Reader.readItems] at h
    split at h
    · cases h
    · next w after hw =>
      have hmore : ∀ u ∈ w :: done, P u := List.forall_mem_cons.mpr ⟨hP.readValue hw, hdone⟩
      split at h
      · cases h
        exact hP.array fun u hu => hmore u (List.mem_reverse.mp hu)
      · exact hP.readItems hmore h
      · cases h

theorem Respects.readFields (hP : Respects strict P) : ∀ {fuel : Nat}
    {done : List (String × Json)} {cs rest : List Char} {v : Json}, (done.map Prod.fst).Nodup →
    (∀ f ∈ done, P f.2) → Reader.readFields strict fuel done cs = .ok (v, rest) → P v
  | 0, _, _, _, _, _, _, h => by cases h
  | fuel + 1, done, cs, rest, v, hkeys, hvalues, h => by
    simp only [Reader.readFields] at h
    split at h
    · split at h
      · cases h
      · next key _ _ =>
        split at h
        · split at h
          · cases h
          · next w _ hw =>
            have hmore : ∀ f ∈ put key w done, P f.2 := fun f hf => by
              rcases mem_put hf with rfl | hf
              · exact hP.readValue hw
              · exact hvalues f hf
            split at h
            · cases h
              exact hP.object (nodup_put hkeys) hmore
            · exact hP.readFields (nodup_put hkeys) hmore h
            · cases h
        · cases h
    · cases h

end

/-- A scalar that is read is null, a truth value, or a number, and the text of the number is a
literal if the reader is strict. -/
theorem readScalar_cases {cs rest : List Char} {v : Json}
    (h : readScalar strict cs = .ok (v, rest)) : v = .null ∨ (∃ b, v = .bool b) ∨
      ∃ n, v = .number n ∧ (strict = true →
        ∃ parts, numberParts cs = some (parts, rest) ∧ parts.value = .ok n) := by
  have hconstant {name : String} {x : Double} {after : List Char}
      (h : constant strict name x after = .ok (v, rest)) :
      ∃ n, v = .number n ∧ (strict = true →
        ∃ parts, numberParts cs = some (parts, rest) ∧ parts.value = .ok n) := by
    simp only [constant] at h
    split at h
    · cases h
    · next hstrict => cases h; exact ⟨_, rfl, fun h => absurd h hstrict⟩
  unfold readScalar at h
  split at h
  · cases h; exact .inl rfl
  · cases h; exact .inr (.inl ⟨true, rfl⟩)
  · cases h; exact .inr (.inl ⟨false, rfl⟩)
  · exact .inr (.inr (hconstant h))
  · exact .inr (.inr (hconstant h))
  · exact .inr (.inr (hconstant h))
  · split at h
    · cases h
    · next parts _ hparts =>
      cases hn : parts.value with
      | error e => rw [hn] at h; cases h
      | ok n => rw [hn] at h; cases h; exact .inr (.inr ⟨n, rfl, fun _ => ⟨parts, hparts, hn⟩⟩)

theorem respects_distinct (strict : Bool) : Respects strict Json.Distinct where
  scalar h := by obtain rfl | ⟨_, rfl⟩ | ⟨_, rfl, -⟩ := readScalar_cases h <;> trivial
  string _ := trivial
  array h := Json.distinct_array.mpr h
  object hkeys hfields := Json.distinct_object.mpr ⟨hkeys, hfields⟩

end Reader

namespace Json

variable {strict : Bool} {text : String} {v : Json}

/-- A value that is read has every property that reading establishes. -/
theorem of_read {P : Json → Prop} (hP : Reader.Respects strict P)
    (h : Json.read strict text = .ok v) : P v := by
  have hall : Reader.readAll strict text.toList = .ok v := by
    simp only [Json.read] at h
    cases hr : Reader.readAll strict text.toList with
    | error e => rw [hr] at h; cases h
    | ok w => rw [hr] at h; cases h; rfl
  simp only [Reader.readAll] at hall
  split at hall
  · cases hall
  · split at hall
    · cases hall
    · next hv =>
      split at hall
      · cases hall
        exact hP.readValue hv
      · cases hall

/-- No value that is read repeats a key. -/
theorem distinct_of_read (h : Json.read strict text = .ok v) : v.Distinct :=
  of_read (Reader.respects_distinct strict) h

end Json

end DocSchema
