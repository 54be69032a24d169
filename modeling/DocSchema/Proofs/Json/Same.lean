import DocSchema.Proofs.Json.Distinct
import DocSchema.Proofs.Number.Place
import Mathlib.Data.List.Forall2
import Mathlib.Data.List.Perm.Subperm

/-!
Values that are the same.

Values without repeated keys that are equal in kind and value differ in two ways only: in the order
of keys, and in the writing of numbers. `Layer` says so of one level, with a relation for the parts,
and `Alike.induction` goes through all levels. Equal values are equal to the same values
(`Alike.same_congr`), and looking up a key in both leads to equal values again (`Alike.get?`).
-/

namespace DocSchema

/-- Lists that are related one by one are so by all that follows for the members of the left one. -/
theorem forall₂_imp_of_mem {α β : Type} {R S : α → β → Prop} {l : List α} {l' : List β}
    (h : List.Forall₂ R l l') (hRS : ∀ a ∈ l, ∀ b, R a b → S a b) : List.Forall₂ S l l' :=
  ((List.forall₂_and_left _ _).mpr ⟨hRS, h⟩).imp fun _ b ⟨himp, hab⟩ => himp b hab

theorem map_eq_of_forall₂ {α β γ : Type} {R : α → β → Prop} {f : α → γ} {g : β → γ} {l : List α}
    {l' : List β} (h : List.Forall₂ R l l') (hfg : ∀ a b, R a b → f a = g b) :
    l.map f = l'.map g := by
  induction h with
  | nil => rfl
  | cons hab _ ih => rw [List.map_cons, List.map_cons, hfg _ _ hab, ih]

/-! ### Looking up in another order -/

section Lookup

variable {α : Type} {key : String} {fs gs : List (String × α)}

theorem lookup_eq_some {v : α} (hkeys : (fs.map Prod.fst).Nodup) :
    lookup key fs = some v ↔ (key, v) ∈ fs :=
  ⟨mem_of_lookup, lookup_of_mem hkeys⟩

/-- The order of fields makes no difference to lookup. -/
theorem lookup_perm (hkeys : (fs.map Prod.fst).Nodup) (hperm : fs.Perm gs) :
    lookup key fs = lookup key gs := by
  have hkeys' : (gs.map Prod.fst).Nodup := (hperm.map Prod.fst).nodup_iff.mp hkeys
  refine Option.ext fun v => ?_
  rw [lookup_eq_some hkeys, lookup_eq_some hkeys', hperm.mem_iff]

end Lookup

namespace Json

/-! ### One level of two values -/

/-- Two values agree on their outermost level: they are of one kind, texts and truth values are
equal, numbers stand at the same place, and the parts of containers are related one by one, those of
objects in some order and under equal keys. -/
inductive Layer (R : Json → Json → Prop) : Json → Json → Prop
  | null : Layer R .null .null
  | bool (b : Bool) : Layer R (.bool b) (.bool b)
  | number {m n : Number} (hplace : m.place = n.place) : Layer R (.number m) (.number n)
  | string (s : String) : Layer R (.string s) (.string s)
  | array {as bs : List Json} (hitems : List.Forall₂ R as bs) : Layer R (.array as) (.array bs)
  | object {fs gs hs : List (String × Json)} (hkeys : (fs.map Prod.fst).Nodup)
      (hfields : List.Forall₂ (fun f h => f.1 = h.1 ∧ R f.2 h.2) fs hs) (hperm : hs.Perm gs) :
      Layer R (.object fs) (.object gs)

/-- Fields that are related one by one have the same keys. -/
theorem map_fst_eq {R : Json → Json → Prop} {fs hs : List (String × Json)}
    (h : List.Forall₂ (fun f h => f.1 = h.1 ∧ R f.2 h.2) fs hs) :
    fs.map Prod.fst = hs.map Prod.fst :=
  map_eq_of_forall₂ h fun _ _ hfield => hfield.1

/-- The parts of a value are less than the value. -/
theorem Layer.imp {R S : Json → Json → Prop} {v w : Json} (h : Layer R v w)
    (hRS : ∀ a b, sizeOf a < sizeOf v → R a b → S a b) : Layer S v w := by
  cases h with
  | null => exact .null
  | bool b => exact .bool b
  | number hplace => exact .number hplace
  | string s => exact .string s
  | array hitems =>
    exact .array (forall₂_imp_of_mem hitems fun a ha b hab => hRS a b (sizeOf_lt_array ha) hab)
  | object hkeys hfields hperm =>
    refine .object hkeys (forall₂_imp_of_mem hfields fun f hf h ⟨hkey, hfh⟩ => ⟨hkey, ?_⟩) hperm
    exact hRS f.2 h.2 (sizeOf_lt_object hf) hfh

/-! ### Equal values -/

/-- Equal values, in which no object has a key twice. -/
structure Alike (v w : Json) : Prop where
  same : v.same w = true
  left : v.Distinct
  right : w.Distinct

theorem alike_items : ∀ {as bs : List Json}, sameItems as bs = true → (∀ a ∈ as, a.Distinct) →
    (∀ b ∈ bs, b.Distinct) → List.Forall₂ Alike as bs
  | [], [], _, _, _ => .nil
  | a :: as, b :: bs, h, has, hbs => by
    rw [sameItems, Bool.and_eq_true] at h
    obtain ⟨ha, has⟩ := List.forall_mem_cons.mp has
    obtain ⟨hb, hbs⟩ := List.forall_mem_cons.mp hbs
    exact .cons ⟨h.1, ha, hb⟩ (alike_items h.2 has hbs)

/-- Every field on the left has a partner on the right. -/
theorem alike_partners {gs : List (String × Json)} (hgs : ∀ g ∈ gs, g.2.Distinct) :
    ∀ {fs : List (String × Json)}, sameFields fs gs = true → (∀ f ∈ fs, f.2.Distinct) →
      ∃ hs, List.Forall₂ (fun f h => f.1 = h.1 ∧ Alike f.2 h.2) fs hs ∧ hs ⊆ gs
  | [], _, _ => ⟨[], .nil, List.nil_subset _⟩
  | (k, v) :: fs, h, hfs => by
    obtain ⟨hv, hfs⟩ := List.forall_mem_cons.mp hfs
    simp only [sameFields] at h
    split at h
    · next w hw =>
      rw [Bool.and_eq_true] at h
      have hmem : (k, w) ∈ gs := mem_of_lookup hw
      obtain ⟨hs, hfields, hsubset⟩ := alike_partners hgs h.2 hfs
      exact ⟨(k, w) :: hs, .cons ⟨rfl, h.1, hv, hgs _ hmem⟩ hfields,
        List.cons_subset.mpr ⟨hmem, hsubset⟩⟩
    · cases h

/-- Equal values agree on each level, down to equal parts. -/
theorem Alike.layer {v w : Json} (h : Alike v w) : Layer Alike v w := by
  obtain ⟨hsame, hv, hw⟩ := h
  cases v <;> cases w <;> simp only [Json.same, beq_iff_eq, Bool.and_eq_true, Bool.false_eq_true] at hsame
  case null.null => exact .null
  case bool.bool => exact hsame ▸ .bool _
  case number.number => exact .number (Number.place_eq_of_eq hsame)
  case string.string => exact hsame ▸ .string _
  case array.array => exact .array (alike_items hsame (distinct_array.mp hv) (distinct_array.mp hw))
  case object.object fs gs =>
    obtain ⟨hlength, hfields⟩ := hsame
    obtain ⟨hkeys, hvalues⟩ := distinct_object.mp hv
    obtain ⟨hs, hfields, hsubset⟩ := alike_partners (distinct_object.mp hw).2 hfields hvalues
    -- the partners are as many as the fields on the right, so they are all of them
    have hnodup : hs.Nodup := .of_map Prod.fst (map_fst_eq hfields ▸ hkeys)
    refine .object hkeys hfields ((List.subperm_of_subset hnodup hsubset).perm_of_length_le ?_)
    rw [← hfields.length_eq, hlength]

/-- What holds of two values if it holds of their parts holds of equal values. -/
theorem Alike.induction {motive : Json → Json → Prop}
    (step : ∀ v w, Layer motive v w → motive v w) {v w : Json} (h : Alike v w) : motive v w :=
  step v w (h.layer.imp fun _ _ _ hab => hab.induction step)
termination_by sizeOf v

theorem alike_string (s : String) : Alike (.string s) (.string s) :=
  ⟨by simp [Json.same], trivial, trivial⟩

/-! ### Equality with other values -/

theorem sameFields_eq_all (fs us : List (String × Json)) : sameFields fs us =
    fs.all fun f => match lookup f.1 us with
      | some u => f.2.same u
      | none => false := by
  induction fs with
  | nil => rfl
  | cons f fs ih =>
    obtain ⟨k, v⟩ := f
    rw [List.all_cons, ← ih, sameFields]
    cases lookup k us <;> rfl

/-- Equal values are equal to the same values. -/
theorem Alike.same_congr {v w : Json} (h : Alike v w) : ∀ u, v.same u = w.same u := by
  refine Alike.induction (motive := fun v w => ∀ u, v.same u = w.same u) (fun v w hlayer u => ?_) h
  cases hlayer with
  | null | bool | string => rfl
  | number hplace =>
    cases u with
    | number k => exact Number.eq_congr hplace k
    | _ => rfl
  | array hitems =>
    cases u with
    | array us =>
      simp only [Json.same]
      induction hitems generalizing us with
      | nil => rfl
      | cons hab _ ih =>
        cases us with
        | nil => rfl
        | cons u us => rw [sameItems, sameItems, hab, ih]
    | _ => rfl
  | object hkeys hfields hperm =>
    cases u with
    | object us =>
      simp only [Json.same, sameFields_eq_all]
      rw [hfields.length_eq, hperm.length_eq, ← hperm.all_eq]
      congr 1
      clear hkeys hperm
      induction hfields with
      | nil => rfl
      | cons hfield _ ih => rw [List.all_cons, List.all_cons, hfield.1, ih]; simp only [hfield.2]
    | _ => rfl

/-! ### What is under a key -/

theorem lookup_alike {R : Json → Json → Prop} {key : String} {fs hs : List (String × Json)}
    (h : List.Forall₂ (fun f h => f.1 = h.1 ∧ R f.2 h.2) fs hs) :
    Option.Rel R (lookup key fs) (lookup key hs) := by
  induction h with
  | nil => exact .none
  | @cons f h _ _ hfield _ ih =>
    obtain ⟨k, v⟩ := f
    obtain ⟨_, w⟩ := h
    obtain ⟨rfl, hvw⟩ := hfield
    simp only [lookup]
    split
    · exact .some hvw
    · exact ih

/-- In equal values there are equal values under a key, or none. -/
theorem Alike.get? {v w : Json} (h : Alike v w) (key : String) :
    Option.Rel Alike (v.get? key) (w.get? key) := by
  cases h.layer with
  | object hkeys hfields hperm =>
    have hkeys' : (List.map Prod.fst _).Nodup := map_fst_eq hfields ▸ hkeys
    simp only [Json.get?, ← lookup_perm hkeys' hperm]
    exact lookup_alike hfields
  | _ => exact .none

end Json

end DocSchema
