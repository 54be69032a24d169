import DocSchema.Proofs.Json.Canonical
import DocSchema.Proofs.Json.ReadBack

/-!
Regular values: equality is equality of canonical texts.

A value is regular if it repeats no key, contains no NaN, and writes its integers with no more digits
than are read; all that is read strictly is regular (`Json.regular_of_read`). The canonical form of a
regular value has a text that reads back, since a double that equals an integer is one of few digits
(`Number.readable_of_toInt?`). So one canonical text means one canonical form, and values with one
canonical form are equal: folding moves no number (`Json.foldWhole_number`) and sorting keeps the
fields. With the converse, which holds of all values without repeated keys, this is
`Json.same_iff_canonicalText`.
-/

namespace DocSchema

/-- A number other than NaN, with no more digits than are read if it is an integer. -/
structure Number.Regular (n : Number) : Prop where
  readable : n.Readable
  ne_nan : n ≠ .double .nan

/-- Every object has its keys once, and every number is regular. -/
structure Json.Regular (v : Json) : Prop where
  distinct : v.Distinct
  numbers : v.EachNumber Number.Regular

namespace Json.Regular

theorem item {items : List Json} (h : (array items).Regular) {v : Json} (hv : v ∈ items) :
    v.Regular :=
  ⟨distinct_array.mp h.distinct v hv, eachNumber_array.mp h.numbers v hv⟩

theorem field {fields : List (String × Json)} (h : (object fields).Regular) {f : String × Json}
    (hf : f ∈ fields) : f.2.Regular :=
  ⟨(distinct_object.mp h.distinct).2 f hf, eachNumber_object.mp h.numbers f hf⟩

/-- The integers of a regular value have no more digits than are read. -/
theorem eachReadable {v : Json} (hv : v.Regular) : v.EachNumber Number.Readable := by
  induction v using parts_induction with
  | null | bool b | string s => trivial
  | number n => exact hv.numbers.readable
  | array items ih => exact eachNumber_array.mpr fun w hw => ih w hw (hv.item hw)
  | object fields ih => exact eachNumber_object.mpr fun f hf => ih f hf (hv.field hf)

end Json.Regular

/-! ### What is read -/

theorem Double.ofDecimal_ne_nan (negative : Bool) (digits : Nat) (e : Int) :
    ofDecimal negative digits e ≠ .nan := by
  have hratio (num den : Nat) : ofRatio negative num den ≠ .nan := by
    rw [ofRatio, ofUnits]
    split <;> simp
  simp only [ofDecimal]
  split
  · simp [zero]
  split
  · simp
  · cases e <;> exact hratio _ _

namespace Reader

theorem natOf_lt {ds : List Char} (h : ∀ d ∈ ds, isDecimal d = true) : natOf ds < 10 ^ ds.length := by
  induction ds using List.reverseRecOn with
  | nil => simp [natOf]
  | append_singleton ds d ih =>
    have hdigit : isDecimal d = true := h d (by simp)
    have hlast : natOf [d] < 10 := by
      rw [isDecimal_eq, Char.isDigit_iff_toNat] at hdigit
      have hzero : '0'.toNat = 48 := rfl
      have hnine : '9'.toNat = 57 := rfl
      simp only [natOf, List.foldl_cons, List.foldl_nil, hzero]
      omega
    have hrest := ih fun c hc => h c (List.mem_append_left _ hc)
    rw [natOf_append, List.length_append, List.length_singleton, Nat.pow_one, Nat.pow_succ]
    omega

theorem wholePart_isDecimal {cs whole rest : List Char} (h : wholePart cs = some (whole, rest)) :
    ∀ d ∈ whole, isDecimal d = true := by
  unfold wholePart at h
  split at h
  · cases h
    exact isDecimal_zero
  · split at h
    · next hc =>
      cases h
      exact List.forall_mem_cons.mpr ⟨hc, List.all_eq_true.mp List.all_takeWhile⟩
    · cases h
  · cases h

theorem numberParts_isDecimal {cs rest : List Char} {p : NumberParts}
    (h : numberParts cs = some (p, rest)) : ∀ d ∈ p.whole, isDecimal d = true := by
  simp only [numberParts] at h
  split at h
  · cases h
  · next whole after hwhole =>
    have hdigits := wholePart_isDecimal hwhole
    split at h <;> cases h <;> exact hdigits

/-- The value of a literal is regular: an integer has no more digits than its literal. -/
theorem regular_value {p : NumberParts} {n : Number} (hdigits : ∀ d ∈ p.whole, isDecimal d = true)
    (h : p.value = .ok n) : n.Regular := by
  simp only [NumberParts.value] at h
  split at h
  · split at h
    · cases h
    · next hle =>
      cases h
      refine ⟨?_, by simp⟩
      have hlt : natOf p.whole < 10 ^ digitLimit :=
        Nat.lt_of_lt_of_le (natOf_lt hdigits)
          (Nat.pow_le_pow_right (by decide) (Nat.le_of_not_lt hle))
      have habs : (if p.negative then -(natOf p.whole : Int) else natOf p.whole).natAbs =
          natOf p.whole := by split <;> omega
      rw [Number.Readable, habs]
      exact (Nat.length_toDigits_le_iff (by decide) (by decide)).mpr hlt
  · cases h
    exact ⟨trivial, fun hnan => Double.ofDecimal_ne_nan _ _ _ (Number.double.inj hnan)⟩

theorem respects_regular : Respects true Json.Regular where
  scalar h := by
    obtain rfl | ⟨b, rfl⟩ | ⟨n, rfl, hnumber⟩ := readScalar_cases h
    · exact ⟨trivial, trivial⟩
    · exact ⟨trivial, trivial⟩
    · obtain ⟨p, hp, hvalue⟩ := hnumber rfl
      exact ⟨trivial, regular_value (numberParts_isDecimal hp) hvalue⟩
  string _ := ⟨trivial, trivial⟩
  array h := ⟨Json.distinct_array.mpr fun v hv => (h v hv).distinct,
    Json.eachNumber_array.mpr fun v hv => (h v hv).numbers⟩
  object hkeys h := ⟨Json.distinct_object.mpr ⟨hkeys, fun f hf => (h f hf).distinct⟩,
    Json.eachNumber_object.mpr fun f hf => (h f hf).numbers⟩

end Reader

/-- All that is read strictly is regular. -/
theorem Json.regular_of_read {text : String} {v : Json} (h : Json.read true text = .ok v) :
    v.Regular :=
  Json.of_read Reader.respects_regular h

/-! ### Canonical forms -/

/-- An integer that a double equals has few digits. -/
theorem Number.readable_of_toInt? {n : Number} {k : Int} (hn : n.Readable)
    (h : n.toInt? = some k) : (Number.int k).Readable := by
  rcases n with n | x
  · cases h
    exact hn
  · have hplace : (Number.int k).place = x.place := (Number.toInt?_eq_some.mp h).symm
    have hreach := Number.overflows_of_place_eq hplace
    rw [← Bool.not_eq_true, Number.overflows_int, Nat.not_le] at hreach
    have hcut : 400 ≤ digitLimit := by decide
    have hlimit := doubleLimit_le
    generalize 400 = cut at hcut hlimit
    refine (Nat.length_toDigits_le_iff (by decide) (by decide)).mpr ?_
    calc k.natAbs < doubleLimit := hreach
      _ ≤ 10 ^ cut := hlimit
      _ ≤ 10 ^ digitLimit := Nat.pow_le_pow_right (by decide) hcut

namespace Json

/-- Folding moves no number. -/
theorem foldWhole_number (n : Number) : ∃ m, foldWhole (.number n) = .number m ∧
    m.place = n.place ∧ (n.Readable → m.Readable) := by
  cases h : n.toInt? with
  | none => exact ⟨n, by rw [foldWhole, h], rfl, id⟩
  | some k =>
    refine ⟨.int k, by rw [foldWhole, h], ?_, fun hn => Number.readable_of_toInt? hn h⟩
    exact (Number.toInt?_eq_some.mp h).symm

theorem insertField_perm (f : String × Json) (l : List (String × Json)) :
    (insertField f l).Perm (f :: l) := by
  induction l with
  | nil => exact .refl _
  | cons g l ih =>
    rw [insertField]
    split
    · exact (ih.cons g).trans (.swap f g l)
    · exact .refl _

/-- Sorting keeps the fields. -/
theorem foldr_insertField_self (l : List (String × Json)) : (l.foldr insertField []).Perm l := by
  induction l with
  | nil => exact .refl _
  | cons f l ih => exact (insertField_perm f _).trans (ih.cons f)

/-- The canonical form of an object has the same keys, in order. -/
theorem canonical_object (fields : List (String × Json)) : ∃ gs,
    sortKeys (foldWhole (.object fields)) = .object gs ∧ gs.Perm (fields.map canonicalField) := by
  refine ⟨_, ?_, foldr_insertField_self _⟩
  rw [foldWhole, sortKeys, canonical_fields]

theorem canonical_array (items : List Json) : sortKeys (foldWhole (.array items)) =
    .array (items.map fun v => sortKeys (foldWhole v)) := by
  rw [foldWhole, sortKeys, canonical_items]

/-- The canonical form of a regular value repeats no key either, and its integers have no more digits
than are read. -/
theorem canonical_readable {v : Json} (hv : v.Regular) : (sortKeys (foldWhole v)).Distinct ∧
    (sortKeys (foldWhole v)).EachNumber Number.Readable := by
  induction v using parts_induction with
  | null | bool b | string s => exact ⟨trivial, trivial⟩
  | number n =>
    obtain ⟨m, hfold, -, hread⟩ := foldWhole_number n
    rw [hfold]
    exact ⟨trivial, hread hv.numbers.readable⟩
  | array items ih =>
    rw [canonical_array, distinct_array, eachNumber_array, List.forall_mem_map, List.forall_mem_map]
    exact ⟨fun w hw => (ih w hw (hv.item hw)).1, fun w hw => (ih w hw (hv.item hw)).2⟩
  | object fields ih =>
    obtain ⟨gs, hform, hperm⟩ := canonical_object fields
    have hgs : ∀ g ∈ gs, g.2.Distinct ∧ g.2.EachNumber Number.Readable := by
      intro g hg
      obtain ⟨f, hf, rfl⟩ := List.mem_map.mp (hperm.mem_iff.mp hg)
      exact ih f hf (hv.field hf)
    rw [hform, distinct_object, eachNumber_object, (hperm.map Prod.fst).nodup_iff, List.map_map]
    exact ⟨⟨(distinct_object.mp hv.distinct).1, fun g hg => (hgs g hg).1⟩,
      fun g hg => (hgs g hg).2⟩

/-! ### Equality and canonical texts -/

theorem kind_canonical (v : Json) : (sortKeys (foldWhole v)).kind = v.kind := by
  cases v with
  | number n =>
    obtain ⟨m, hfold, -⟩ := foldWhole_number n
    rw [hfold]
    rfl
  | _ => rfl

/-- Every number but NaN stands somewhere, so it equals what stands there. -/
theorem eq_of_place_eq {m n : Number} (hn : n ≠ .double .nan) (h : m.place = n.place) :
    m.eq n = true := by
  have hsome : ∃ p, n.place = some p := by
    rcases n with n | (_ | negative | _)
    · exact ⟨_, rfl⟩
    · exact absurd rfl hn
    · exact ⟨_, rfl⟩
    · exact ⟨_, rfl⟩
  obtain ⟨p, hp⟩ := hsome
  rw [hp] at h
  simp [Number.eq, h, hp]

theorem sameItems_of_map_eq {α : Type} {f : Json → α} : ∀ {as bs : List Json},
    as.map f = bs.map f → (∀ a ∈ as, ∀ b ∈ bs, f a = f b → a.same b = true) →
      sameItems as bs = true
  | [], [], _, _ => rfl
  | a :: as, b :: bs, h, hsame => by
    rw [List.map_cons, List.map_cons, List.cons.injEq] at h
    rw [sameItems, Bool.and_eq_true]
    refine ⟨hsame a List.mem_cons_self b List.mem_cons_self h.1, sameItems_of_map_eq h.2 ?_⟩
    intro c hc d hd
    exact hsame c (List.mem_cons_of_mem a hc) d (List.mem_cons_of_mem b hd)

/-- Objects are equal if there are as many fields, and each one on the left has an equal partner. -/
theorem same_object {fs gs : List (String × Json)} (hkeys : (gs.map Prod.fst).Nodup)
    (hlength : fs.length = gs.length)
    (h : ∀ f ∈ fs, ∃ g ∈ gs, f.1 = g.1 ∧ f.2.same g.2 = true) :
    (object fs).same (object gs) = true := by
  rw [same, Bool.and_eq_true, beq_iff_eq, sameFields_eq_all, List.all_eq_true]
  refine ⟨hlength, fun f hf => ?_⟩
  obtain ⟨g, hg, hkey, hsame⟩ := h f hf
  rw [hkey, lookup_of_mem hkeys hg]
  exact hsame

/-- Regular values with one canonical form are equal. -/
theorem same_of_canonical_eq {v w : Json} (hv : v.Regular) (hw : w.Regular)
    (h : sortKeys (foldWhole v) = sortKeys (foldWhole w)) : v.same w = true := by
  have hkind : v.kind = w.kind := by rw [← kind_canonical v, h, kind_canonical w]
  induction v using parts_induction generalizing w with
  | null =>
    cases w with
    | null => rfl
    | _ => cases hkind
  | bool b =>
    cases w with
    | bool c =>
      obtain rfl : b = c := Json.bool.inj h
      exact beq_self_eq_true b
    | _ => cases hkind
  | number m =>
    cases w with
    | number n =>
      obtain ⟨m', hm, hmplace, -⟩ := foldWhole_number m
      obtain ⟨n', hn, hnplace, -⟩ := foldWhole_number n
      rw [hm, hn] at h
      obtain rfl : m' = n' := Json.number.inj h
      exact eq_of_place_eq hw.numbers.ne_nan (hmplace.symm.trans hnplace)
    | _ => cases hkind
  | string s =>
    cases w with
    | string t =>
      obtain rfl : s = t := Json.string.inj h
      exact beq_self_eq_true s
    | _ => cases hkind
  | array as ih =>
    cases w with
    | array bs =>
      rw [canonical_array, canonical_array, array.injEq] at h
      rw [same]
      refine sameItems_of_map_eq h fun a ha b hb hab => ?_
      exact ih a ha (hv.item ha) (hw.item hb) hab (by rw [← kind_canonical, hab, kind_canonical])
    | _ => cases hkind
  | object fs ih =>
    cases w with
    | object gs =>
      obtain ⟨fs', hfs, hfsPerm⟩ := canonical_object fs
      obtain ⟨gs', hgs, hgsPerm⟩ := canonical_object gs
      rw [hfs, hgs, object.injEq] at h
      subst h
      have hperm := hfsPerm.symm.trans hgsPerm
      refine same_object (distinct_object.mp hw.distinct).1 ?_ fun f hf => ?_
      · simpa using hperm.length_eq
      · obtain ⟨g, hg, hgf⟩ := List.mem_map.mp
          (hperm.mem_iff.mp (List.mem_map_of_mem (f := canonicalField) hf))
        obtain ⟨hkey, hvalue⟩ := Prod.mk.inj hgf
        exact ⟨g, hg, hkey.symm, ih f hf (hv.field hf) (hw.field hg) hvalue.symm
          (by rw [← kind_canonical, ← hvalue, kind_canonical])⟩
    | _ => cases hkind

/-- Regular values are equal if and only if they have one canonical text. -/
theorem same_iff_canonicalText {v w : Json} (hv : v.Regular) (hw : w.Regular) :
    v.same w = true ↔ v.canonicalText = w.canonicalText := by
  constructor
  · exact fun h => Alike.canonicalText_eq ⟨h, hv.distinct, hw.distinct⟩
  · intro h
    obtain ⟨hvkeys, hvnumbers⟩ := canonical_readable hv
    obtain ⟨hwkeys, hwnumbers⟩ := canonical_readable hw
    exact same_of_canonical_eq hv hw
      (toText_injective spaced_separates hvkeys hvnumbers hwkeys hwnumbers h)

end Json

end DocSchema
