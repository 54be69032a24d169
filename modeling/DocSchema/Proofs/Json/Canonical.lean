import DocSchema.Json.Canonical
import DocSchema.Proofs.Json.Same
import Mathlib.Data.String.Basic

/-!
Equal values have one canonical text.

Fields are sorted by inserting them one after the other. Fields with different keys can be inserted
in any order (`insertField_comm`), so the order in which the keys of an object came is forgotten.
-/

namespace DocSchema.Json

/-- The order in which two fields with different keys are inserted makes no difference. -/
theorem insertField_comm {f g : String × Json} (h : f.1 ≠ g.1) (l : List (String × Json)) :
    insertField f (insertField g l) = insertField g (insertField f l) := by
  induction l with
  | nil =>
    rcases lt_or_gt_of_ne h with hlt | hlt
    · simp [insertField, hlt, not_lt_of_gt hlt]
    · simp [insertField, hlt, not_lt_of_gt hlt]
  | cons e l ih =>
    by_cases hf : e.1 < f.1 <;> by_cases hg : e.1 < g.1
    · simp [insertField, hf, hg, ih]
    · -- the second field comes before both
      have hgf : g.1 < f.1 := lt_of_le_of_lt (not_lt.mp hg) hf
      simp [insertField, hf, hg, hgf]
    · have hfg : f.1 < g.1 := lt_of_le_of_lt (not_lt.mp hf) hg
      simp [insertField, hf, hg, hfg]
    · rcases lt_or_gt_of_ne h with hlt | hlt
      · simp [insertField, hf, hg, hlt, not_lt_of_gt hlt]
      · simp [insertField, hf, hg, hlt, not_lt_of_gt hlt]

/-- A field with its value in canonical form. -/
def canonicalField (f : String × Json) : String × Json := (f.1, sortKeys (foldWhole f.2))

theorem canonical_items (items : List Json) :
    sortKeysItems (foldWholeItems items) = items.map fun v => sortKeys (foldWhole v) := by
  induction items with
  | nil => rfl
  | cons v items ih => rw [foldWholeItems, sortKeysItems, ih, List.map_cons]

theorem canonical_fields (fields : List (String × Json)) :
    sortKeysFields (foldWholeFields fields) =
      (fields.map canonicalField).foldr insertField [] := by
  induction fields with
  | nil => rfl
  | cons f fields ih => rw [foldWholeFields, sortKeysFields, ih]; rfl

/-- The order of fields with different keys is forgotten. -/
theorem foldr_insertField_perm {fs gs : List (String × Json)} (hkeys : (fs.map Prod.fst).Nodup)
    (hperm : fs.Perm gs) : fs.foldr insertField [] = gs.foldr insertField [] := by
  refine hperm.foldr_eq' (fun f hf g hg l => ?_) []
  by_cases hkey : f.1 = g.1
  · rw [List.inj_on_of_nodup_map hkeys hf hg hkey]
  · exact insertField_comm (Ne.symm hkey) l

/-- Equal values have the same canonical form. -/
theorem Alike.canonical_eq {v w : Json} (h : Alike v w) :
    sortKeys (foldWhole v) = sortKeys (foldWhole w) := by
  refine Alike.induction (motive := fun v w => sortKeys (foldWhole v) = sortKeys (foldWhole w))
    (fun v w hlayer => ?_) h
  cases hlayer with
  | null | bool | string => rfl
  | @number m n hplace =>
    cases hm : m.toInt? with
    | none => rw [Number.eq_of_toInt?_eq_none hplace hm]
    | some k => simp only [foldWhole, ← Number.toInt?_congr hplace, hm]
  | array hitems =>
    simp only [foldWhole, sortKeys, canonical_items, array.injEq]
    exact map_eq_of_forall₂ hitems fun _ _ hab => hab
  | @object fs gs hs hkeys hfields hperm =>
    have hsame : fs.map canonicalField = hs.map canonicalField :=
      map_eq_of_forall₂ hfields fun f h ⟨hkey, hvalue⟩ => Prod.ext hkey hvalue
    have hkeys' : ((hs.map canonicalField).map Prod.fst).Nodup := by
      rw [← hsame, List.map_map]
      exact hkeys
    simp only [foldWhole, sortKeys, canonical_fields, object.injEq, hsame]
    exact foldr_insertField_perm hkeys' (hperm.map canonicalField)

/-- Equal values have the same canonical text. -/
theorem Alike.canonicalText_eq {v w : Json} (h : Alike v w) : v.canonicalText = w.canonicalText := by
  rw [canonicalText, canonicalText, h.canonical_eq]

end DocSchema.Json
