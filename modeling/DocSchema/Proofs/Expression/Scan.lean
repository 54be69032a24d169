import DocSchema.Expression.Scan
import DocSchema.Proofs.Text.Blank
import Mathlib.Data.List.TakeWhile

/-!
What the scanners take off the front of a text.

A fixed text is taken off if it is there, white space is taken off as a whole, and an identifier up to
the first character that cannot continue it. One lemma a scanner says this of a text that is written
with the part in front, and one that a text with another character in front is refused.
-/

namespace DocSchema.Expression

variable {w cs ws name rest : List Char}

/-- An identifier of ASCII letters, digits and underscores. -/
inductive IsName : List Char → Prop
  | intro {c : Char} {tail : List Char} (hc : isNameStart c = true)
    (htail : ∀ d ∈ tail, isNameRest d = true) : IsName (c :: tail)

/-- The test for identifiers. -/
def isNameText : List Char → Bool
  | [] => false
  | c :: tail => isNameStart c && tail.all isNameRest

theorem isName_iff : IsName name ↔ isNameText name = true := by
  constructor
  · intro h
    obtain ⟨hc, htail⟩ := h
    simp [isNameText, hc, List.all_eq_true.mpr htail]
  · intro h
    cases name with
    | nil => cases h
    | cons c tail =>
      rw [isNameText, Bool.and_eq_true, List.all_eq_true] at h
      exact .intro h.1 h.2

instance (name : List Char) : Decidable (IsName name) := decidable_of_iff _ isName_iff.symm

theorem after?_append (ws cs : List Char) : after? ws (ws ++ cs) = some cs := by
  induction ws with
  | nil => rfl
  | cons c ws ih => rw [List.cons_append, after?, if_pos rfl, ih]

theorem after?_of_head {c : Char} (h : ∀ d ∈ cs.head?, d ≠ c) : after? (c :: ws) cs = none := by
  cases cs with
  | nil => rfl
  | cons d cs => rw [after?, if_neg (h d rfl).symm]

theorem afterBlanks?_append (hw : Blanks w) (hne : w ≠ []) (cs : List Char) :
    afterBlanks? (w ++ cs) = some (trimStart cs) := by
  cases w with
  | nil => exact absurd rfl hne
  | cons c w =>
    obtain ⟨hc, hw⟩ := List.forall_mem_cons.mp hw
    rw [List.cons_append, afterBlanks?, if_pos hc, trimStart_append hw]

theorem afterBlanks?_of_head (h : ∀ c ∈ cs.head?, isBlank c = false) : afterBlanks? cs = none := by
  cases cs with
  | nil => rfl
  | cons c cs => rw [afterBlanks?, if_neg (by simp [h c rfl])]

/-- White space in front of a text that starts with none is what is trimmed off. -/
theorem trimStart_blanks (hw : Blanks w) (h : ∀ c ∈ cs.head?, isBlank c = false) :
    trimStart (w ++ cs) = cs := by
  rw [trimStart_append hw, trimStart_of_head h]

/-! ### Identifiers -/

theorem toNat_le_of_le {a b : Char} (h : a ≤ b) : a.toNat ≤ b.toNat :=
  UInt32.le_iff_toNat_le.mp (Char.le_def.mp h)

theorem printable_of_isNameRest {c : Char} (h : isNameRest c = true) :
    33 ≤ c.toNat ∧ c.toNat ≤ 126 := by
  simp only [isNameRest, isNameStart, Bool.or_eq_true, Bool.and_eq_true, decide_eq_true_eq] at h
  have hrange {a b : Char} (hab : a ≤ c ∧ c ≤ b) : a.toNat ≤ c.toNat ∧ c.toNat ≤ b.toNat :=
    ⟨toNat_le_of_le hab.1, toNat_le_of_le hab.2⟩
  rcases h with ((hlower | hupper) | rfl) | hdigit
  · have := hrange hlower; simp at this; omega
  · have := hrange hupper; simp at this; omega
  · decide
  · have := hrange hdigit; simp at this; omega

theorem not_isNameRest_of_isBlank {c : Char} (h : isBlank c = true) : isNameRest c = false := by
  rw [← Bool.not_eq_true]
  intro hrest
  obtain ⟨hfirst, hlast⟩ := printable_of_isNameRest hrest
  rw [not_isBlank_of_printable hfirst hlast] at h
  cases h

theorem IsName.ne_nil (h : IsName name) : name ≠ [] := by
  rintro rfl
  cases h

theorem solid_of_isName (h : IsName name) : Solid name := by
  have hblank {c : Char} (hc : isNameRest c = true) : isBlank c = false :=
    not_isBlank_of_printable (printable_of_isNameRest hc).1 (printable_of_isNameRest hc).2
  obtain ⟨hc, htail⟩ := h
  have hall : ∀ d ∈ _ :: _, isNameRest d = true :=
    List.forall_mem_cons.mpr ⟨by rw [isNameRest, hc, Bool.true_or], htail⟩
  exact ⟨fun d hd => hblank (hall d (List.mem_of_mem_head? hd)),
    fun d hd => hblank (hall d (List.mem_of_getLast? hd))⟩

theorem identifier?_append (hname : IsName name)
    (hrest : ∀ c ∈ rest.head?, isNameRest c = false) :
    identifier? (name ++ rest) = some (name, rest) := by
  obtain ⟨hc, htail⟩ := hname
  have hstop : rest.takeWhile isNameRest = [] ∧ rest.dropWhile isNameRest = rest := by
    cases rest with
    | nil => exact ⟨rfl, rfl⟩
    | cons c rest => simp [hrest c rfl]
  rw [List.cons_append, identifier?, if_pos hc, List.takeWhile_append_of_pos htail,
    List.dropWhile_append_of_pos htail, hstop.1, hstop.2, List.append_nil]

/-! ### What was taken off -/

theorem after?_eq_some : after? ws cs = some rest ↔ cs = ws ++ rest := by
  refine ⟨fun h => ?_, fun h => h ▸ after?_append ws rest⟩
  induction ws generalizing cs with
  | nil => simpa [after?] using h
  | cons w ws ih =>
    cases cs with
    | nil => cases h
    | cons c cs =>
      rw [after?] at h
      split at h
      · next hc => rw [hc, ih h, List.cons_append]
      · cases h

theorem afterBlanks?_eq_some (h : afterBlanks? cs = some rest) :
    ∃ w, (Blanks w ∧ w ≠ []) ∧ cs = w ++ rest := by
  cases cs with
  | nil => cases h
  | cons c cs =>
    rw [afterBlanks?] at h
    split at h
    · next hc =>
      obtain ⟨w, hw, hcs⟩ := exists_blanks cs
      cases h
      refine ⟨c :: w, ⟨List.forall_mem_cons.mpr ⟨hc, hw⟩, by simp⟩, ?_⟩
      rw [List.cons_append, ← hcs]
    · cases h

theorem identifier?_eq_some (h : identifier? cs = some (name, rest)) :
    IsName name ∧ cs = name ++ rest := by
  cases cs with
  | nil => cases h
  | cons c cs =>
    rw [identifier?] at h
    split at h
    · next hc =>
      cases h
      refine ⟨.intro hc fun d hd => List.mem_takeWhile_imp hd, ?_⟩
      rw [List.cons_append, List.takeWhile_append_dropWhile]
    · cases h

end DocSchema.Expression
