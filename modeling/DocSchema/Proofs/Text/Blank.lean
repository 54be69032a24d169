import DocSchema.Character.Blank
import Mathlib.Data.List.Basic

/-!
White space around a text.

Trimming takes white space off both ends and stops at the first character of each that is none, so it
gives back a text that neither starts nor ends with white space (`Solid`) from whatever white space
was put around it: `trim_around`.
-/

namespace DocSchema

/-- White space, or nothing. -/
def Blanks (w : List Char) : Prop := ∀ c ∈ w, isBlank c = true

instance (w : List Char) : Decidable (Blanks w) :=
  decidable_of_iff (w.all isBlank = true) List.all_eq_true

/-- A text neither starts nor ends with white space. -/
structure Solid (cs : List Char) : Prop where
  head : ∀ c ∈ cs.head?, isBlank c = false
  last : ∀ c ∈ cs.getLast?, isBlank c = false

variable {w z cs : List Char}

/-! ### The characters -/

theorem exists_of_within {ranges : List (Nat × Nat)} {n : Nat} (h : within ranges n = true) :
    ∃ r ∈ ranges, r.1 ≤ n ∧ n ≤ r.2 := by
  induction ranges with
  | nil => cases h
  | cons r ranges ih =>
    simp only [within] at h
    split at h
    · cases h
    · next hfirst =>
      rcases (Bool.or_eq_true _ _).mp h with hlast | h
      · exact ⟨r, List.mem_cons_self, Nat.le_of_not_lt hfirst, of_decide_eq_true hlast⟩
      · obtain ⟨s, hs, hn⟩ := ih h
        exact ⟨s, List.mem_cons_of_mem r hs, hn⟩

/-- The printable characters of ASCII are no white space. -/
theorem not_isBlank_of_printable {c : Char} (hfirst : 33 ≤ c.toNat) (hlast : c.toNat ≤ 126) :
    isBlank c = false := by
  have houtside : ∀ r ∈ blankRanges, r.2 < 33 ∨ 126 < r.1 := by decide
  rw [← Bool.not_eq_true]
  intro hblank
  obtain ⟨r, hr, hlow, hhigh⟩ := exists_of_within hblank
  have := houtside r hr
  omega

/-! ### Trimming -/

theorem trimStart_append (hw : Blanks w) (cs : List Char) :
    trimStart (w ++ cs) = trimStart cs := by
  induction w with
  | nil => rfl
  | cons c w ih =>
    obtain ⟨hc, hw⟩ := List.forall_mem_cons.mp hw
    rw [List.cons_append, trimStart, if_pos hc, ih hw]

theorem trimStart_of_head (h : ∀ c ∈ cs.head?, isBlank c = false) : trimStart cs = cs := by
  cases cs with
  | nil => rfl
  | cons c cs => rw [trimStart, if_neg (by simp [h c rfl])]

theorem head_trimStart (cs : List Char) : ∀ c ∈ (trimStart cs).head?, isBlank c = false := by
  induction cs with
  | nil => rintro c ⟨⟩
  | cons c cs ih =>
    rw [trimStart]
    split
    · exact ih
    · next hc =>
      rintro d ⟨⟩
      exact Bool.not_eq_true _ ▸ hc

/-- What is trimmed off the front is white space. -/
theorem exists_blanks (cs : List Char) : ∃ w, Blanks w ∧ cs = w ++ trimStart cs := by
  induction cs with
  | nil => exact ⟨[], List.forall_mem_nil _, rfl⟩
  | cons c cs ih =>
    rw [trimStart]
    split
    · next hc =>
      obtain ⟨w, hw, hcs⟩ := ih
      exact ⟨c :: w, List.forall_mem_cons.mpr ⟨hc, hw⟩, by rw [List.cons_append, ← hcs]⟩
    · exact ⟨[], List.forall_mem_nil _, rfl⟩

theorem trimStart_suffix (cs : List Char) : trimStart cs <:+ cs := by
  obtain ⟨w, -, hcs⟩ := exists_blanks cs
  exact ⟨w, hcs.symm⟩

theorem mem_trimStart {c : Char} (hc : c ∈ cs) : c ∈ trimStart cs ∨ isBlank c = true := by
  obtain ⟨w, hw, hcs⟩ := exists_blanks cs
  rw [hcs] at hc
  rcases List.mem_append.mp hc with hblank | hrest
  · exact .inr (hw c hblank)
  · exact .inl hrest

/-- Nothing but white space is trimmed off. -/
theorem mem_trim {c : Char} (hc : c ∈ cs) : c ∈ trim cs ∨ isBlank c = true := by
  rcases mem_trimStart hc with hstart | hblank
  · rw [trim, trimEnd, List.mem_reverse]
    exact mem_trimStart (List.mem_reverse.mpr hstart)
  · exact .inr hblank

/-- Trimming the front stops at a character that is no white space, whatever follows. -/
theorem trimStart_append_of_mem {c : Char} (hc : c ∈ w) (hblank : isBlank c = false)
    (cs : List Char) : trimStart (w ++ cs) = trimStart w ++ cs := by
  induction w with
  | nil => cases hc
  | cons d w ih =>
    rw [List.cons_append, trimStart, trimStart]
    split
    · next hd =>
      refine ih (List.mem_of_ne_of_mem ?_ hc)
      rintro rfl
      rw [hd] at hblank
      cases hblank
    · rfl

/-- Trimming the end stops at a character that is no white space, whatever stands before. -/
theorem trimEnd_append_of_mem {c : Char} (hc : c ∈ z) (hblank : isBlank c = false)
    (cs : List Char) : trimEnd (cs ++ z) = cs ++ trimEnd z := by
  rw [trimEnd, List.reverse_append, trimStart_append_of_mem (List.mem_reverse.mpr hc) hblank,
    List.reverse_append, List.reverse_reverse, trimEnd]

theorem trimEnd_append_blanks (hz : Blanks z) (cs : List Char) :
    trimEnd (cs ++ z) = trimEnd cs := by
  have hreverse : Blanks z.reverse := fun c hc => hz c (List.mem_reverse.mp hc)
  rw [trimEnd, List.reverse_append, trimStart_append hreverse, trimEnd]

theorem trimEnd_subset (cs : List Char) : trimEnd cs ⊆ cs := by
  intro c hc
  rw [trimEnd, List.mem_reverse] at hc
  exact List.mem_reverse.mp ((trimStart_suffix cs.reverse).subset hc)

theorem trimEnd_append (hz : Blanks z) (h : ∀ c ∈ cs.getLast?, isBlank c = false) :
    trimEnd (cs ++ z) = cs := by
  have hhead : ∀ c ∈ cs.reverse.head?, isBlank c = false := by rwa [List.head?_reverse]
  rw [trimEnd_append_blanks hz, trimEnd, trimStart_of_head hhead, List.reverse_reverse]

theorem trimEnd_of_last (h : ∀ c ∈ cs.getLast?, isBlank c = false) : trimEnd cs = cs := by
  have hnothing : Blanks [] := List.forall_mem_nil _
  have htrim := trimEnd_append hnothing h
  rwa [List.append_nil] at htrim

theorem last_trim (cs : List Char) : ∀ c ∈ (trim cs).getLast?, isBlank c = false := by
  rw [trim, trimEnd, List.getLast?_reverse]
  exact head_trimStart _

/-- White space around a text is trimmed off. -/
theorem trim_around (hw : Blanks w) (hz : Blanks z) (h : Solid cs) : trim (w ++ cs ++ z) = cs := by
  rw [trim, List.append_assoc, trimStart_append hw]
  cases cs with
  | nil =>
    have hblank : trimStart z = [] := by
      have := trimStart_append hz []
      rwa [List.append_nil] at this
    rw [List.nil_append, hblank]
    rfl
  | cons c cs =>
    have hstart : trimStart (c :: cs ++ z) = c :: cs ++ z :=
      trimStart_of_head fun d hd => h.head d hd
    rw [hstart]
    exact trimEnd_append hz h.last

theorem trim_front (hw : Blanks w) (h : Solid cs) : trim (w ++ cs) = cs := by
  have hnothing : Blanks [] := List.forall_mem_nil _
  rw [← List.append_nil (w ++ cs), trim_around hw hnothing h]

/-- A text without white space around it is not trimmed. -/
theorem trim_of_solid (h : Solid cs) : trim cs = cs :=
  trim_front (w := []) (List.forall_mem_nil _) h

theorem last_append {a b : List Char} (hb : ∀ c ∈ b.getLast?, isBlank c = false) (hne : b ≠ []) :
    ∀ c ∈ (a ++ b).getLast?, isBlank c = false := by
  rwa [List.getLast?_append_of_ne_nil _ hne]

theorem solid_append {a b : List Char} (ha : ∀ c ∈ a.head?, isBlank c = false) (hane : a ≠ [])
    (hb : ∀ c ∈ b.getLast?, isBlank c = false) (hbne : b ≠ []) : Solid (a ++ b) :=
  ⟨by rwa [List.head?_append_of_ne_nil _ hane], last_append hb hbne⟩

theorem length_trim_le (cs : List Char) : (trim cs).length ≤ cs.length := by
  have hstart := (trimStart_suffix cs).length_le
  have hend := (trimStart_suffix (trimStart cs).reverse).length_le
  rw [trim, trimEnd, List.length_reverse]
  rw [List.length_reverse] at hend
  exact Nat.le_trans hend hstart

end DocSchema
