import DocSchema.Proofs.Text.Blank
import DocSchema.Report.Card
import Mathlib.Algebra.GroupWithZero.Nat
import Mathlib.Data.List.Basic

/-!
A report card, read line by line.

The card is put together from parts, one of which is a whole list of bullets, and in the end white
space is trimmed off. As long as no path and no message has a line feed in it, its lines are the
title, the number of diagnostics, and one section after another (`groups`), each with a heading that
counts the bullets under it; all that can be missing is white space at the very end. Every
diagnostic has its bullet once, and the diagnostics of one category keep their order
(`StablyGroups`). Main statement: `lines_render`.
-/

namespace DocSchema.Card

/-! ### What a card says -/

/-- The lines of a text. -/
def lines (s : String) : List String := (s.toList.splitOn '\n').map String.ofList

/-- The text of some lines. -/
def joined (ls : List String) : String := "\n".intercalate ls

/-- The categories that occur, in the order in which they are listed, each with its diagnostics. -/
def groups (ds : List Diagnostic) : List (Category × List Diagnostic) :=
  (Category.all.filter (· ∈ ds.map Diagnostic.category)).map fun c =>
    (c, ds.filter (·.category = c))

/-- A heading with the number of diagnostics, and a bullet for each of them. -/
def groupLines (level : Int) (g : Category × List Diagnostic) : List String :=
  s!"{marks level}# {g.1.name} ({g.2.length})" :: g.2.map bullet

/-- The lines above the sections. -/
def topLines (level : Int) (title : String) (ds : List Diagnostic) : List String :=
  [s!"{marks level} {title}", "", s!"{ds.length} diagnostic(s).", ""]

/-- All lines of a card, the sections with an empty line between them. -/
def cardLines (level : Int) (title : String) (ds : List Diagnostic) : List String :=
  topLines level title ds ++ [""].intercalate ((groups ds).map (groupLines level))

/-- The second list has the diagnostics of the first one by category, each category in the order in
which it was. -/
structure StablyGroups (ds es : List Diagnostic) : Prop where
  perm : es.Perm ds
  ordered : es.Pairwise fun d e =>
    Category.all.idxOf d.category ≤ Category.all.idxOf e.category
  stable : ∀ c, es.filter (·.category = c) = ds.filter (·.category = c)

variable {level : Int} {title : String} {ds : List Diagnostic} {c : Category}

/-! ### Grouping -/

theorem flatMap_filter_eq {α β : Type} {p : α → Bool} {f : α → List β}
    (h : ∀ a, p a = false → f a = []) (l : List α) : (l.filter p).flatMap f = l.flatMap f := by
  induction l with
  | nil => rfl
  | cons a l ih =>
    cases ha : p a with
    | true => rw [List.filter_cons_of_pos ha, List.flatMap_cons, List.flatMap_cons, ih]
    | false =>
      rw [List.filter_cons_of_neg (by simp [ha]), List.flatMap_cons, ih, h a ha, List.nil_append]

/-- A category that does not occur has no diagnostics. -/
theorem filter_eq_nil (h : decide (c ∈ ds.map Diagnostic.category) = false) :
    ds.filter (·.category = c) = [] := by
  rw [List.filter_eq_nil_iff]
  intro d hd hc
  exact of_decide_eq_false h (of_decide_eq_true hc ▸ List.mem_map_of_mem hd)

theorem flatMap_groups (ds : List Diagnostic) :
    (groups ds).flatMap Prod.snd = Category.all.flatMap fun c => ds.filter (·.category = c) := by
  rw [groups, List.flatMap_map]
  exact flatMap_filter_eq (fun c hc => filter_eq_nil hc) _

theorem filter_groups (ds : List Diagnostic) (c : Category) :
    ((groups ds).flatMap Prod.snd).filter (·.category = c) = ds.filter (·.category = c) := by
  have heach (b : Category) : (ds.filter (·.category = b)).filter (·.category = c) =
      if b = c then ds.filter (·.category = c) else [] := by
    split
    · next hb => rw [hb, List.filter_filter]; simp
    · next hb =>
      rw [List.filter_eq_nil_iff]
      intro d hd hc
      exact hb ((of_decide_eq_true (List.mem_filter.mp hd).2).symm.trans (of_decide_eq_true hc))
  rw [flatMap_groups, List.filter_flatMap]
  simp only [heach]
  cases c <;> simp [Category.all]

theorem stablyGroups_groups (ds : List Diagnostic) :
    StablyGroups ds ((groups ds).flatMap Prod.snd) := by
  refine ⟨?_, ?_, filter_groups ds⟩
  · -- a diagnostic is counted among those of its own category
    refine List.perm_iff_count.mpr fun d => ?_
    have hcount (es : List Diagnostic) :
        es.count d = (es.filter (·.category = d.category)).count d := by
      rw [List.count_filter (by simp)]
    rw [hcount, filter_groups, ← hcount]
  · have hcategory {c : Category} {d : Diagnostic} (hd : d ∈ ds.filter (·.category = c)) :
        d.category = c := of_decide_eq_true (List.mem_filter.mp hd).2
    have hall : Category.all.Pairwise fun b c =>
        Category.all.idxOf b ≤ Category.all.idxOf c := by decide
    rw [flatMap_groups, List.pairwise_flatMap]
    constructor
    · intro c _
      refine List.pairwise_of_forall_mem_list fun d hd e he => ?_
      exact Nat.le_of_eq (by rw [hcategory hd, hcategory he])
    · refine hall.imp fun hbc d hd e he => ?_
      rwa [hcategory hd, hcategory he]

/-! ### Lines and text -/

theorem joined_append {a b : List String} (ha : a ≠ []) (hb : b ≠ []) :
    joined (a ++ b) = joined a ++ "\n" ++ joined b :=
  String.intercalate_append_of_ne_nil ha hb

/-- Joining parts that are joined lines is joining all their lines. -/
theorem joined_flatten {parts : List (List String)} (hparts : ∀ ls ∈ parts, ls ≠ []) :
    joined (parts.map joined) = joined parts.flatten := by
  induction parts with
  | nil => rfl
  | cons ls parts ih =>
    obtain ⟨hls, hparts⟩ := List.forall_mem_cons.mp hparts
    by_cases hnil : parts = []
    · subst hnil
      simp [joined]
    · obtain ⟨rest, parts, rfl⟩ := List.exists_cons_of_ne_nil hnil
      have hrest : (rest :: parts).flatten ≠ [] := by simp [hparts rest List.mem_cons_self]
      rw [List.map_cons, List.flatten_cons, joined_append hls hrest, ← ih hparts]
      exact String.intercalate_cons_of_ne_nil (by simp)

/-- A text of lines without line feeds has these lines. -/
theorem lines_joined {ls : List String} (hne : ls ≠ []) (hls : ∀ l ∈ ls, '\n' ∉ l.toList) :
    lines (joined ls) = ls := by
  have hsplit : (['\n'].intercalate (ls.map String.toList)).splitOn '\n' = ls.map String.toList :=
    List.splitOn_intercalate '\n' (List.forall_mem_map.mpr hls) (by simpa using hne)
  rw [lines, joined, String.toList_intercalate]
  refine (congrArg _ hsplit).trans ?_
  simp [List.map_map, Function.comp_def]

theorem intercalate_concat {α : Type} (sep : List α) (ls : List (List α)) (l : List α) :
    sep.intercalate (ls ++ [l]) = ls.flatMap (· ++ sep) ++ l := by
  induction ls with
  | nil => simp
  | cons a ls ih =>
    rw [List.cons_append, List.intercalate_cons_of_ne_nil (by simp), ih, List.flatMap_cons]
    simp only [List.append_assoc]

theorem flatMap_append_intercalate {α : Type} (sep : List α) {ls : List (List α)} (hls : ls ≠ []) :
    ls.flatMap (· ++ sep) = sep.intercalate ls ++ sep := by
  rw [← List.dropLast_concat_getLast hls, intercalate_concat, List.flatMap_append,
    List.flatMap_singleton, List.append_assoc]

theorem mem_intercalate {α : Type} {sep : List α} {ls : List (List α)} {a : α}
    (h : a ∈ sep.intercalate ls) : a ∈ sep ∨ ∃ l ∈ ls, a ∈ l := by
  by_cases hls : ls = []
  · subst hls
    cases h
  have hmem : a ∈ ls.flatMap (· ++ sep) := by
    rw [flatMap_append_intercalate sep hls]
    exact List.mem_append_left sep h
  obtain ⟨l, hl, ha⟩ := List.mem_flatMap.mp hmem
  rcases List.mem_append.mp ha with ha | ha
  · exact .inr ⟨l, hl, ha⟩
  · exact .inl ha

/-- Trimming a text of lines trims its last line, if that is more than white space. -/
theorem trimmedEnd_joined {l : String} {ch : Char} (hch : ch ∈ l.toList)
    (hblank : isBlank ch = false) (above : List String) :
    trimmedEnd (joined (above ++ [l])) = joined (above ++ [trimmedEnd l]) := by
  have htrim (s : String) : trimmedEnd (s ++ l) = s ++ trimmedEnd l := by
    refine String.toList_inj.mp ?_
    simp only [trimmedEnd, String.toList_ofList, String.toList_append]
    exact trimEnd_append_of_mem hch hblank _
  by_cases habove : above = []
  · subst habove
    simp [joined]
  · rw [joined_append habove (List.cons_ne_nil _ _), joined_append habove (List.cons_ne_nil _ _)]
    simpa [joined] using htrim (joined above ++ "\n")

/-- An empty line at the end is trimmed off. -/
theorem trimmedEnd_joined_empty {ls : List String} (hls : ls ≠ []) :
    trimmedEnd (joined (ls ++ [""])) = trimmedEnd (joined ls) := by
  have hend : Blanks ['\n'] := by decide
  have htext : (joined (ls ++ [""])).toList = (joined ls).toList ++ ['\n'] := by
    rw [joined_append hls (List.cons_ne_nil _ _)]
    simp [joined]
  rw [trimmedEnd, trimmedEnd, htext, trimEnd_append_blanks hend]

/-! ### One line each -/

/-- The text has no line feed in it. -/
def OneLine (s : String) : Prop := '\n' ∉ s.toList

instance (s : String) : Decidable (OneLine s) := inferInstanceAs (Decidable ('\n' ∉ s.toList))

theorem oneLine_append {s t : String} (hs : OneLine s) (ht : OneLine t) : OneLine (s ++ t) := by
  rw [OneLine, String.toList_append, List.mem_append]
  exact not_or.mpr ⟨hs, ht⟩

theorem oneLine_count (n : Nat) : OneLine (toString n) := by
  rw [OneLine, Nat.toString_eq_repr, Nat.repr_eq_ofList_toDigits, String.toList_ofList]
  intro h
  exact absurd (Nat.isDigit_of_mem_toDigits (by decide) (by decide) h) (by decide)

theorem oneLine_marks (level : Int) : OneLine (marks level) := by
  rw [OneLine, marks, String.toList_ofList, List.mem_replicate]
  exact fun h => absurd h.2 (by decide)

theorem oneLine_escapeTicks {s : String} (h : OneLine s) : OneLine (escapeTicks s) := by
  rw [OneLine, escapeTicks, String.toList_ofList, List.mem_flatMap]
  rintro ⟨c, hc, hmem⟩
  split at hmem
  · exact absurd hmem (by decide)
  · rw [List.mem_singleton] at hmem
    exact h (hmem ▸ hc)

theorem oneLine_bullet {d : Diagnostic} (hpath : OneLine d.path) (hmessage : OneLine d.message) :
    OneLine (bullet d) := by
  have hname : OneLine d.code.name := by cases d.code <;> decide
  refine oneLine_append (oneLine_append (oneLine_append (oneLine_append (oneLine_append ?_ ?_) ?_)
    hname) (by decide)) (oneLine_escapeTicks hmessage)
  · decide
  · exact oneLine_escapeTicks hpath
  · decide

theorem oneLine_topLines (htitle : OneLine title) :
    ∀ l ∈ topLines level title ds, OneLine l := by
  simp only [topLines, List.forall_mem_cons]
  refine ⟨?_, by decide, ?_, by decide, List.forall_mem_nil _⟩
  · exact oneLine_append (oneLine_append (oneLine_marks level) (by decide)) htitle
  · exact oneLine_append (oneLine_count _) (by decide)

theorem oneLine_trimmedEnd {s : String} (h : OneLine s) : OneLine (trimmedEnd s) := by
  rw [OneLine, trimmedEnd, String.toList_ofList]
  exact fun hmem => h (trimEnd_subset _ hmem)

theorem oneLine_groupLines {g : Category × List Diagnostic} (hg : ∀ d ∈ g.2, OneLine (bullet d)) :
    ∀ l ∈ groupLines level g, OneLine l := by
  have hname : OneLine g.1.name := by cases g.1 <;> decide
  rw [groupLines, List.forall_mem_cons, List.forall_mem_map]
  refine ⟨?_, hg⟩
  exact oneLine_append (oneLine_append (oneLine_append (oneLine_append (oneLine_append
    (oneLine_marks level) (by decide)) hname) (by decide)) (oneLine_count _)) (by decide)

/-! ### The card -/

/-- The parts of a card that come from one category: heading, bullets, and an empty line. -/
def groupParts (level : Int) (g : Category × List Diagnostic) : List (List String) :=
  [[s!"{marks level}# {g.1.name} ({g.2.length})"], g.2.map bullet, [""]]

theorem flatten_groupParts (level : Int) (g : Category × List Diagnostic) :
    (groupParts level g).flatten = groupLines level g ++ [""] := by
  simp [groupParts, groupLines]

theorem mem_groups {g : Category × List Diagnostic} (hg : g ∈ groups ds) :
    g.2 ≠ [] ∧ ∀ d ∈ g.2, d ∈ ds := by
  rw [groups, List.mem_map] at hg
  obtain ⟨c, hc, rfl⟩ := hg
  obtain ⟨d, hd, hcategory⟩ := List.mem_map.mp (of_decide_eq_true (List.mem_filter.mp hc).2)
  refine ⟨List.ne_nil_of_mem (List.mem_filter.mpr ⟨hd, decide_eq_true hcategory⟩), ?_⟩
  exact fun e he => List.mem_of_mem_filter he

theorem groups_ne_nil (hds : ds ≠ []) : groups ds ≠ [] := by
  intro h
  have hperm := (stablyGroups_groups ds).perm
  rw [h] at hperm
  exact hds hperm.symm.eq_nil

theorem sectionLines_nil (h : ds.filter (·.category = c) = []) : sectionLines level ds c = [] := by
  rw [sectionLines, ofCategory, h]

theorem sectionLines_group (h : ds.filter (·.category = c) ≠ []) : sectionLines level ds c =
    (groupParts level (c, ds.filter (·.category = c))).map joined := by
  rw [sectionLines, ofCategory]
  split
  · next hnil => exact absurd hnil h
  · simp [groupParts, joined]

theorem flatMap_sectionLines (level : Int) (ds : List Diagnostic) :
    Category.all.flatMap (sectionLines level ds) =
      ((groups ds).flatMap (groupParts level)).map joined := by
  have hnothing (c : Category) (hc : decide (c ∈ ds.map Diagnostic.category) = false) :
      sectionLines level ds c = [] := sectionLines_nil (filter_eq_nil hc)
  rw [← flatMap_filter_eq hnothing, List.map_flatMap]
  have hgroups : (groups ds).flatMap (fun g => (groupParts level g).map joined) =
      (Category.all.filter (· ∈ ds.map Diagnostic.category)).flatMap fun c =>
        (groupParts level (c, ds.filter (·.category = c))).map joined := by
    rw [groups, List.flatMap_map]
  rw [hgroups]
  refine List.flatMap_congr fun c hc => sectionLines_group ?_
  exact (mem_groups (List.mem_map_of_mem hc)).1

/-- The text of a card is the text of its lines and an empty one, trimmed at the end. -/
theorem render_eq (hds : ds ≠ []) : render level title ds =
    trimmedEnd (joined (cardLines level title ds ++ [""])) := by
  have hparts : topLines level title ds ++ Category.all.flatMap (sectionLines level ds) =
      ((topLines level title ds).map (fun l => [l]) ++
        (groups ds).flatMap (groupParts level)).map joined := by
    rw [flatMap_sectionLines, List.map_append, List.map_map]
    simp [joined, Function.comp_def]
  have hnonempty : ∀ ls ∈ (topLines level title ds).map (fun l => [l]) ++
      (groups ds).flatMap (groupParts level), ls ≠ [] := by
    intro ls hls
    rcases List.mem_append.mp hls with hls | hls
    · obtain ⟨l, -, rfl⟩ := List.mem_map.mp hls
      simp
    · obtain ⟨g, hg, hls⟩ := List.mem_flatMap.mp hls
      simp only [groupParts, List.mem_cons, List.not_mem_nil, or_false] at hls
      rcases hls with rfl | rfl | rfl <;> simp [(mem_groups hg).1]
  have hlines : ((topLines level title ds).map (fun l => [l]) ++
      (groups ds).flatMap (groupParts level)).flatten = cardLines level title ds ++ [""] := by
    have hgroups : (groups ds).map (groupLines level) ≠ [] := by simpa using groups_ne_nil hds
    have hsections := flatMap_append_intercalate [""] hgroups
    rw [List.flatMap_map] at hsections
    have hparts : ((groups ds).flatMap (groupParts level)).flatten =
        (groups ds).flatMap fun g => groupLines level g ++ [""] := by
      rw [← List.flatMap_id, List.flatMap_assoc]
      simp only [List.flatMap_id, flatten_groupParts]
    rw [List.flatten_append, ← List.flatMap_def, List.flatMap_singleton', hparts, hsections,
      cardLines, List.append_assoc]
  have htext : render level title ds = trimmedEnd (joined (topLines level title ds ++
      Category.all.flatMap (sectionLines level ds))) := by
    cases ds with
    | nil => exact absurd rfl hds
    | cons d ds => rfl
  rw [htext, hparts, joined_flatten hnonempty, hlines]

theorem mem_bullet (d : Diagnostic) : '-' ∈ (bullet d).toList := by
  simp only [bullet, String.toList_append, List.mem_append]
  exact .inl (.inl (.inl (.inl (.inl (by decide)))))

/-- The last line of a card is a bullet. -/
theorem exists_last_bullet (level : Int) (title : String) (hds : ds ≠ []) :
    ∃ above, ∃ d ∈ ds, cardLines level title ds = above ++ [bullet d] := by
  obtain ⟨gs, g, hgroups⟩ := (List.eq_nil_or_concat' (groups ds)).resolve_left (groups_ne_nil hds)
  have hg : g ∈ groups ds := by simp [hgroups]
  obtain ⟨es, d, hes⟩ := (List.eq_nil_or_concat' g.2).resolve_left (mem_groups hg).1
  refine ⟨topLines level title ds ++ ((gs.map (groupLines level)).flatMap (· ++ [""]) ++
    s!"{marks level}# {g.1.name} ({g.2.length})" :: es.map bullet), d, ?_, ?_⟩
  · exact (mem_groups hg).2 d (by simp [hes])
  · rw [cardLines, hgroups, List.map_append, List.map_singleton, intercalate_concat, groupLines]
    simp [hes]

theorem oneLine_cardLines (htitle : OneLine title)
    (hds : ∀ d ∈ ds, OneLine d.path ∧ OneLine d.message) (level : Int) :
    ∀ l ∈ cardLines level title ds, OneLine l := by
  intro l hl
  rcases List.mem_append.mp hl with hl | hl
  · exact oneLine_topLines htitle l hl
  rcases mem_intercalate hl with hl | ⟨ls, hls, hl⟩
  · rw [List.mem_singleton.mp hl]
    decide
  · obtain ⟨g, hg, rfl⟩ := List.mem_map.mp hls
    refine oneLine_groupLines (fun d hd => ?_) l hl
    obtain ⟨hpath, hmessage⟩ := hds d ((mem_groups hg).2 d hd)
    exact oneLine_bullet hpath hmessage

/-- The lines of a card are the title, the number of diagnostics, and the sections of the categories
that occur, in their order, with an empty line between two of them, except that white space at the
end of the last line is missing. The diagnostics of the sections, one after another, are all
diagnostics, each as often as it was given and in the given order within its category, and the
counts of the headings add up to their number. -/
theorem lines_render (hds : ds ≠ []) (htitle : OneLine title)
    (hplain : ∀ d ∈ ds, OneLine d.path ∧ OneLine d.message) (level : Int) :
    (∃ above last, lines (render level title ds) = above ++ [trimmedEnd last] ∧
      cardLines level title ds = above ++ [last]) ∧
    StablyGroups ds ((groups ds).flatMap Prod.snd) ∧
    ((groups ds).map fun g => g.2.length).sum = ds.length := by
  have hgroups := stablyGroups_groups ds
  refine ⟨?_, hgroups, ?_⟩
  · obtain ⟨above, d, hd, hlines⟩ := exists_last_bullet level title hds
    refine ⟨above, bullet d, ?_, hlines⟩
    have hne : cardLines level title ds ≠ [] := by simp [hlines]
    have hplain := oneLine_cardLines htitle hplain level
    rw [render_eq hds, trimmedEnd_joined_empty hne, hlines,
      trimmedEnd_joined (mem_bullet d) (by decide)]
    rw [hlines] at hplain
    obtain ⟨habove, hlast⟩ := List.forall_mem_append.mp hplain
    refine lines_joined (by simp) (List.forall_mem_append.mpr ⟨habove, ?_⟩)
    exact List.forall_mem_singleton.mpr (oneLine_trimmedEnd (List.forall_mem_singleton.mp hlast))
  · rw [← hgroups.perm.length_eq, List.length_flatMap]

/-- Diagnostics of two categories, reported in turn; the last bullet ends in white space. -/
def findings : List Diagnostic :=
  [⟨"$.tag", .constraintViolation, "Constraint failed: String.max"⟩,
    ⟨"$.size", .typeMismatch, "Expected Int. "⟩, ⟨"$.name", .fieldMissing, "Missing `name` "⟩]

/-- The lines of their card but the last one. -/
def findingsAbove : List String :=
  ["# Findings", "", "3 diagnostic(s).", "", "## TypeError (1)",
    "- `$.size` **TypeMismatch**: Expected Int. ", "", "## ValidationError (2)",
    "- `$.tag` **ConstraintViolation**: Constraint failed: String.max"]

theorem lines_findings :
    findings ≠ [] ∧ OneLine "Findings" ∧
    (∀ d ∈ findings, OneLine d.path ∧ OneLine d.message) ∧
    lines (render 1 "Findings" findings) =
      findingsAbove ++ ["- `$.name` **FieldMissing**: Missing \\`name\\`"] := by
  have hfindings : findings ≠ [] := by simp [findings]
  have htitle : OneLine "Findings" := by decide
  have hplain : ∀ d ∈ findings, OneLine d.path ∧ OneLine d.message := by decide
  have hcard : cardLines 1 "Findings" findings =
      findingsAbove ++ ["- `$.name` **FieldMissing**: Missing \\`name\\` "] := by decide +kernel
  obtain ⟨⟨above, last, hlines, hlast⟩, -, -⟩ := lines_render hfindings htitle hplain 1
  obtain ⟨rfl, hline⟩ := List.append_inj' (hcard.symm.trans hlast) rfl
  rw [← List.singleton_inj.mp hline] at hlines
  refine ⟨hfindings, htitle, hplain, hlines.trans ?_⟩
  decide +kernel

end DocSchema.Card
