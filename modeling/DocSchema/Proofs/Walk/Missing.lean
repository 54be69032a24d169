import DocSchema.Proofs.Walk.Conformance
import DocSchema.Proofs.Walk.Equivariance
import DocSchema.Proofs.Walk.Locality
import DocSchema.Proofs.Walk.Location

/-!
Fields that are left out.

A visit to a record judges a field that is there by walking through its type, and a field that is not
there by a look at its head and at the node of its type alone. So a field is reported missing exactly
if it has no default, is not optional, and its type is not written as `absent`
(`fieldMissing_iff`): a type that comes to `absent` through a reference or a condition does not
count, although no value is accepted there (`rejected_both_ways`).

Diagnostics of other fields stand at other paths, because a path goes on after a name by a dot or a
bracket (`outcome_below`), unless a name is itself written like the path through another one.
-/

namespace DocSchema

/-- The diagnostic is about the value itself, or its path goes on by a dot or a bracket. -/
def Diagnostic.Below (d : Diagnostic) : Prop :=
  d.path = "" ∨ ∃ rest, d.path = "." ++ rest ∨ d.path = "[" ++ rest

/-- The path through the first field can go on to be written like that of the second one. -/
def Shadows (above key : String) : Prop :=
  ∃ rest, key = above ++ ("." ++ rest) ∨ key = above ++ ("[" ++ rest)

/-- Diagnostics with this code at this path. -/
def Mentions (code : Code) (path : String) (ds : List Diagnostic) : Prop :=
  ∃ d ∈ ds, d.code = code ∧ d.path = path

theorem Step.text_below (t : Step) : ∃ rest, t.text = "." ++ rest ∨ t.text = "[" ++ rest := by
  cases t with
  | member k => exact ⟨k, .inl rfl⟩
  | item i => exact ⟨toString i ++ "]", .inr (by simp [Step.text, toString, String.append_assoc])⟩
  | key k =>
    exact ⟨"[key:" ++ k ++ "]", .inl (by simp [Step.text, toString, ← String.append_assoc])⟩

theorem Shadows.toList_le {above key : String} (h : Shadows above key) :
    above.toList <+: key.toList := by
  obtain ⟨rest, rfl | rfl⟩ := h <;> exact ⟨_, String.toList_append.symm⟩

theorem mentions_under {code : Code} {path place : String} {ds : List Diagnostic} :
    Mentions code (path ++ place) (ds.map (Diagnostic.under path)) ↔ Mentions code place ds := by
  simp [Mentions, Diagnostic.under]

namespace Catalog

variable {c : Catalog}

/-- The walk reports nothing outside of the value, with any fuel. -/
theorem outcome_below (fuel : Nat) (x : Call) : Reports (c.outcome fuel x) Diagnostic.Below := by
  induction fuel generalizing x with
  | zero => exact .error _
  | succ fuel ih =>
    rw [outcome_succ]
    refine step_reports (fun d hd => .inl hd.1) (fun _ _ _ _ f _ _ => ?_) (fun y _ _ => ih y)
      fun y _ t _ _ _ _ _ => (ih y).under fun d _ => .inr ?_
    · simp only [missingOutcome]
      split
      · exact .nil
      · exact .single (.inr ⟨f.1.name.plain, .inl rfl⟩)
    · obtain ⟨rest, h | h⟩ := t.text_below
      · exact ⟨rest ++ d.path, .inl (by simp [Diagnostic.under, h, String.append_assoc])⟩
      · exact ⟨rest ++ d.path, .inr (by simp [Diagnostic.under, h, String.append_assoc])⟩

/-! ### The fields of an object -/

variable {w : Call → Outcome} {fields : List (String × Json)} {g : Slot} {head : FieldHead}
  {type : Node} {key : String}

/-- A field that is not there has one diagnostic, unless it may be missing. -/
theorem mentions_missing {own : List Diagnostic} (hkey : head.name = .string key)
    (h : missingOutcome head type = .ok own) :
    Mentions .fieldMissing (Step.member key).text own ↔ ¬MayBeMissing (head, type) := by
  rw [← missingOutcome_decides (head, type) own h]
  simp only [missingOutcome] at h
  split at h
  · cases h
    simp [Mentions]
  · cases h
    simp [Mentions, hkey, Json.plain, Step.text]

/-- The diagnostics of a field do not stand at the path of another one that it does not shadow. -/
theorem fieldOutcome_elsewhere (hw : ∀ x, Reports (w x) Diagnostic.Below) {f : FieldHead × Node}
    {above : String} (habove : f.1.name = .string above) (hne : above ≠ key)
    (hfree : (lookup above fields).isSome = true → ¬Shadows above key) :
    Reports (fieldOutcome w fields g f) fun d => d.path ≠ (Step.member key).text := by
  refine fieldOutcome_reports (fun _ => ?_) fun k u hk hu => ?_
  · simp only [missingOutcome]
    split
    · exact .nil
    · refine .single fun hpath => hne ?_
      simpa [habove, Json.plain, Step.text, toString] using hpath
  · obtain rfl : above = k := by simpa [habove] using hk
    refine (hw ⟨f.2, some u, g⟩).under fun d hd hpath => ?_
    have hkey : above ++ d.path = key := by
      have htext : "." ++ above ++ d.path = "." ++ key := by
        simpa [Diagnostic.under, Step.text, toString] using hpath
      rwa [String.append_assoc, String.append_right_inj] at htext
    rcases hd with hd | ⟨rest, hd | hd⟩
    · exact hne (by simpa [hd] using hkey)
    · exact hfree (by simp [hu]) ⟨rest, .inl (hd ▸ hkey.symm)⟩
    · exact hfree (by simp [hu]) ⟨rest, .inr (hd ▸ hkey.symm)⟩

/-- An object whose fields are named apart mentions a field that it lacks, unless that may be
missing. -/
theorem mentions_fields (hw : ∀ x, Reports (w x) Diagnostic.Below)
    {declared : List (FieldHead × Node)} (hnamed : (Node.record declared).FieldsNamed)
    (hdistinct : (declared.map fun f => f.1.name).Nodup) (hf : (head, type) ∈ declared)
    (hkey : head.name = .string key) (hnone : lookup key fields = none)
    (hfree : ∀ f ∈ declared, ∀ above, f.1.name = .string above →
      (lookup above fields).isSome = true → ¬Shadows above key)
    {own : List Diagnostic} (h : collect (fieldOutcome w fields g) declared = .ok own) :
    Mentions .fieldMissing (Step.member key).text own ↔ ¬MayBeMissing (head, type) := by
  have houtcome : fieldOutcome w fields g (head, type) = missingOutcome head type := by
    obtain ⟨name, optional, default⟩ := head
    obtain rfl : name = .string key := hkey
    simp [fieldOutcome, hnone]
  obtain ⟨found, hfound⟩ : ∃ found, missingOutcome head type = .ok found := by
    simp only [missingOutcome]
    split <;> exact ⟨_, rfl⟩
  rw [← mentions_missing hkey hfound]
  constructor
  · rintro ⟨d, hd, hcode, hpath⟩
    obtain ⟨f, hmem, part, hpart, hd⟩ := (mem_of_collect h).mp hd
    -- only the field itself reports at its path
    obtain rfl : f = (head, type) := by
      obtain ⟨above, habove⟩ := hnamed f hmem
      by_contra hne
      refine fieldOutcome_elsewhere hw habove (fun heq => hne ?_) (hfree f hmem above habove) part
        hpart d hd hpath
      exact List.inj_on_of_nodup_map hdistinct hmem hf (by rw [habove, hkey, heq])
    rw [houtcome, hfound] at hpart
    cases hpart
    exact ⟨d, hd, hcode, hpath⟩
  · rintro ⟨d, hd, hcode, hpath⟩
    exact ⟨d, (mem_of_collect h).mpr ⟨_, hf, found, houtcome.trans hfound, hd⟩, hcode, hpath⟩

/-- A field that an object lacks is reported missing exactly if it is not optional, has no default,
and its type is not written as `absent`. -/
theorem fieldMissing_iff (c : Catalog) {declared : List (FieldHead × Node)} {head : FieldHead}
    {type : Node} {key : String} {fields : List (String × Json)} {path : String} {scope : Scope}
    {ds : List Diagnostic} (hnamed : (Node.record declared).FieldsNamed)
    (hdistinct : (declared.map fun f => f.1.name).Nodup) (hf : (head, type) ∈ declared)
    (hkey : head.name = .string key) (hnone : lookup key fields = none)
    (hfree : ∀ f ∈ declared, ∀ above, f.1.name = .string above →
      (lookup above fields).isSome = true → ¬Shadows above key)
    (h : c.checkSlot (m := Except Fault) (.record declared) (some (.object fields)) path scope =
      .ok ds) :
    Mentions .fieldMissing s!"{path}.{key}" ds ↔
      head.optional = false ∧ head.default.isNull = true ∧ type.isAbsent = false := by
  rw [checkSlot_eq] at h
  obtain ⟨own, hown, rfl⟩ := Outcome.under_eq_ok.mp h
  obtain ⟨fuel, hfuel⟩ : ∃ fuel, c.budget (.record declared) (some (.object fields)) = fuel + 1 := by
    cases hb : c.budget (.record declared) (some (.object fields)) with
    | zero => rw [hb] at hown; cases hown
    | succ fuel => exact ⟨fuel, rfl⟩
  rw [hfuel, outcome_succ] at hown
  rw [path_member, mentions_under,
    mentions_fields (outcome_below fuel) hnamed hdistinct hf hkey hnone hfree hown]
  simp [MayBeMissing]

/-- A decision on an application: a reason if it is rejected, and no date any more. -/
def decision : List (FieldHead × Node) :=
  [(⟨.string "status", false, .null⟩, .named (.string "String") []),
    (⟨.string "reason", false, .null⟩, .conditional isRejected
      (.named (.string "String") [⟨.string "min", [], .int 3⟩]) .absent),
    (⟨.string "date", false, .null⟩, .absent)]

/-- A decision that is not made yet. -/
def draft : List (String × Json) := [("status", .string "Draft")]

theorem decision_named : (Node.record decision).FieldsNamed ∧
    (decision.map fun f => f.1.name).Nodup ∧
    ∀ f ∈ decision, ∀ above, f.1.name = .string above → (lookup above draft).isSome = true →
      ∀ key ∈ ["reason", "date"], ¬Shadows above key := by
  refine ⟨by simp [Node.FieldsNamed, decision], by simp [decision], ?_⟩
  intro f hf above habove hpresent key hkey hshadows
  obtain rfl : above = "status" := by
    by_contra hne
    simp [draft, lookup, Ne.symm hne] at hpresent
  have hstarts : ∀ key ∈ ["reason", "date"], ¬"status".toList <+: key.toList := by decide
  exact hstarts key hkey hshadows.toList_le

/-- Of a draft, the reason is reported missing and the date is not. -/
theorem draft_fieldMissing :
    empty.checkSlot (m := Except Fault) (.record decision) (some (.object draft)) "$"
      (.atRoot (some (.object draft))) =
        .ok [⟨"$.reason", .fieldMissing, "Missing required field."⟩] ∧
    Mentions .fieldMissing "$.reason" [⟨"$.reason", .fieldMissing, "Missing required field."⟩] ∧
    ¬Mentions .fieldMissing "$.date" [⟨"$.reason", .fieldMissing, "Missing required field."⟩] := by
  have found : empty.checkSlot (m := Except Fault) (.record decision) (some (.object draft)) "$"
      (.atRoot (some (.object draft))) =
        .ok [⟨"$.reason", .fieldMissing, "Missing required field."⟩] := by decide +kernel
  obtain ⟨hnamed, hdistinct, hfree⟩ := decision_named
  have reason := fieldMissing_iff empty hnamed hdistinct
    (List.mem_cons_of_mem _ List.mem_cons_self) rfl rfl
    (fun f hf above habove hpresent => hfree f hf above habove hpresent "reason" (by simp)) found
  have date := fieldMissing_iff empty hnamed hdistinct
    (List.mem_cons_of_mem _ (List.mem_cons_of_mem _ List.mem_cons_self)) rfl rfl
    (fun f hf above habove hpresent => hfree f hf above habove hpresent "date" (by simp)) found
  exact ⟨found, reason.mpr ⟨rfl, rfl, rfl⟩, fun h => by cases (date.mp h).2.2⟩

/-! ### Types that come to `absent` -/

/-- A type ends up as `absent` under what guards are asked about, through plain references and the
branches that guards select. -/
inductive ComesToAbsent (c : Catalog) (g : Slot) : Node → Prop
  | absent : ComesToAbsent c g .absent
  | named {name n} (hname : c.type? name = .ok (some (.defined n))) (h : ComesToAbsent c g n) :
    ComesToAbsent c g (.named name [])
  | yes {condition yes no} (hg : condition.guard.evaluate g = some true)
      (h : ComesToAbsent c g yes) : ComesToAbsent c g (.conditional condition yes no)
  | no {condition yes no} (hg : condition.guard.evaluate g = some false)
      (h : ComesToAbsent c g no) : ComesToAbsent c g (.conditional condition yes no)

/-- Whatever is put in the place of a field is reported as something that must be absent. -/
def MustBeAbsent (c : Catalog) (type : Node) (key : String) (fields : List (String × Json))
    (path : String) (scope : Scope) : Prop :=
  ∀ v, ∃ ds, c.checkSlot (m := Except Fault) type (some v) s!"{path}.{key}"
    (scope.inside v (.object (put key v fields))) = .ok ds ∧
    Mentions .fieldMustBeAbsent s!"{path}.{key}" ds

theorem ComesToAbsent.outcome {n : Node} (h : c.ComesToAbsent g n) (v : Json) : ∃ fuel,
    c.outcome fuel ⟨n, some v, g⟩ =
      .ok [⟨"", .fieldMustBeAbsent, "Expected field to be absent."⟩] := by
  induction h with
  | absent => exact ⟨1, rfl⟩
  | named hname _ ih =>
    obtain ⟨fuel, hfuel⟩ := ih
    refine ⟨fuel + 1, ?_⟩
    rw [outcome_succ]
    simp [step, namedOutcome, hname, typeOutcome, hfuel]
  | yes hg _ ih | no hg _ ih =>
    obtain ⟨fuel, hfuel⟩ := ih
    refine ⟨fuel + 1, ?_⟩
    rw [outcome_succ]
    simp [step, hg, hfuel]

/-- No value is accepted by a type that comes to `absent`. -/
theorem mustBeAbsent_of_comesToAbsent {path : String} {scope : Scope}
    (h : ∀ v, c.ComesToAbsent (some (.object (put key v fields))) type) :
    c.MustBeAbsent type key fields path scope := by
  intro v
  obtain ⟨fuel, hfuel⟩ := (h v).outcome v
  have hbudget := (outcome_budget (k := fuel) (by rw [hfuel]; simp)).trans hfuel
  rw [checkSlot_eq]
  refine ⟨_, congrArg (Outcome.under _) hbudget, ?_⟩
  simp [Mentions, Diagnostic.under]

/-- A reason is not accepted with a draft, and the draft without one is reported to lack it. And
where one field is named like the path through another one, the diagnostics inside that one stand at
the path of a field that is written as `absent`. -/
theorem rejected_both_ways :
    (empty.MustBeAbsent (.conditional isRejected
        (.named (.string "String") [⟨.string "min", [], .int 3⟩]) .absent) "reason" draft "$"
        (.atRoot (some (.object draft))) ∧
      lookup "reason" draft = none ∧
      empty.checkSlot (m := Except Fault) (.record decision) (some (.object draft)) "$"
        (.atRoot (some (.object draft))) =
          .ok [⟨"$.reason", .fieldMissing, "Missing required field."⟩]) ∧
    (empty.MustBeAbsent .absent "a.b" [("a", .object [])] "$"
        (.atRoot (some (.object [("a", .object [])]))) ∧
      lookup "a.b" [("a", Json.object [])] = none ∧
      empty.checkSlot (m := Except Fault) (.record
        [(⟨.string "a", false, .null⟩, .record
          [(⟨.string "b", false, .null⟩, .named (.string "String") [])]),
        (⟨.string "a.b", false, .null⟩, .absent)])
        (some (.object [("a", .object [])])) "$" (.atRoot (some (.object [("a", .object [])]))) =
          .ok [⟨"$.a.b", .fieldMissing, "Missing required field."⟩]) := by
  refine ⟨⟨mustBeAbsent_of_comesToAbsent fun v => .no rfl .absent, rfl, by decide +kernel⟩,
    mustBeAbsent_of_comesToAbsent fun v => .absent, rfl, by decide +kernel⟩

end Catalog

end DocSchema
