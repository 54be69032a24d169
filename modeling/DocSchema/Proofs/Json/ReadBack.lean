import DocSchema.Proofs.Json.Distinct
import DocSchema.Proofs.Json.NumberText
import DocSchema.Proofs.Json.StringText

/-!
The JSON text of a value reads back as that value.

Every style separates with a comma and a colon and nothing but white space behind them. What is read
starts with no white space (`exists_of_readValue`), so the reader finds each part of a container
where the writer put it. An object is read field by field into the fields before it, and without
repeated keys each field goes to the end (`put_of_not_mem`). Numbers end where a separator or the end
of a container comes, so a value reads back in front of either: `readsBack`. Main statements:
`Json.read_toText`, and that two values with one text are the same value, `Json.toText_injective`.
-/

namespace DocSchema

/-! ### The numbers of a value -/

namespace Json

mutual

/-- Every number in the value has a property. -/
def EachNumber (p : Number → Prop) : Json → Prop
  | .number n => p n
  | .array items => EachNumberAll p items
  | .object fields => EachNumberFields p fields
  | _ => True

def EachNumberAll (p : Number → Prop) : List Json → Prop
  | [] => True
  | v :: rest => v.EachNumber p ∧ EachNumberAll p rest

def EachNumberFields (p : Number → Prop) : List (String × Json) → Prop
  | [] => True
  | (_, v) :: rest => v.EachNumber p ∧ EachNumberFields p rest

end

variable {p : Number → Prop}

theorem eachNumber_array {items : List Json} :
    (array items).EachNumber p ↔ ∀ v ∈ items, v.EachNumber p := by
  rw [EachNumber]
  induction items with
  | nil => simp [EachNumberAll]
  | cons v items ih => rw [EachNumberAll, ih, List.forall_mem_cons]

theorem eachNumber_object {fields : List (String × Json)} :
    (object fields).EachNumber p ↔ ∀ f ∈ fields, f.2.EachNumber p := by
  rw [EachNumber]
  induction fields with
  | nil => simp [EachNumberFields]
  | cons f fields ih => rw [EachNumberFields, ih, List.forall_mem_cons]

/-! ### Separators -/

/-- The separators are a comma and a colon, with nothing but white space behind them. -/
structure TextStyle.Separates (style : TextStyle) : Prop where
  item : ∃ gap, style.itemSeparator = ',' :: gap ∧ ∀ c ∈ gap, Reader.isSpace c = true
  key : ∃ gap, style.keySeparator = ':' :: gap ∧ ∀ c ∈ gap, Reader.isSpace c = true

theorem spaced_separates : spaced.Separates :=
  ⟨⟨[' '], rfl, List.forall_mem_singleton.mpr rfl⟩, ⟨[' '], rfl, List.forall_mem_singleton.mpr rfl⟩⟩

theorem compact_separates : compact.Separates :=
  ⟨⟨[], rfl, List.forall_mem_nil _⟩, ⟨[], rfl, List.forall_mem_nil _⟩⟩

theorem writeItems_cons (style : TextStyle) (v : Json) (items : List Json) :
    writeItems style true (v :: items) = v.write style ++ writeItems style false items := by
  simp [writeItems]

theorem writeItems_more (style : TextStyle) (v : Json) (items : List Json) :
    writeItems style false (v :: items) =
      style.itemSeparator ++ writeItems style true (v :: items) := by
  simp [writeItems]

theorem writeFields_cons (style : TextStyle) (f : String × Json) (fields : List (String × Json)) :
    writeFields style true (f :: fields) =
      '"' :: (f.1.toList.flatMap (escapeChar style.asciiOnly) ++ '"' ::
        (style.keySeparator ++ (f.2.write style ++ writeFields style false fields))) := by
  simp [writeFields, stringText]

theorem writeFields_more (style : TextStyle) (f : String × Json) (fields : List (String × Json)) :
    writeFields style false (f :: fields) =
      style.itemSeparator ++ writeFields style true (f :: fields) := by
  simp [writeFields]

end Json

/-- A new key goes to the end. -/
theorem put_of_not_mem {α : Type} {key : String} {v : α} {l : List (String × α)}
    (h : key ∉ l.map Prod.fst) : put key v l = l ++ [(key, v)] := by
  induction l with
  | nil => rfl
  | cons f l ih =>
    obtain ⟨k, w⟩ := f
    rw [List.map_cons, List.mem_cons, not_or] at h
    rw [put, if_neg (Ne.symm h.1), ih h.2, List.cons_append]

namespace Reader

/-! ### White space -/

theorem skipSpace_cons {c : Char} (h : isSpace c = false) (cs : List Char) :
    skipSpace (c :: cs) = c :: cs := by
  rw [skipSpace, if_neg (by simp [h])]

theorem skipSpace_append {gap : List Char} (h : ∀ c ∈ gap, isSpace c = true) (cs : List Char) :
    skipSpace (gap ++ cs) = skipSpace cs := by
  induction gap with
  | nil => rfl
  | cons c gap ih =>
    obtain ⟨hc, hgap⟩ := List.forall_mem_cons.mp h
    rw [List.cons_append, skipSpace, if_pos hc, ih hgap]

/-- What is read starts with neither white space nor the end of an array. -/
theorem exists_of_readValue {strict : Bool} {fuel : Nat} {cs : List Char} {r : Json × List Char}
    (h : readValue strict fuel cs = .ok r) :
    ∃ c tail, cs = c :: tail ∧ isSpace c = false ∧ c ≠ ']' ∧ c ≠ '\uFEFF' := by
  cases fuel with
  | zero => cases h
  | succ fuel =>
    cases cs with
    | nil => cases h
    | cons c tail =>
      refine ⟨c, tail, rfl, ?_, ?_, ?_⟩
      · rw [← Bool.not_eq_true]
        intro hspace
        simp only [isSpace, Bool.or_eq_true, decide_eq_true_eq] at hspace
        rcases hspace with ((rfl | rfl) | rfl) | rfl <;> cases h
      · rintro rfl
        cases h
      · rintro rfl
        cases h

/-! ### One part of a container -/

section Step

variable {strict : Bool} {fuel : Nat} {v : Json} {cs rest : List Char}

theorem readItems_last (h : readValue strict fuel cs = .ok (v, ']' :: rest)) (done : List Json) :
    readItems strict (fuel + 1) done cs = .ok (.array (done.reverse ++ [v]), rest) := by
  rw [readItems, h, ← List.reverse_cons]
  rfl

theorem readItems_more (h : readValue strict fuel cs = .ok (v, ',' :: rest)) (done : List Json) :
    readItems strict (fuel + 1) done cs = readItems strict fuel (v :: done) (skipSpace rest) := by
  rw [readItems, h]
  rfl

variable {key : String} {text after : List Char}

theorem readFields_last (hkey : readString ('"' :: text) text = .ok (key, ':' :: after))
    (h : readValue strict fuel (skipSpace after) = .ok (v, '\x7d' :: rest))
    (done : List (String × Json)) :
    readFields strict (fuel + 1) done ('"' :: text) = .ok (.object (put key v done), rest) := by
  have hcolon : skipSpace (':' :: after) = ':' :: after := rfl
  have hend : skipSpace ('\x7d' :: rest) = '\x7d' :: rest := rfl
  simp only [readFields, hkey, hcolon, h, hend]

theorem readFields_more (hkey : readString ('"' :: text) text = .ok (key, ':' :: after))
    (h : readValue strict fuel (skipSpace after) = .ok (v, ',' :: rest))
    (done : List (String × Json)) :
    readFields strict (fuel + 1) done ('"' :: text) =
      readFields strict fuel (put key v done) (skipSpace rest) := by
  have hcolon : skipSpace (':' :: after) = ':' :: after := rfl
  have hcomma : skipSpace (',' :: rest) = ',' :: rest := rfl
  simp only [readFields, hkey, hcolon, h, hcomma]

theorem readValue_items {c : Char} (hspace : isSpace c = false) (hend : c ≠ ']') (fuel : Nat)
    (tail : List Char) :
    readValue strict (fuel + 1) ('[' :: c :: tail) = readItems strict fuel [] (c :: tail) := by
  rw [readValue, skipSpace_cons hspace]
  split
  · next heq =>
    cases heq
    exact absurd rfl hend
  · rfl

theorem readValue_fields (fuel : Nat) (tail : List Char) :
    readValue strict (fuel + 1) ('\x7b' :: '"' :: tail) = readFields strict fuel [] ('"' :: tail) :=
  rfl

end Step

/-! ### Values -/

theorem stops_cons {c : Char} (h : isDecimal c = false ∧ c ≠ '.' ∧ c ≠ 'e' ∧ c ≠ 'E')
    (cs : List Char) : Stops (c :: cs) := by
  rintro _ ⟨⟩
  exact h

/-- What is read as a scalar starts with neither a quote nor a bracket. -/
theorem readValue_scalar {strict : Bool} {cs : List Char} {r : Json × List Char}
    (h : readScalar strict cs = .ok r) (fuel : Nat) : readValue strict (fuel + 1) cs = .ok r := by
  rw [readValue, h]
  all_goals
    rintro rest rfl
    cases h

/-- The text of a value reads back in front of everything that does not go on with a number, with
more fuel than characters. -/
def ReadsBack (style : Json.TextStyle) (v : Json) : Prop :=
  ∀ (fuel : Nat) (rest : List Char), (v.write style).length < fuel → Stops rest →
    readValue false fuel (v.write style ++ rest) = .ok (v, rest)

variable {style : Json.TextStyle}

theorem skipSpace_write {v : Json} (hv : ReadsBack style v) {gap : List Char}
    (hgap : ∀ c ∈ gap, isSpace c = true) {rest : List Char} (hrest : Stops rest) :
    skipSpace (gap ++ (v.write style ++ rest)) = v.write style ++ rest := by
  obtain ⟨c, tail, htext, hc, -⟩ := exists_of_readValue (hv _ rest (Nat.lt_succ_self _) hrest)
  rw [skipSpace_append hgap, htext, skipSpace_cons hc]

/-- The items behind the first one start with a comma, or the array ends. -/
theorem stops_writeItems (hstyle : style.Separates) (items : List Json) (rest : List Char) :
    Stops (Json.writeItems style false items ++ ']' :: rest) := by
  cases items with
  | nil => exact stops_cons (by decide) rest
  | cons v items =>
    obtain ⟨gap, hsep, -⟩ := hstyle.item
    rw [Json.writeItems_more, hsep]
    exact stops_cons (by decide) _

/-- The items of an array are read behind those that were read before. -/
theorem readItems_write (hstyle : style.Separates) {items : List Json} (hne : items ≠ [])
    (hitems : ∀ v ∈ items, ReadsBack style v) (done : List Json) (rest : List Char) (fuel : Nat)
    (hfuel : (Json.writeItems style true items).length + 1 < fuel) :
    readItems false fuel done (Json.writeItems style true items ++ ']' :: rest) =
      .ok (.array (done.reverse ++ items), rest) := by
  induction items generalizing done fuel with
  | nil => exact absurd rfl hne
  | cons v items ih =>
    obtain ⟨hv, hmore⟩ := List.forall_mem_cons.mp hitems
    obtain ⟨fuel, rfl⟩ := Nat.exists_eq_succ_of_ne_zero (Nat.ne_zero_of_lt hfuel)
    rw [Json.writeItems_cons, List.length_append] at hfuel
    have hread := hv fuel _ (by omega) (stops_writeItems hstyle items rest)
    rw [Json.writeItems_cons, List.append_assoc]
    cases items with
    | nil => exact readItems_last hread done
    | cons w items =>
      obtain ⟨gap, hsep, hgap⟩ := hstyle.item
      have hnext := ih (List.cons_ne_nil _ _) hmore (v :: done) fuel
      have hskip := skipSpace_write (hmore w List.mem_cons_self) hgap
        (stops_writeItems hstyle items rest)
      rw [← List.append_assoc (w.write style), ← Json.writeItems_cons] at hskip
      rw [Json.writeItems_more, hsep, List.cons_append, List.cons_append, List.append_assoc]
        at hread ⊢
      rw [readItems_more hread, hskip, hnext]
      · simp
      · rw [Json.writeItems_more, hsep, List.length_append, List.length_cons] at hfuel
        omega

/-- The fields behind the first one start with a comma, or the object ends. -/
theorem stops_writeFields (hstyle : style.Separates) (fields : List (String × Json))
    (rest : List Char) : Stops (Json.writeFields style false fields ++ '\x7d' :: rest) := by
  cases fields with
  | nil => exact stops_cons (by decide) rest
  | cons f fields =>
    obtain ⟨gap, hsep, -⟩ := hstyle.item
    rw [Json.writeFields_more, hsep]
    exact stops_cons (by decide) _

/-- The fields of an object are read behind those that were read before. -/
theorem readFields_write (hstyle : style.Separates) {fields : List (String × Json)}
    (hne : fields ≠ []) (hfields : ∀ f ∈ fields, ReadsBack style f.2)
    (done : List (String × Json)) (hkeys : ((done ++ fields).map Prod.fst).Nodup)
    (rest : List Char) (fuel : Nat)
    (hfuel : (Json.writeFields style true fields).length + 1 < fuel) :
    readFields false fuel done (Json.writeFields style true fields ++ '\x7d' :: rest) =
      .ok (.object (done ++ fields), rest) := by
  induction fields generalizing done fuel with
  | nil => exact absurd rfl hne
  | cons f fields ih =>
    obtain ⟨k, v⟩ := f
    obtain ⟨(hv : ReadsBack style v), hmore⟩ := List.forall_mem_cons.mp hfields
    obtain ⟨fuel, rfl⟩ := Nat.exists_eq_succ_of_ne_zero (Nat.ne_zero_of_lt hfuel)
    obtain ⟨colonGap, hcolon, hcolonGap⟩ := hstyle.key
    have hstops := stops_writeFields hstyle fields rest
    simp only [Json.writeFields_cons, List.length_cons, List.length_append] at hfuel
    have hkey := readString_text style.asciiOnly k
    have hread := hv fuel _ (by omega) hstops
    rw [← skipSpace_write hv hcolonGap hstops] at hread
    have hput : put k v done = done ++ [(k, v)] := by
      rw [List.map_append, List.map_cons, List.nodup_append] at hkeys
      exact put_of_not_mem fun hk => hkeys.2.2 k hk k List.mem_cons_self rfl
    rw [Json.writeFields_cons, hcolon]
    simp only [List.cons_append, List.append_assoc]
    cases fields with
    | nil => rw [readFields_last (hkey _ _) hread, hput]
    | cons g fields =>
      obtain ⟨gap, hsep, hgap⟩ := hstyle.item
      have hnext := ih (List.cons_ne_nil _ _) hmore (done ++ [(k, v)]) (by simpa using hkeys) fuel
      have hskip : skipSpace (Json.writeFields style true (g :: fields) ++ '\x7d' :: rest) =
          Json.writeFields style true (g :: fields) ++ '\x7d' :: rest := by
        rw [Json.writeFields_cons]
        rfl
      rw [Json.writeFields_more, hsep, List.cons_append, List.cons_append, List.append_assoc]
        at hread ⊢
      rw [readFields_more (hkey _ _) hread, hput, skipSpace_append hgap, hskip, hnext]
      · simp
      · rw [Json.writeFields_more, hsep, List.length_append, List.length_cons] at hfuel
        omega

/-- More fuel than characters is some fuel. -/
theorem readsBack_of_succ {v : Json} (h : ∀ (fuel : Nat) (rest : List Char),
    (v.write style).length ≤ fuel → Stops rest →
      readValue false (fuel + 1) (v.write style ++ rest) = .ok (v, rest)) : ReadsBack style v := by
  intro fuel rest hfuel hrest
  obtain ⟨fuel, rfl⟩ := Nat.exists_eq_succ_of_ne_zero (Nat.ne_zero_of_lt hfuel)
  exact h fuel rest (Nat.le_of_lt_succ hfuel) hrest

theorem readsBack_string (s : String) : ReadsBack style (.string s) := by
  refine readsBack_of_succ fun fuel rest _ _ => ?_
  have htext : (Json.string s).write style ++ rest =
      '"' :: (s.toList.flatMap (Json.escapeChar style.asciiOnly) ++ '"' :: rest) := by
    simp [Json.write, Json.stringText]
  rw [htext, readValue, readString_text]
  rfl

theorem readsBack_array (hstyle : style.Separates) {items : List Json}
    (hitems : ∀ v ∈ items, ReadsBack style v) : ReadsBack style (.array items) := by
  refine readsBack_of_succ fun fuel rest hfuel _ => ?_
  cases items with
  | nil => rfl
  | cons v items =>
    have htext : (Json.array (v :: items)).write style ++ rest =
        '[' :: (Json.writeItems style true (v :: items) ++ ']' :: rest) := by
      simp [Json.write]
    have hlength := congrArg List.length htext
    simp only [List.length_append, List.length_cons] at hlength
    have hread := readItems_write hstyle (List.cons_ne_nil v items) hitems [] rest fuel
      (by omega)
    obtain ⟨c, tail, hstart, hspace, hend, -⟩ := exists_of_readValue
      (hitems v List.mem_cons_self _ _ (Nat.lt_succ_self _) (stops_writeItems hstyle items rest))
    rw [← List.append_assoc, ← Json.writeItems_cons] at hstart
    rw [hstart] at hread
    rw [htext, hstart, readValue_items hspace hend, hread]
    rfl

theorem readsBack_object (hstyle : style.Separates) {fields : List (String × Json)}
    (hkeys : (fields.map Prod.fst).Nodup) (hfields : ∀ f ∈ fields, ReadsBack style f.2) :
    ReadsBack style (.object fields) := by
  refine readsBack_of_succ fun fuel rest hfuel _ => ?_
  cases fields with
  | nil => rfl
  | cons f fields =>
    have htext : (Json.object (f :: fields)).write style ++ rest =
        '\x7b' :: (Json.writeFields style true (f :: fields) ++ '\x7d' :: rest) := by
      simp [Json.write]
    have hlength := congrArg List.length htext
    simp only [List.length_append, List.length_cons] at hlength
    have hread := readFields_write hstyle (List.cons_ne_nil f fields) hfields [] hkeys rest
      fuel (by omega)
    rw [Json.writeFields_cons, List.cons_append] at htext hread
    rw [htext, readValue_fields, hread]
    rfl

/-- The text of every value reads back whose objects repeat no key and whose integers have no more
digits than are read. -/
theorem readsBack (hstyle : style.Separates) {v : Json} (hv : v.Distinct)
    (hn : v.EachNumber Number.Readable) : ReadsBack style v := by
  induction v using Json.parts_induction with
  | null => exact readsBack_of_succ fun _ _ _ _ => rfl
  | bool b => cases b <;> exact readsBack_of_succ fun _ _ _ _ => rfl
  | number n =>
    exact readsBack_of_succ fun fuel rest _ hrest =>
      readValue_scalar (readScalar_numberText hn hrest) fuel
  | string s => exact readsBack_string s
  | array items ih =>
    rw [Json.distinct_array] at hv
    rw [Json.eachNumber_array] at hn
    exact readsBack_array hstyle fun v hmem => ih v hmem (hv v hmem) (hn v hmem)
  | object fields ih =>
    rw [Json.distinct_object] at hv
    rw [Json.eachNumber_object] at hn
    exact readsBack_object hstyle hv.1 fun f hmem => ih f hmem (hv.2 f hmem) (hn f hmem)

end Reader

namespace Json

variable {style : TextStyle} {v w : Json}

/-- A value is read from its text. -/
theorem read_toText (hstyle : style.Separates) (hv : v.Distinct)
    (hn : v.EachNumber Number.Readable) : read false (v.toText style) = .ok v := by
  have hread := Reader.readsBack hstyle hv hn (2 * (v.write style).length + 2) [] (by omega)
    (by rintro c ⟨⟩)
  rw [List.append_nil] at hread
  obtain ⟨c, tail, hstart, hspace, -, hmark⟩ := Reader.exists_of_readValue hread
  have hall : Reader.readAll false (v.write style) = .ok v := by
    rw [hstart] at hread ⊢
    rw [Reader.readAll, Reader.skipSpace_cons hspace, hread]
    · rfl
    · rintro _ ⟨⟩
      exact hmark rfl
  rw [read, toText, String.toList_ofList, hall]
  rfl

/-- Values with one text are the same value. -/
theorem toText_injective (hstyle : style.Separates) (hv : v.Distinct)
    (hvn : v.EachNumber Number.Readable) (hw : w.Distinct) (hwn : w.EachNumber Number.Readable)
    (h : v.toText style = w.toText style) : v = w := by
  have hread := read_toText hstyle hv hvn
  rw [h, read_toText hstyle hw hwn] at hread
  exact (Except.ok.inj hread).symm

end Json

end DocSchema
