import DocSchema.Proofs.Constraint.Operand
import DocSchema.Proofs.Walk.Fuel
import DocSchema.Proofs.Walk.Location

/-!
Paths identify positions.

A path is written without escapes, one step behind the other, so a key that has a dot or a bracket can
be written like the path through another one. Other keys cannot: behind a key the path ends or goes on
at a dot or a bracket, an index is all digits, and the mark of a key follows a bracket where an index
has a digit. So the first step can be told from a path and taken off (`Step.text_append_inj`), and step
by step positions with the same path are the same (`Position.text_inj`).

The walk writes these paths and no others (`reported_iff`). What it reports stands at the position of a
part of the document, unless a field is missing (`outcome_points`), and for each position there is a
node that has the walk report there (`probe_reports`). Main statement: `path_identifies`.
-/

namespace DocSchema

/-! ### Keys -/

/-- A path goes on behind a key at a dot or a bracket, so there is neither in the key. -/
def PlainKey (key : String) : Prop := ∀ c ∈ key.toList, c ≠ '.' ∧ c ≠ '['

namespace Json

mutual

/-- A property of every key in a value. -/
def EachKey (p : String → Prop) : Json → Prop
  | .array items => EachKeyAll p items
  | .object fields => EachKeyFields p fields
  | _ => True

def EachKeyAll (p : String → Prop) : List Json → Prop
  | [] => True
  | v :: rest => v.EachKey p ∧ EachKeyAll p rest

def EachKeyFields (p : String → Prop) : List (String × Json) → Prop
  | [] => True
  | (k, v) :: rest => (p k ∧ v.EachKey p) ∧ EachKeyFields p rest

end

variable {p : String → Prop}

theorem eachKey_array {items : List Json} :
    (array items).EachKey p ↔ ∀ v ∈ items, v.EachKey p := by
  rw [EachKey]
  induction items with
  | nil => simp [EachKeyAll]
  | cons v items ih => rw [EachKeyAll, ih, List.forall_mem_cons]

theorem eachKey_object {fields : List (String × Json)} :
    (object fields).EachKey p ↔ ∀ f ∈ fields, p f.1 ∧ f.2.EachKey p := by
  rw [EachKey]
  induction fields with
  | nil => simp [EachKeyFields]
  | cons f fields ih => rw [EachKeyFields, ih, List.forall_mem_cons]

end Json

/-! ### Positions that lead somewhere -/

namespace Json

variable {place : Position} {v w : Json}

theorem at?_member {k : String} (h : v.at? (.member k :: place) = some w) :
    ∃ fields u, v = .object fields ∧ lookup k fields = some u ∧ u.at? place = some w := by
  cases v with
  | object fields =>
    obtain ⟨u, hu, hplace⟩ : ∃ u, lookup k fields = some u ∧ u.at? place = some w := by
      simpa [at?, Option.bind_eq_some_iff] using h
    exact ⟨fields, u, rfl, hu, hplace⟩
  | _ => simp [at?] at h

theorem at?_item {i : Nat} (h : v.at? (.item i :: place) = some w) :
    ∃ items u, v = .array items ∧ items[i]? = some u ∧ u.at? place = some w := by
  cases v with
  | array items =>
    obtain ⟨u, hu, hplace⟩ : ∃ u, items[i]? = some u ∧ u.at? place = some w := by
      simpa [at?, Option.bind_eq_some_iff] using h
    exact ⟨items, u, rfl, hu, hplace⟩
  | _ => simp [at?] at h

theorem at?_key {k : String} (h : v.at? (.key k :: place) = some w) :
    place = [] ∧ ∃ fields u, v = .object fields ∧ lookup k fields = some u := by
  cases place with
  | cons t place => cases v <;> simp [at?] at h
  | nil =>
    cases v with
    | object fields =>
      obtain ⟨⟨u, hu⟩, -⟩ : (∃ u, lookup k fields = some u) ∧ Json.string k = w := by
        simpa [at?] using h
      exact ⟨rfl, fields, u, rfl, hu⟩
    | _ => simp [at?] at h

end Json

/-- The keys on the way are plain, and a step to a key is the last one. -/
def Position.Plain : Position → Prop
  | [] => True
  | .member k :: rest => PlainKey k ∧ Position.Plain rest
  | .item _ :: rest => Position.Plain rest
  | [.key _] => True
  | .key _ :: _ :: _ => False

theorem Position.Plain.tail {t : Step} {place : Position} (h : Position.Plain (t :: place)) :
    Position.Plain place := by
  cases t with
  | member k => exact h.2
  | item i => exact h
  | key k =>
    cases place with
    | nil => trivial
    | cons => exact h.elim

/-- Where the keys are plain, a position that leads somewhere is plain. -/
theorem Position.plain_of_at? {place : Position} {v w : Json} (hv : v.EachKey PlainKey)
    (h : v.at? place = some w) : Position.Plain place := by
  induction place generalizing v with
  | nil => trivial
  | cons t place ih =>
    cases t with
    | member k =>
      obtain ⟨fields, u, rfl, hu, hplace⟩ := Json.at?_member h
      obtain ⟨hk, hplain⟩ := Json.eachKey_object.mp hv _ (mem_of_lookup hu)
      exact ⟨hk, ih hplain hplace⟩
    | item i =>
      obtain ⟨items, u, rfl, hu, hplace⟩ := Json.at?_item h
      have hplain := Json.eachKey_array.mp hv u (List.mem_of_getElem? hu)
      exact ih hplain hplace
    | key k =>
      obtain ⟨rfl, -⟩ := Json.at?_key h
      trivial

/-! ### Steps taken off a path -/

/-- Texts in which nothing stops, each with nothing behind it or with a stop, can be told from the
whole. -/
theorem append_inj_of_stop {stop : Char → Prop} {as bs cs ds : List Char}
    (ha : ∀ a ∈ as, ¬stop a) (hb : ∀ b ∈ bs, ¬stop b) (hc : ∀ c ∈ cs.head?, stop c)
    (hd : ∀ d ∈ ds.head?, stop d) (h : as ++ cs = bs ++ ds) : as = bs ∧ cs = ds := by
  rcases List.append_eq_append_iff.mp h with ⟨more, rfl, hrest⟩ | ⟨more, rfl, hrest⟩
  · cases more with
    | nil => exact ⟨(List.append_nil as).symm, hrest⟩
    | cons x more => exact absurd (hc x (by simp [hrest])) (hb x (by simp))
  · cases more with
    | nil => exact ⟨List.append_nil bs, hrest.symm⟩
    | cons x more => exact absurd (hd x (by simp [hrest])) (ha x (by simp))

namespace Step

theorem toList_member (k : String) : (member k).text.toList = '.' :: k.toList := by
  simp [text, toString, String.toList_append]

theorem toList_item (i : Nat) : (item i).text.toList = '[' :: (Nat.toDigits 10 i ++ [']']) := by
  simp [text, toString, String.toList_append, Nat.repr_eq_ofList_toDigits]

theorem toList_key (k : String) :
    (key k).text.toList = '.' :: '[' :: 'k' :: 'e' :: 'y' :: ':' :: (k.toList ++ [']']) := by
  simp [text, toString, String.toList_append]

end Step

namespace Position

/-- A path starts at a dot or a bracket. -/
theorem head_text (place : Position) :
    ∀ c ∈ (Position.text place).toList.head?, c = '.' ∨ c = '[' := by
  cases place with
  | nil => simp [Position.text]
  | cons t place =>
    rw [Position.text, String.toList_append]
    cases t with
    | member k => simp [Step.toList_member]
    | item i => simp [Step.toList_item]
    | key k => simp [Step.toList_key]

theorem text_cons_ne_empty (t : Step) (place : Position) : Position.text (t :: place) ≠ "" := by
  intro h
  have hchars := congrArg String.toList h
  rw [Position.text, String.toList_append] at hchars
  cases t with
  | member k => simp [Step.toList_member] at hchars
  | item i => simp [Step.toList_item] at hchars
  | key k => simp [Step.toList_key] at hchars

end Position

namespace Step

variable {p q : Position}

theorem member_append_inj {k j : String} (hk : PlainKey k) (hj : PlainKey j)
    (h : (member k).text ++ Position.text p = (member j).text ++ Position.text q) :
    k = j ∧ Position.text p = Position.text q := by
  have hchars := congrArg String.toList h
  simp only [String.toList_append, toList_member, List.cons_append] at hchars
  obtain ⟨hkey, hrest⟩ := append_inj_of_stop (fun c hc => not_or.mpr (hk c hc))
    (fun c hc => not_or.mpr (hj c hc)) p.head_text q.head_text (List.cons.inj hchars).2
  exact ⟨String.toList_inj.mp hkey, String.toList_inj.mp hrest⟩

theorem item_append_inj {i j : Nat}
    (h : (item i).text ++ Position.text p = (item j).text ++ Position.text q) :
    i = j ∧ Position.text p = Position.text q := by
  have hchars := congrArg String.toList h
  simp only [String.toList_append, toList_item, List.cons_append, List.append_assoc,
    List.nil_append] at hchars
  have hdigits (n : Nat) : ∀ d ∈ Nat.toDigits 10 n, ¬d = ']' := by
    rintro d hd rfl
    exact absurd (Nat.isDigit_of_mem_toDigits (by decide) (by decide) hd) (by decide)
  obtain ⟨hindex, hrest⟩ := append_inj_of_stop (hdigits i) (hdigits j) (by simp) (by simp)
    (List.cons.inj hchars).2
  have hij := congrArg (Nat.ofDigitChars 10 · 0) hindex
  simp only [Nat.ofDigitChars_ten_toDigits] at hij
  exact ⟨hij, String.toList_inj.mp (List.cons.inj hrest).2⟩

theorem key_inj {k j : String} (h : (key k).text = (key j).text) : k = j := by
  have hchars := congrArg String.toList h
  simp only [toList_key, List.cons.injEq, true_and] at hchars
  exact String.toList_inj.mp (List.append_inj' hchars rfl).1

/-- A key with a path behind it can be told from the mark of a key: the key would be empty, and an
index behind it starts with a digit. -/
theorem member_ne_key {k j : String} (hk : PlainKey k) :
    (member k).text ++ Position.text p ≠ (key j).text := by
  intro h
  have hchars := congrArg String.toList h
  rw [String.toList_append, toList_member, toList_key, List.cons_append] at hchars
  have hrest := (List.cons.inj hchars).2
  cases hkey : k.toList with
  | cons c cs =>
    rw [hkey, List.cons_append, List.cons.injEq] at hrest
    exact (hk c (by simp [hkey])).2 hrest.1
  | nil =>
    rw [hkey, List.nil_append] at hrest
    cases p with
    | nil => simp [Position.text] at hrest
    | cons t p =>
      rw [Position.text, String.toList_append] at hrest
      cases t with
      | member l => simp [toList_member] at hrest
      | key l => simp [toList_key] at hrest
      | item i =>
        obtain ⟨d, ds, hdigits⟩ := List.exists_cons_of_ne_nil (Nat.toDigits_ne_nil (b := 10) (n := i))
        have hdigit : d.isDigit = true :=
          Nat.isDigit_of_mem_toDigits (by decide) (by decide) (hdigits ▸ List.mem_cons_self)
        simp only [toList_item, hdigits, List.cons_append, List.cons.injEq, true_and] at hrest
        rw [hrest.1] at hdigit
        exact absurd hdigit (by decide)

/-- An index starts with a bracket, and the other steps start with a dot. -/
theorem text_ne_item {t : Step} {i : Nat} (ht : ∀ j, t ≠ item j) :
    t.text ++ Position.text p ≠ (item i).text ++ Position.text q := by
  intro h
  have hchars := congrArg String.toList h
  rw [String.toList_append, String.toList_append, toList_item] at hchars
  cases t with
  | item j => exact ht j rfl
  | member k => simp [toList_member] at hchars
  | key k => simp [toList_key] at hchars

/-- The first step can be told from a path, and what is left is the path of the rest. -/
theorem text_append_inj {t u : Step} (hp : Position.Plain (t :: p)) (hq : Position.Plain (u :: q))
    (h : t.text ++ Position.text p = u.text ++ Position.text q) :
    t = u ∧ Position.text p = Position.text q := by
  have last {k : String} {place : Position} (hkey : Position.Plain (.key k :: place)) :
      place = [] := by
    cases place with
    | nil => rfl
    | cons => exact hkey.elim
  cases t with
  | member k =>
    cases u with
    | member j => exact (member_append_inj hp.1 hq.1 h).imp_left (congrArg member)
    | item i => exact absurd h (text_ne_item (by simp))
    | key j =>
      obtain rfl := last hq
      rw [Position.text, String.append_empty] at h
      exact absurd h (member_ne_key hp.1)
  | item i =>
    cases u with
    | item j => exact (item_append_inj h).imp_left (congrArg item)
    | member j | key j => exact absurd h.symm (text_ne_item (by simp))
  | key k =>
    obtain rfl := last hp
    cases u with
    | member j =>
      rw [Position.text, String.append_empty] at h
      exact absurd h.symm (member_ne_key hq.1)
    | item i => exact absurd h (text_ne_item (by simp))
    | key j =>
      obtain rfl := last hq
      rw [Position.text, String.append_empty, String.append_empty] at h
      exact ⟨congrArg key (key_inj h), rfl⟩

end Step

/-- Plain positions with the same path are the same. -/
theorem Position.text_inj {p q : Position} (hp : Position.Plain p) (hq : Position.Plain q)
    (h : Position.text p = Position.text q) : p = q := by
  induction p generalizing q with
  | nil =>
    cases q with
    | nil => rfl
    | cons u q => exact absurd h.symm (text_cons_ne_empty u q)
  | cons t p ih =>
    cases q with
    | nil => exact absurd h (text_cons_ne_empty t p)
    | cons u q =>
      obtain ⟨rfl, hpq⟩ := Step.text_append_inj hp hq h
      rw [ih hp.tail hq.tail hpq]

/-! ### Paths that are reported -/

/-- The position leads to a part of the value. -/
def Json.Has (v : Json) (place : Position) : Prop := ∃ w, v.at? place = some w

/-- The diagnostic is about a missing field, or its path is that of a part of the value. -/
def Diagnostic.Points (v : Json) (d : Diagnostic) : Prop :=
  d.code = .fieldMissing ∨ ∃ place, v.Has place ∧ d.path = Position.text place

/-- Some check of the value, as a whole document, reports at the path, and not that a field is missing
there. -/
def Json.Reported (v : Json) (path : String) : Prop :=
  ∃ (c : Catalog) (n : Node) (ds : List Diagnostic),
    c.checkSlot (m := Except Fault) n (some v) rootPath (.atRoot (some v)) = .ok ds ∧
    ∃ d ∈ ds, d.code ≠ .fieldMissing ∧ d.path = path

namespace Catalog

/-- The walk points at parts of the value, with any fuel. -/
theorem outcome_points (c : Catalog) (fuel : Nat) (x : Call) (v : Json) (hs : x.slot = some v)
    (hv : v.Distinct) : Reports (c.outcome fuel x) (Diagnostic.Points v) := by
  induction fuel generalizing x v with
  | zero => exact .error _
  | succ fuel ih =>
    rw [outcome_succ]
    refine step_reports (fun d hd => .inr ⟨[], ⟨v, v.at?_nil⟩, hd.1⟩) (fun _ _ _ _ f _ _ => ?_)
      (fun y _ hslot => ih y v (hslot.trans hs) hv) fun y v' t u _ hslot hu hys => ?_
    · simp only [missingOutcome]
      split
      · exact .nil
      · exact .single (.inl rfl)
    · obtain rfl : v' = v := by simpa [hslot] using hs
      refine (ih y u hys (hu.distinct hv)).under fun d hd => hd.imp id ?_
      rintro ⟨place, ⟨w, hw⟩, hpath⟩
      exact ⟨t :: place, ⟨w, Json.at?_cons (hu.at? hv) hw⟩, by
        simp [Diagnostic.under, Position.text, hpath]⟩

/-- A node that goes down to a position, where nothing is to be. -/
def probe : Position → Node
  | [] => .absent
  | .member k :: rest => .record [(⟨.string k, true, .null⟩, probe rest)]
  | .item _ :: rest => .arrayOf (probe rest) []
  | .key _ :: rest => .dict (probe rest) (.intersection [])

variable {c : Catalog} {w : Call → Outcome} {g : Slot}

theorem step_field (fields : List (String × Json)) (f : FieldHead × Node) :
    c.step w ⟨.record [f], some (.object fields), g⟩ =
      fieldOutcome w fields (some (.object fields)) f := collect_singleton _ f

theorem step_items (item : Node) (items : List Json) :
    c.step w ⟨.arrayOf item [], some (.array items), g⟩ = itemsOutcome w item items :=
  Outcome.nil_andThen _

theorem answers_andThen {o t : Outcome} (ho : Answers o) (ht : Answers t) :
    Answers (o.andThen t) := by
  obtain ⟨own, rfl⟩ := ho
  exact answers_map.mpr ht

theorem answers_collect {α : Type} {f : α → Outcome} {l : List α} (h : ∀ a ∈ l, Answers (f a)) :
    Answers (collect f l) := by
  induction l with
  | nil => exact answers_ok []
  | cons a l ih =>
    obtain ⟨ha, hl⟩ := List.forall_mem_cons.mp h
    exact answers_andThen ha (ih hl)

/-- The probe is answered, with fuel for one visit more than there are steps. -/
theorem probe_answers (place : Position) (s g : Slot) :
    Answers (c.outcome (place.length + 1) ⟨probe place, s, g⟩) := by
  induction place generalizing s g with
  | nil => cases s <;> exact answers_ok _
  | cons t place ih =>
    rw [List.length_cons, outcome_succ]
    cases t with
    | member k =>
      rcases s with _ | (_ | _ | _ | _ | _ | fields)
      case some.object =>
        rw [probe, step_field, fieldOutcome]
        split
        · exact answers_map.mpr (ih _ _)
        · exact answers_ok []
      all_goals exact answers_ok _
    | item i =>
      rcases s with _ | (_ | _ | _ | _ | items | _)
      case some.array =>
        rw [probe, step_items]
        exact answers_collect fun x _ => answers_map.mpr (ih _ _)
      all_goals exact answers_ok _
    | key k =>
      rcases s with _ | (_ | _ | _ | _ | _ | fields)
      case some.object =>
        exact answers_collect fun e _ => answers_andThen (answers_map.mpr (ih _ _)) (answers_ok [])
      all_goals exact answers_ok _

/-- An outcome reports at a position, and not that a field is missing. -/
def ReportsAt (o : Outcome) (place : Position) : Prop :=
  ∃ ds, o = .ok ds ∧ ∃ d ∈ ds, d.code ≠ .fieldMissing ∧ d.path = Position.text place

theorem ReportsAt.under {o : Outcome} {place : Position} (h : ReportsAt o place) (t : Step) :
    ReportsAt (o.under t.text) (t :: place) := by
  obtain ⟨ds, rfl, d, hd, hcode, hpath⟩ := h
  refine ⟨_, rfl, d.under t.text, List.mem_map_of_mem hd, hcode, ?_⟩
  rw [Diagnostic.under, Position.text, hpath]

theorem ReportsAt.andThen {o t : Outcome} {place : Position} (h : ReportsAt o place)
    (ht : Answers t) : ReportsAt (o.andThen t) place := by
  obtain ⟨ds, rfl, d, hd, hpath⟩ := h
  obtain ⟨others, rfl⟩ := ht
  exact ⟨_, rfl, d, List.mem_append_left _ hd, hpath⟩

/-- One of several parts reports, and the others are answered. -/
theorem ReportsAt.collect {α : Type} {f : α → Outcome} {l : List α} {a : α} {place : Position}
    (ha : a ∈ l) (h : ReportsAt (f a) place) (hl : ∀ b ∈ l, Answers (f b)) :
    ReportsAt (DocSchema.collect f l) place := by
  obtain ⟨ds, hds⟩ := answers_collect hl
  obtain ⟨own, hown, d, hd, hpath⟩ := h
  exact ⟨ds, hds, d, (mem_of_collect hds).mpr ⟨a, ha, own, hown, hd⟩, hpath⟩

/-- The probe reports at its position, if the position leads to something. -/
theorem probe_reports {place : Position} {v : Json} (h : v.Has place) (g : Slot) :
    ReportsAt (c.outcome (place.length + 1) ⟨probe place, some v, g⟩) place := by
  induction place generalizing v g with
  | nil => exact ⟨_, rfl, _, List.mem_singleton_self _, by simp, rfl⟩
  | cons t place ih =>
    obtain ⟨w, hw⟩ := h
    rw [List.length_cons, outcome_succ]
    cases t with
    | member k =>
      obtain ⟨fields, u, rfl, hu, hplace⟩ := Json.at?_member hw
      simp only [probe, step_field, fieldOutcome, hu]
      exact (ih ⟨w, hplace⟩ _).under (.member k)
    | item i =>
      obtain ⟨items, u, rfl, hu, hplace⟩ := Json.at?_item hw
      rw [probe, step_items]
      refine .collect (a := (u, i)) (List.mem_zipIdx_iff_getElem?.mpr hu) ?_ fun x _ => ?_
      · exact (ih ⟨w, hplace⟩ _).under (.item i)
      · exact answers_map.mpr (probe_answers place _ _)
    | key k =>
      obtain ⟨rfl, fields, u, rfl, hu⟩ := Json.at?_key hw
      have hkey := (ih ⟨_, Json.at?_nil (.string k)⟩ (some (.object fields))).under (.key k)
      refine .collect (mem_of_lookup hu) (hkey.andThen (answers_ok [])) fun e _ => ?_
      exact answers_andThen (answers_map.mpr (probe_answers [] _ _)) (answers_ok [])

/-! ### Paths of a document -/

/-- The paths at which checks of a value report are those of its positions. -/
theorem reported_iff {v : Json} (hv : v.Distinct) (path : String) :
    v.Reported path ↔ ∃ place, v.Has place ∧ rootPath ++ Position.text place = path := by
  constructor
  · rintro ⟨c, n, ds, h, d, hd, hcode, rfl⟩
    rw [checkSlot_eq] at h
    obtain ⟨own, hown, rfl⟩ := Outcome.under_eq_ok.mp h
    obtain ⟨e, he, rfl⟩ := List.mem_map.mp hd
    rcases c.outcome_points _ _ v rfl hv own hown e he with hmissing | ⟨place, hplace, hpath⟩
    · exact absurd hmissing hcode
    · exact ⟨place, hplace, by rw [Diagnostic.under, hpath]⟩
  · rintro ⟨place, hplace, rfl⟩
    obtain ⟨ds, hds, d, hd, hcode, hpath⟩ :=
      probe_reports (c := empty) hplace (Scope.atRoot (some v)).subject
    have hbudget := (outcome_budget (by rw [hds]; simp)).trans hds
    refine ⟨empty, probe place, ds.map (Diagnostic.under rootPath), ?_, d.under rootPath,
      List.mem_map_of_mem hd, hcode, by rw [Diagnostic.under, hpath]⟩
    rw [checkSlot_eq, hbudget]
    rfl

/-- In a document whose keys have neither a dot nor an opening bracket, different positions have
different paths; so the paths at which checks of the document report are those that belong to exactly
one of its positions. -/
theorem path_identifies {v : Json} (hkeys : v.EachKey PlainKey) :
    (∀ p q, v.Has p → v.Has q →
      rootPath ++ Position.text p = rootPath ++ Position.text q → p = q) ∧
    (v.Distinct → ∀ path, v.Reported path ↔
      ∃! place, v.Has place ∧ rootPath ++ Position.text place = path) := by
  have unique : ∀ p q, v.Has p → v.Has q →
      rootPath ++ Position.text p = rootPath ++ Position.text q → p = q := by
    rintro p q ⟨a, ha⟩ ⟨b, hb⟩ h
    rw [String.append_right_inj] at h
    exact Position.text_inj (Position.plain_of_at? hkeys ha) (Position.plain_of_at? hkeys hb) h
  refine ⟨unique, fun hv path => (reported_iff hv path).trans ⟨?_, ExistsUnique.exists⟩⟩
  rintro ⟨place, hplace, rfl⟩
  exact ⟨place, ⟨hplace, rfl⟩, fun q hq => unique q place hq.1 hplace hq.2⟩

/-- A document with empty keys, with a list under one of them, and with a key that ends like an
index. -/
def hollow : Json := .object [("", .array [.object [("", .null)], .null]), ("0]", .null)]

/-- An index behind an empty key is not the mark of a key, nor part of the key that looks like one. -/
theorem hollow_identifies : hollow.EachKey PlainKey ∧ hollow.Distinct ∧
    (∀ place, hollow.Has place → "$.[1]" = rootPath ++ Position.text place →
      [.member "", .item 1] = place) ∧
    ∃! place, hollow.Has place ∧ rootPath ++ Position.text place = "$.[0].[key:]" := by
  have plain : hollow.EachKey PlainKey := by
    simp [hollow, Json.EachKey, Json.EachKeyAll, Json.EachKeyFields, PlainKey]
  have distinct : hollow.Distinct := by
    simp [hollow, Json.Distinct, Json.DistinctAll, Json.DistinctFields]
  obtain ⟨unique, reported⟩ := path_identifies plain
  refine ⟨plain, distinct, fun place hplace h => unique _ place ⟨.null, rfl⟩ hplace h, ?_⟩
  refine (reported distinct _).mp ((reported_iff distinct _).mpr ?_)
  exact ⟨[.member "", .item 0, .key ""], ⟨.string "", rfl⟩, by decide⟩

/-- A key with a dot is written like the path through another one. -/
example : Position.text [.member "a", .member "b"] = Position.text [.member "a.b"] := by decide

end Catalog

end DocSchema
