import DocSchema.Proofs.Walk.Location

/-!
The order of the diagnostics.

Diagnostics are reported while the walk goes down, so what is wrong with a value stands in front of
what is wrong inside of it, with three exceptions. A reference reports on its constraints after the
type behind it, an intersection comes back to the value with each of its members, and a record comes
back to a field that it declares twice. None of them matters if what went before reports on the value
itself only (`Shallow`); nor does an intersection of records with different fields (`FieldsOnly`).
Main statement: in a schema that is `Orderly` in this sense, the diagnostics of a validation are in
document pre-order (`validate_preorder`). Constraints on another name for an array of items are not,
and `validate_posts` shows the order broken by them.
-/

namespace DocSchema

/-- A position lies strictly inside another. -/
def Position.Below (p q : Position) : Prop := ∃ t rest, p = q ++ t :: rest

/-- A diagnostic by the position that its path is the text of. -/
structure Finding where
  place : Position
  code : Code
  message : String

namespace Finding

def diagnostic (f : Finding) : Diagnostic := ⟨Position.text f.place, f.code, f.message⟩

/-- A finding seen from one step further up. -/
def down (t : Step) (f : Finding) : Finding := { f with place := t :: f.place }

/-- A finding may come before another: it is not about something inside what the other is about. -/
def Before (f g : Finding) : Prop := ¬f.place.Below g.place

/-- The position of the finding leads to something in a value, or to a key of an object in it, which
the object may lack. -/
def Within (f : Finding) (v : Json) : Prop :=
  (∃ w, v.at? f.place = some w) ∨
    ∃ up fields key, v.at? up = some (.object fields) ∧ f.place = up ++ [.member key]

variable {f g : Finding} {t u : Step} {v w : Json}

/-! ### Before and after -/

theorem before_of_length_le (h : f.place.length ≤ g.place.length) : f.Before g := by
  rintro ⟨t, rest, hplace⟩
  rw [hplace, List.length_append, List.length_cons] at h
  omega

theorem before_of_own (hf : f.place = []) (g : Finding) : f.Before g :=
  before_of_length_le (by rw [hf]; exact Nat.zero_le _)

theorem before_of_ne {p q : Position} (hf : f.place = t :: p) (hg : g.place = u :: q)
    (hne : t ≠ u) : f.Before g := by
  rintro ⟨s, rest, hplace⟩
  rw [hf, hg, List.cons_append, List.cons.injEq] at hplace
  exact hne hplace.1

theorem Before.down (h : f.Before g) (t : Step) : (f.down t).Before (g.down t) := by
  rintro ⟨s, rest, hplace⟩
  simp only [Finding.down, List.cons_append, List.cons.injEq, true_and] at hplace
  exact h ⟨s, rest, hplace⟩

theorem diagnostic_down (t : Step) (f : Finding) :
    (f.down t).diagnostic = f.diagnostic.under t.text := rfl

/-! ### Within a value -/

theorem within_of_own (hf : f.place = []) (v : Json) : f.Within v :=
  .inl ⟨v, by rw [hf, Json.at?_nil]⟩

theorem Within.down (ht : v.at? [t] = some w) (h : f.Within w) : (f.down t).Within v := by
  rcases h with ⟨a, ha⟩ | ⟨up, fields, key, hup, hplace⟩
  · exact .inl ⟨a, Json.at?_cons ht ha⟩
  · refine .inr ⟨t :: up, fields, key, Json.at?_cons ht hup, ?_⟩
    rw [Finding.down, hplace, List.cons_append]

end Finding

/-! ### Outcomes in order -/

/-- The diagnostics of an outcome are findings in document pre-order, all with a property. -/
def Ordered (o : Outcome) (p : Finding → Prop) : Prop := ∀ ds, o = .ok ds →
  ∃ fs : List Finding, ds = fs.map Finding.diagnostic ∧ (∀ f ∈ fs, p f) ∧
    fs.Pairwise Finding.Before

namespace Ordered

variable {o o' : Outcome} {p q r : Finding → Prop}

theorem error (f : Fault) : Ordered (.error f) p := fun _ h => by cases h

theorem nil : Ordered (.ok []) p := fun ds h => by
  cases h
  exact ⟨[], rfl, by simp, .nil⟩

theorem mono (h : Ordered o p) (hpq : ∀ f, p f → q f) : Ordered o q := by
  intro ds hds
  obtain ⟨fs, hfs, hp, horder⟩ := h ds hds
  exact ⟨fs, hfs, fun f hf => hpq f (hp f hf), horder⟩

/-- What is reported on the value itself is in order. -/
theorem own (h : Reports o Diagnostic.Own) (hp : ∀ f : Finding, f.place = [] → p f) :
    Ordered o p := by
  intro ds hds
  refine ⟨ds.map fun d => ⟨[], d.code, d.message⟩, ?_, ?_, ?_⟩
  · have hsame : ∀ d ∈ ds, Finding.diagnostic ⟨[], d.code, d.message⟩ = id d := by
      intro d hd
      obtain ⟨hpath, -⟩ := h ds hds d hd
      show Diagnostic.mk "" d.code d.message = d
      rw [← hpath]
    rw [List.map_map]
    exact ((List.map_congr_left hsame).trans (List.map_id ds)).symm
  · intro f hf
    obtain ⟨d, -, rfl⟩ := List.mem_map.mp hf
    exact hp _ rfl
  · refine List.pairwise_map.mpr (List.pairwise_of_forall fun d e => ?_)
    exact Finding.before_of_length_le (Nat.le_refl _)

theorem under {t : Step} (h : Ordered o p) (hpq : ∀ f, p f → q (f.down t)) :
    Ordered (o.under t.text) q := by
  intro ds hds
  obtain ⟨own, hown, rfl⟩ := Outcome.under_eq_ok.mp hds
  obtain ⟨fs, rfl, hp, horder⟩ := h own hown
  refine ⟨fs.map (Finding.down t), ?_, ?_, ?_⟩
  · simp only [List.map_map]
    exact List.map_congr_left fun f _ => (f.diagnostic_down t).symm
  · intro g hg
    obtain ⟨f, hf, rfl⟩ := List.mem_map.mp hg
    exact hpq f (hp f hf)
  · exact List.pairwise_map.mpr (horder.imp fun h => h.down t)

/-- One outcome after another is in order if no finding of the second is around one of the first. -/
theorem andThen (ho : Ordered o p) (ho' : Ordered o' q)
    (hcross : ∀ f g, p f → q g → f.Before g) :
    Ordered (o.andThen o') fun f => p f ∨ q f := by
  intro ds hds
  obtain ⟨own, others, hown, hothers, rfl⟩ := Outcome.andThen_eq_ok.mp hds
  obtain ⟨fs, rfl, hp, horder⟩ := ho own hown
  obtain ⟨gs, rfl, hq, horder'⟩ := ho' others hothers
  refine ⟨fs ++ gs, List.map_append.symm, ?_, ?_⟩
  · intro f hf
    rcases List.mem_append.mp hf with hf | hf
    · exact .inl (hp f hf)
    · exact .inr (hq f hf)
  · refine List.pairwise_append.mpr ⟨horder, horder', fun f hf g hg => ?_⟩
    exact hcross f g (hp f hf) (hq g hg)

/-- The outcomes of the parts of a list are in order if no finding of a later part is around one of
an earlier part. -/
theorem collect {α : Type} {k : α → Outcome} {p : α → Finding → Prop} :
    ∀ {l : List α}, (∀ a ∈ l, Ordered (k a) (p a)) →
      l.Pairwise (fun a b => ∀ f g, p a f → p b g → f.Before g) →
      Ordered (DocSchema.collect k l) fun f => ∃ a ∈ l, p a f
  | [], _, _ => nil
  | a :: l, h, hcross => by
    obtain ⟨hfirst, hrest⟩ := List.pairwise_cons.mp hcross
    have hl := collect (fun b hb => h b (List.mem_cons_of_mem a hb)) hrest
    rw [collect_cons]
    refine ((h a List.mem_cons_self).andThen hl fun f g hf hg => ?_).mono fun f hf => ?_
    · obtain ⟨b, hb, hg⟩ := hg
      exact hfirst b hb f g hf hg
    · rcases hf with hf | ⟨b, hb, hf⟩
      · exact ⟨a, List.mem_cons_self, hf⟩
      · exact ⟨b, List.mem_cons_of_mem a hb, hf⟩

end Ordered

/-! ### Schemas that keep the order -/

/-- Checks against the node report on the value itself, and on nothing inside of it. -/
inductive Catalog.Shallow (c : Catalog) : Node → Prop
  | named {name us} (h : ∀ n, c.type? name = .ok (some (.defined n)) → Shallow c n) :
    Shallow c (.named name us)
  | nullableNamed {name} (h : ∀ n, c.type? name = .ok (some (.defined n)) → Shallow c n) :
    Shallow c (.nullableNamed name)
  | nullable {inner} (h : Shallow c inner) : Shallow c (.nullable inner)
  | union {members} : Shallow c (.union members)
  | intersection {members} (h : ∀ n ∈ members, Shallow c n) : Shallow c (.intersection members)
  | conditional {condition yes no} (hyes : Shallow c yes) (hno : Shallow c no) :
    Shallow c (.conditional condition yes no)
  | literal {v} : Shallow c (.literal v)
  | absent : Shallow c .absent

/-- Checks of objects against the node report on the fields with the given keys, and on nothing else:
the node is a record of such fields, another name for one, or several of them. -/
inductive Catalog.FieldsOnly (c : Catalog) (keys : List String) : Node → Prop
  | record {declared : List (FieldHead × Node)} (h : ∀ f ∈ declared, f.1.name.plain ∈ keys) :
    FieldsOnly c keys (.record declared)
  | named {name n} (hname : c.type? name = .ok (some (.defined n))) (h : FieldsOnly c keys n) :
    FieldsOnly c keys (.named name [])
  | intersection {members} (h : ∀ n ∈ members, FieldsOnly c keys n) :
    FieldsOnly c keys (.intersection members)

/-- The node comes back to a value only if it has not reported on anything inside the value. -/
def Catalog.Orderly (c : Catalog) : Node → Prop
  | .named name us => us = [] ∨ ∀ n, c.type? name = .ok (some (.defined n)) → c.Shallow n
  | .record declared => declared.Pairwise fun f g =>
    f.1.name.plain = g.1.name.plain → c.Shallow f.2
  | .intersection members => members.Pairwise fun m n => c.Shallow m ∨
    ∃ keys others, c.FieldsOnly keys m ∧ c.FieldsOnly others n ∧ keys.Disjoint others
  | _ => True

/-- A finding of a check of an object is about one of the given fields, any other finding about the
value itself. -/
def Finding.AmongFields (keys : List String) (v : Json) (f : Finding) : Prop :=
  match v with
  | .object _ => ∃ key ∈ keys, ∃ rest, f.place = .member key :: rest
  | _ => f.place = []

theorem Finding.AmongFields.before {keys others : List String} {v : Json} {f g : Finding}
    (hf : f.AmongFields keys v) (hg : g.AmongFields others v) (h : keys.Disjoint others) :
    f.Before g := by
  cases v with
  | object fields =>
    obtain ⟨key, hkey, p, hf⟩ := hf
    obtain ⟨other, hother, q, hg⟩ := hg
    refine before_of_ne hf hg fun hne => ?_
    cases hne
    exact h hkey hother
  | _ => exact before_of_own hf g

namespace Catalog

variable {c : Catalog} {w : Call → Outcome} {n : Node} {v : Json} {f g : Finding}

/-- What is known of a finding of a check of a value against a node. -/
structure Found (c : Catalog) (n : Node) (v : Json) (f : Finding) : Prop where
  within : f.Within v
  shallow : c.Shallow n → f.place = []
  fields : ∀ keys, c.FieldsOnly keys n → f.AmongFields keys v

namespace Found

/-- A finding about the value itself, which is no object if the node is about fields only. -/
theorem own (hn : ∀ keys, c.FieldsOnly keys n → v.isObject = false) (hf : f.place = []) :
    c.Found n v f where
  within := Finding.within_of_own hf v
  shallow _ := hf
  fields keys hkeys := by
    have hv := hn keys hkeys
    cases v with
    | object fields => cases hv
    | _ => exact hf

/-- What is found by a node is found by a node that hands the value on to it, and is about more than
fields. -/
theorem outward {m : Node} (hshallow : c.Shallow n → c.Shallow m)
    (hfields : ∀ keys, ¬c.FieldsOnly keys n) (hf : c.Found m v f) : c.Found n v f :=
  ⟨hf.within, fun h => hf.shallow (hshallow h), fun keys h => absurd h (hfields keys)⟩

/-- What is found by the definition of a type is found by a reference to it. -/
theorem of_defined {name : Json} {us : List Usage} (hn : c.type? name = .ok (some (.defined n)))
    (hf : c.Found n v f) : c.Found (.named name us) v f where
  within := hf.within
  shallow hshallow := by
    cases hshallow with
    | named h => exact hf.shallow (h n hn)
  fields keys hkeys := by
    cases hkeys with
    | named hm hkeys =>
      rw [hn] at hm
      cases hm
      exact hf.fields keys hkeys

/-- Nothing that comes after a finding of a shallow node is around it. -/
theorem before_of_shallow (hn : c.Shallow n) (hf : c.Found n v f) (g : Finding) : f.Before g :=
  Finding.before_of_own (hf.shallow hn) g

end Found

/-! ### One visit -/

/-- All answers to calls on a value are in order. -/
def Orders (c : Catalog) (w : Call → Outcome) : Prop := ∀ x v, x.slot = some v → v.Distinct →
  x.node.Everywhere c.Orderly → Ordered (w x) (c.Found x.node v)

theorem namedOutcome_ordered {name : Json} {us : List Usage} {s g : Slot}
    (horderly : c.Orderly (.named name us))
    (h : ∀ n, c.type? name = .ok (some (.defined n)) → Ordered (w ⟨n, s, g⟩) (c.Found n v)) :
    Ordered (c.namedOutcome w name us s g) (c.Found (.named name us) v) := by
  by_cases hname : ∃ n, c.type? name = .ok (some (.defined n))
  · obtain ⟨n, hn⟩ := hname
    have huses : Ordered (collect (fun u => c.useOutcome name u s) us) fun f =>
        f.place = [] ∧ us ≠ [] := by
      cases us with
      | nil => exact .nil
      | cons u us => exact .own (usesOutcome_own name _ s) fun f hf => ⟨hf, by simp⟩
    simp only [namedOutcome, hn]
    refine ((h n hn).andThen huses fun f g hf hg => ?_).mono fun f hf => ?_
    · rcases horderly with hus | hshallow
      · exact absurd hus hg.2
      · exact hf.before_of_shallow (hshallow n hn) g
    · rcases hf with hf | ⟨hf, hus⟩
      · exact hf.of_defined hn
      · refine .own (fun keys hkeys => ?_) hf
        cases hkeys with
        | named => exact absurd rfl hus
  · refine .own (namedOutcome_own (not_exists.mp hname) us) fun f hf => .own (fun keys hkeys => ?_) hf
    cases hkeys with
    | named hn => exact absurd ⟨_, hn⟩ hname

/-- The findings on a declared field, by the shape of their positions. -/
structure FoundIn (c : Catalog) (fields : List (String × Json)) (d : FieldHead × Node)
    (f : Finding) : Prop where
  within : f.Within (.object fields)
  start : ∃ rest, f.place = .member d.1.name.plain :: rest
  shallow : c.Shallow d.2 → f.place = [.member d.1.name.plain]

theorem FoundIn.before {fields : List (String × Json)} {d e : FieldHead × Node}
    (horderly : d.1.name.plain = e.1.name.plain → c.Shallow d.2) (hf : c.FoundIn fields d f)
    (hg : c.FoundIn fields e g) : f.Before g := by
  obtain ⟨p, hp⟩ := hf.start
  obtain ⟨q, hq⟩ := hg.start
  by_cases hname : d.1.name.plain = e.1.name.plain
  · refine Finding.before_of_length_le ?_
    rw [hf.shallow (horderly hname), hq]
    exact Nat.le_add_left 1 _
  · exact Finding.before_of_ne hp hq (by simpa using hname)

theorem missingOutcome_ordered (fields : List (String × Json)) (head : FieldHead) (type : Node) :
    Ordered (missingOutcome head type) (c.FoundIn fields (head, type)) := by
  simp only [missingOutcome]
  split
  · exact .nil
  · intro ds hds
    cases hds
    refine ⟨[⟨[.member head.name.plain], .fieldMissing, "Missing required field."⟩], ?_, ?_, ?_⟩
    · simp [Finding.diagnostic, Position.text, Step.text]
    · intro f hf
      obtain rfl := List.mem_singleton.mp hf
      exact ⟨.inr ⟨[], fields, _, Json.at?_nil _, rfl⟩, ⟨[], rfl⟩, fun _ => rfl⟩
    · exact List.pairwise_singleton _ _

theorem fieldOutcome_ordered {fields : List (String × Json)} {s : Slot} {d : FieldHead × Node}
    (h : ∀ key u, d.1.name = .string key → lookup key fields = some u →
      Ordered (w ⟨d.2, some u, s⟩) (c.Found d.2 u)) :
    Ordered (fieldOutcome w fields s d) (c.FoundIn fields d) := by
  obtain ⟨⟨name, optional, default⟩, type⟩ := d
  cases name with
  | string key =>
    simp only [fieldOutcome]
    cases hu : lookup key fields with
    | some u =>
      refine (h key u rfl hu).under fun f hf => ⟨hf.within.down ?_, ⟨f.place, rfl⟩, fun hn => ?_⟩
      · simp [Json.at?, hu]
      · rw [Finding.down, hf.shallow hn]; rfl
    | none => exact missingOutcome_ordered fields _ type
  | null | bool _ | number _ => exact missingOutcome_ordered fields _ type
  | array _ | object _ => exact .error _

/-- The items of an array: each reports on its own part of the array. -/
theorem itemsOutcome_ordered {item : Node} {items : List Json}
    (h : ∀ u ∈ items, Ordered (w ⟨item, some u, some (.array items)⟩) (c.Found item u)) :
    Ordered (itemsOutcome w item items) fun f => f.Within (.array items) := by
  have hone : ∀ x ∈ items.zipIdx, Ordered
      ((w ⟨item, some x.1, some (.array items)⟩).under (Step.item x.2).text)
      fun f => f.Within (.array items) ∧ ∃ rest, f.place = .item x.2 :: rest := by
    intro x hx
    have hu : items[x.2]? = some x.1 := List.mem_zipIdx_iff_getElem?.mp hx
    refine (h x.1 (List.mem_of_getElem? hu)).under fun f hf => ⟨hf.within.down ?_, f.place, rfl⟩
    simp [Json.at?, hu]
  have hindices : items.zipIdx.Pairwise fun x y => x.2 ≠ y.2 := by
    rw [← List.pairwise_map, List.zipIdx_map_snd]
    exact List.nodup_range'
  refine (Ordered.collect hone (hindices.imp fun hne => ?_)).mono fun f hf => ?_
  · rintro f g ⟨-, p, hp⟩ ⟨-, q, hq⟩
    exact Finding.before_of_ne hp hq (by simpa using hne)
  · obtain ⟨x, -, hwithin, -⟩ := hf
    exact hwithin

/-- The entries of a dictionary: each reports on its key and then on its value. -/
theorem entriesOutcome_ordered {key value : Node} {fields : List (String × Json)} {s : Slot}
    (hkeys : (fields.map Prod.fst).Nodup)
    (hkey : ∀ e ∈ fields, Ordered (w ⟨key, some (.string e.1), s⟩) (c.Found key (.string e.1)))
    (hvalue : ∀ e ∈ fields, Ordered (w ⟨value, some e.2, s⟩) (c.Found value e.2)) :
    Ordered (collect (entryOutcome w key value s) fields) fun f => f.Within (.object fields) := by
  have hone : ∀ e ∈ fields, Ordered (entryOutcome w key value s e) fun f =>
      (f.Within (.object fields) ∧ ∃ rest, f.place = .key e.1 :: rest) ∨
      (f.Within (.object fields) ∧ ∃ rest, f.place = .member e.1 :: rest) := by
    intro e he
    have hlookup : lookup e.1 fields = some e.2 := lookup_of_mem hkeys he
    refine Ordered.andThen ((hkey e he).under fun f hf => ⟨hf.within.down ?_, f.place, rfl⟩)
      ((hvalue e he).under fun f hf => ⟨hf.within.down ?_, f.place, rfl⟩) ?_
    · simp [Json.at?, hlookup]
    · simp [Json.at?, hlookup]
    · rintro f g ⟨-, p, hp⟩ ⟨-, q, hq⟩
      exact Finding.before_of_ne hp hq (by simp)
  refine (Ordered.collect hone ?_).mono fun f hf => ?_
  · refine (List.pairwise_map.mp hkeys).imp fun hne => ?_
    rintro f g (⟨-, p, hp⟩ | ⟨-, p, hp⟩) (⟨-, q, hq⟩ | ⟨-, q, hq⟩) <;>
      exact Finding.before_of_ne hp hq (by simp [hne])
  · obtain ⟨e, -, hf | hf⟩ := hf
    · exact hf.1
    · exact hf.1

/-- A visit is in order if its calls are. -/
theorem step_orders (hc : c.Everywhere c.Orderly) (hw : c.Orders w) : c.Orders (c.step w) := by
  rintro ⟨n, _, g⟩ v rfl hv hn
  have call {y : Call} {u : Json} (hy : c.Calls (fun _ => True) ⟨n, some v, g⟩ y)
      (hs : y.slot = some u) (hu : u.Distinct) : Ordered (w y) (c.Found y.node u) :=
    hw y u hs hu (hy.everywhere hc hn)
  have mismatched {n : Node} (hfields : ∀ keys, c.FieldsOnly keys n → v.isObject = false)
      (message : String) : Ordered (mismatch message) (c.Found n v) :=
    .own (mismatch_own message) fun f hf => .own hfields hf
  cases n with
  | named name us => exact namedOutcome_ordered hn.here fun m hm => call (.named hm) rfl hv
  | nullableNamed name =>
    by_cases hs : some v = some Json.null
    · rw [hs]; exact .nil
    · simp only [step]
      have hfound : Ordered (c.namedOutcome w name [] (some v) g) (c.Found (.named name []) v) :=
        namedOutcome_ordered (.inl rfl) fun m hm => call (.nullableNamed hs hm) rfl hv
      refine hfound.mono fun f hf => hf.outward (fun h => ?_) (by intro keys h; cases h)
      cases h with
      | nullableNamed h => exact .named h
  | nullable inner =>
    by_cases hs : some v = some Json.null
    · rw [hs]; exact .nil
    · simp only [step]
      refine (call (.nullable hs) rfl hv).mono fun f hf => hf.outward (fun h => ?_) (by intro keys h; cases h)
      cases h with
      | nullable h => exact h
  | arrayOf item us =>
    cases v with
    | array items =>
      have huses : Ordered (collect (fun u => c.useOutcome (.string "Array") u _) us) fun f =>
          f.place = [] := .own (usesOutcome_own _ us (some (.array items))) fun _ hf => hf
      have hitems : Ordered (itemsOutcome w item items) fun f => f.Within (.array items) :=
        itemsOutcome_ordered fun u hu => call (.item hu) rfl (Json.distinct_array.mp hv u hu)
      refine (huses.andThen hitems fun f g hf _ => ?_).mono fun f hf => ⟨?_, ?_, ?_⟩
      · exact Finding.before_of_own hf g
      · exact hf.elim (fun hf => Finding.within_of_own hf _) id
      · intro h; cases h
      · intro keys h; cases h
    | _ => exact mismatched (by intro keys h; cases h) _
  | record declared =>
    cases v with
    | object fields =>
      have hfields : Ordered (collect (fieldOutcome w fields (some (.object fields))) declared)
          fun f => ∃ d ∈ declared, c.FoundIn fields d f := by
        refine .collect (fun d hd => fieldOutcome_ordered fun key u hkey hu => ?_) ?_
        · have hdistinct := (Json.distinct_object.mp hv).2 _ (mem_of_lookup hu)
          exact call (.field hd hkey hu) rfl hdistinct
        · exact hn.here.imp fun horderly f g hf hg => hf.before horderly hg
      refine hfields.mono fun f hf => ?_
      obtain ⟨d, hd, hf⟩ := hf
      refine ⟨hf.within, fun h => ?_, fun keys h => ?_⟩
      · cases h
      · cases h with
        | record h => exact ⟨_, h d hd, hf.start⟩
    | _ => exact mismatched (fun _ _ => rfl) _
  | dict key value =>
    cases v with
    | object fields =>
      obtain ⟨hkeys, hvalues⟩ := Json.distinct_object.mp hv
      have hentries := entriesOutcome_ordered hkeys (fun e he => call (.key he) rfl trivial)
        fun e he => call (.value he) rfl (hvalues e he)
      refine hentries.mono fun f hf => ⟨hf, fun h => ?_, fun keys h => ?_⟩
      · cases h
      · cases h
    | _ => exact mismatched (fun _ _ => rfl) _
  | union members =>
    exact .own (anyOutcome_own _ g _ members) fun f hf => .own (by intro keys h; cases h) hf
  | intersection members =>
    have hparts : Ordered (collect (fun m => w ⟨m, some v, g⟩) members) fun f =>
        ∃ m ∈ members, c.Found m v f := by
      refine .collect (fun m hm => call (.part hm) rfl hv) (hn.here.imp ?_)
      rintro m n (hm | ⟨keys, others, hm, hn, hdisjoint⟩) f g hf hg
      · exact hf.before_of_shallow hm g
      · exact (hf.fields keys hm).before (hg.fields others hn) hdisjoint
    refine hparts.mono fun f hf => ?_
    obtain ⟨m, hm, hf⟩ := hf
    refine ⟨hf.within, fun h => ?_, fun keys h => ?_⟩
    · cases h with
      | intersection h => exact hf.shallow (h m hm)
    · cases h with
      | intersection h => exact hf.fields keys (h m hm)
  | conditional condition yes no =>
    simp only [step]
    rcases hg : condition.guard.evaluate g with _ | (_ | _)
    · exact .own (anyOutcome_own _ g _ [yes, no]) fun f hf => .own (by intro keys h; cases h) hf
    · refine (call (.no hg) rfl hv).mono fun f hf => hf.outward (fun h => ?_) (by intro keys h; cases h)
      cases h with
      | conditional _ hno => exact hno
    · refine (call (.yes hg) rfl hv).mono fun f hf => hf.outward (fun h => ?_) (by intro keys h; cases h)
      cases h with
      | conditional hyes _ => exact hyes
  | literal u =>
    simp only [step]
    split
    · exact .nil
    · exact mismatched (by intro keys h; cases h) _
  | absent => exact .own (.single ⟨rfl, by simp⟩) fun f hf => .own (by intro keys h; cases h) hf

/-- The walk is in order with any fuel. -/
theorem outcome_orders (hc : c.Everywhere c.Orderly) (fuel : Nat) : c.Orders (c.outcome fuel) := by
  induction fuel with
  | zero => exact fun _ _ _ _ _ => .error _
  | succ fuel ih =>
    intro x
    rw [outcome_succ]
    exact step_orders hc ih x

/-! ### Whole validations -/

/-- If no node of the schema comes back to a value after it reported on something inside, the
diagnostics of a validation are in document pre-order: their paths are the texts of positions in the
document, and no diagnostic comes after one whose position is strictly inside its own. -/
theorem validate_preorder {document : Document} {root : Json} {ds : List Diagnostic}
    (hc : c.Everywhere c.Orderly) (hd : document.Distinct)
    (h : c.validate (m := Except Fault) document root = .ok ds) :
    ∃ fs : List Finding, ds = fs.map (fun f => f.diagnostic.under rootPath) ∧
      fs.Pairwise Finding.Before ∧ ∀ v, document.read = .ok v → ∀ f ∈ fs, f.Within v := by
  cases hread : document.read with
  | error e =>
    simp only [validate, hread] at h
    cases h
    exact ⟨[⟨[], .invalidExpression, _⟩], rfl, List.pairwise_singleton _ _, by simp⟩
  | ok v =>
    rw [validate_of_read hread] at h
    split at h
    · next name _ =>
      obtain ⟨own, hown, rfl⟩ := Outcome.under_eq_ok.mp h
      have hroot : (Node.named (.string name) []).Everywhere c.Orderly :=
        .intro (.inl rfl) (by simp [Node.parts])
      obtain ⟨fs, rfl, hfound, horder⟩ :=
        outcome_orders hc _ _ v rfl (Document.distinct_of_read hd hread) hroot own hown
      refine ⟨fs, by rw [List.map_map]; rfl, horder, ?_⟩
      rintro _ ⟨⟩ f hf
      exact (hfound f hf).within
    · cases h
    · cases h
      refine ⟨[⟨[], .unknownType, _⟩], rfl, List.pairwise_singleton _ _, ?_⟩
      intro u _ f hf
      obtain rfl := List.mem_singleton.mp hf
      exact Finding.within_of_own rfl u

/-- Articles: entries with a title, and with at least two tags. -/
def articles : Catalog where
  version := .null
  root := .string "Article"
  types := [
    ("Title", .named (.string "String") [⟨.string "min", [], .int 3⟩]),
    ("Entry", .record
      [(⟨.string "title", false, .null⟩, .named (.string "Title") [⟨.string "max", [], .int 40⟩])]),
    ("Article", .intersection [.named (.string "Entry") [], .record
      [(⟨.string "tags", false, .null⟩,
        .arrayOf (.named (.string "String") []) [⟨.string "min", [], .int 2⟩])]])]
  validators := []

theorem articles_orderly : articles.Everywhere articles.Orderly := by
  have leaf {name : String} {us : List Usage} (h : articles.Orderly (.named (.string name) us)) :
      (Node.named (.string name) us).Everywhere articles.Orderly :=
    .intro h (by simp [Node.parts])
  have title {us : List Usage} : articles.Orderly (.named (.string "Title") us) := by
    refine .inr fun n hn => ?_
    cases hn
    exact .named fun n hn => by cases hn
  intro t ht
  simp only [articles, List.mem_cons, List.not_mem_nil, or_false] at ht
  rcases ht with rfl | rfl | rfl
  · exact leaf (.inr fun n hn => by cases hn)
  · refine .intro (List.pairwise_singleton _ _) ?_
    simp only [Node.parts, List.map_cons, List.map_nil, List.forall_mem_singleton]
    exact leaf title
  · refine .intro ?_ ?_
    · -- the two parts are about different fields
      refine List.pairwise_pair.mpr (.inr ⟨["title"], ["tags"], .named rfl (.record ?_), ?_, ?_⟩)
      · simp [Json.plain]
      · exact .record (by simp [Json.plain])
      · simp
    · simp only [Node.parts, List.forall_mem_cons]
      refine ⟨leaf (.inl rfl), .intro (List.pairwise_singleton _ _) ?_, by simp⟩
      simp only [Node.parts, List.map_cons, List.map_nil, List.forall_mem_singleton]
      refine .intro trivial ?_
      simp only [Node.parts, List.forall_mem_singleton]
      exact leaf (.inl rfl)

/-- An article whose title is too short, with a single tag that is no text. -/
def briefArticle : Json := .object [("tags", .array [.int 7]), ("title", .string "A")]

/-- What is wrong with the tags comes before what is wrong with one of them. -/
theorem articles_preorder :
    articles.validate (m := Except Fault) (.value briefArticle) .null = .ok
      [⟨"$.title", .constraintViolation, "Constraint failed: String.min"⟩,
        ⟨"$.tags", .constraintViolation, "Constraint failed: Array.min"⟩,
        ⟨"$.tags[0]", .typeMismatch, "Expected String."⟩] ∧
    articles.Everywhere articles.Orderly ∧ (Document.value briefArticle).Distinct ∧
    ∃ fs : List Finding, [⟨"$.title", .constraintViolation, "Constraint failed: String.min"⟩,
        ⟨"$.tags", .constraintViolation, "Constraint failed: Array.min"⟩,
        ⟨"$.tags[0]", .typeMismatch, "Expected String."⟩] =
          fs.map (fun f => f.diagnostic.under rootPath) ∧
      fs.Pairwise Finding.Before ∧ ∀ f ∈ fs, f.Within briefArticle := by
  have found : articles.validate (m := Except Fault) (.value briefArticle) .null = .ok
      [⟨"$.title", .constraintViolation, "Constraint failed: String.min"⟩,
        ⟨"$.tags", .constraintViolation, "Constraint failed: Array.min"⟩,
        ⟨"$.tags[0]", .typeMismatch, "Expected String."⟩] := by decide +kernel
  have distinct : (Document.value briefArticle).Distinct := by
    simp [Document.Distinct, briefArticle, Json.int, Json.Distinct, Json.DistinctAll,
      Json.DistinctFields]
  obtain ⟨fs, hfs, horder, hwithin⟩ := validate_preorder articles_orderly distinct found
  exact ⟨found, articles_orderly, distinct, fs, hfs, horder, hwithin briefArticle rfl⟩

/-- Posts: lists of tags by another name, with a constraint on that name. -/
def posts : Catalog where
  version := .null
  root := .string "Post"
  types := [
    ("Tags", .arrayOf (.named (.string "String") []) []),
    ("Post", .named (.string "Tags") [⟨.string "min", [.string "1"], .null⟩])]
  validators := []

/-- In a list with a single number there are two places: the list and the number. -/
theorem at?_singleton {k : Int} {place : Position} {w : Json}
    (h : (Json.array [.int k]).at? place = some w) :
    (place = [] ∧ w = .array [.int k]) ∨ (place = [.item 0] ∧ w = .int k) := by
  match place with
  | [] => exact .inl ⟨rfl, by simpa using h.symm⟩
  | .item 0 :: [] => exact .inr ⟨rfl, by simpa [Json.at?] using h.symm⟩
  | .item 0 :: t :: rest => cases t <;> simp [Json.at?, Json.int] at h
  | .item (i + 1) :: rest => simp [Json.at?] at h
  | .member key :: rest => simp [Json.at?] at h
  | .key k :: rest => cases rest <;> simp [Json.at?] at h

/-- The constraint on the tags of a post is reported after what is wrong with one of them: the
diagnostics are not in document pre-order. -/
theorem validate_posts :
    posts.validate (m := Except Fault) (.text "[1]") .null = .ok
      [⟨"$[0]", .typeMismatch, "Expected String."⟩,
        ⟨"$", .unknownConstraint, "Unknown constraint: Tags.min"⟩] ∧
    (Document.text "[1]").read = .ok (.array [.int 1]) ∧
    ¬∃ fs : List Finding, [⟨"$[0]", .typeMismatch, "Expected String."⟩,
        ⟨"$", .unknownConstraint, "Unknown constraint: Tags.min"⟩] =
          fs.map (fun f => f.diagnostic.under rootPath) ∧
      fs.Pairwise Finding.Before ∧ ∀ f ∈ fs, f.Within (.array [.int 1]) := by
  refine ⟨by decide +kernel, by rfl, ?_⟩
  rintro ⟨fs, hfs, horder, hwithin⟩
  obtain ⟨f, g, rfl⟩ : ∃ f g, fs = [f, g] := by
    rcases fs with _ | ⟨f, _ | ⟨g, _ | ⟨h, fs⟩⟩⟩ <;> simp at hfs
    exact ⟨f, g, rfl⟩
  have hplace : ∀ h ∈ [f, g], h.place = [] ∨ h.place = [.item 0] := by
    intro h hh
    rcases hwithin h hh with ⟨w, hw⟩ | ⟨up, fields, key, hup, -⟩
    · exact (at?_singleton hw).imp And.left And.left
    · rcases at?_singleton hup with ⟨-, hobject⟩ | ⟨-, hobject⟩ <;> cases hobject
  have hpaths : ["$[0]", "$"] = [rootPath ++ Position.text f.place,
      rootPath ++ Position.text g.place] := congrArg (List.map Diagnostic.path) hfs
  rcases hplace f (by simp) with hf | hf <;> rcases hplace g (by simp) with hg | hg <;>
    rw [hf, hg] at hpaths
  case inr.inl =>
    -- the number is inside the list
    have hbefore : f.Before g := (List.pairwise_pair.mp horder)
    exact hbefore ⟨.item 0, [], by rw [hf, hg]; rfl⟩
  all_goals exact absurd hpaths (by decide)

end Catalog

end DocSchema
