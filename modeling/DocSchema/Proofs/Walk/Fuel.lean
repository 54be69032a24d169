import DocSchema.Proofs.Walk.Congruence

/-!
Fuel is no more than a bound: a walk that ends at all ends within its budget, with the same answer.

An answer that did not run out of fuel stays the same with more of it (`outcome_extends`). For the
budget, look at the types that were entered on the way to a call, on the same value and under the
same subject. None of them is entered again in a walk that ends: the least fuel for its definition
would have to be less than itself. So on each level of the document every defined type is entered at
most once, and between two such entries, and across levels, the depth of the node goes down. `need`
adds this up, `outcome_need` is the induction, and `outcome_budget` says that the budget is enough.
-/

namespace DocSchema

/-! ### Answers that more fuel does not change -/

/-- The second answer is the first one, unless the first ran out of fuel. -/
def Extends {α : Type} (r t : Except Fault α) : Prop := r ≠ .error .exhausted → t = r

namespace Extends

variable {α β : Type}

theorem refl (r : Except Fault α) : Extends r r := fun _ => rfl

theorem trans {r t u : Except Fault α} (h : Extends r t) (h' : Extends t u) : Extends r u :=
  fun hne => (h' (h hne ▸ hne)).trans (h hne)

theorem bind {r t : Except Fault α} {k l : α → Except Fault β} (h : Extends r t)
    (hk : ∀ a, r = .ok a → Extends (k a) (l a)) : Extends (r >>= k) (t >>= l) := by
  intro hne
  cases r with
  | error f => rw [h fun hf => hne (by cases hf; rfl)]; rfl
  | ok a => rw [h (by simp)]; exact hk a rfl hne

theorem map {r t : Except Fault α} (k : α → β) (h : Extends r t) :
    Extends (r.map k) (t.map k) := by
  intro hne
  rw [h fun hr => hne (by rw [hr]; rfl)]

theorem under {r t : Outcome} (path : String) (h : Extends r t) :
    Extends (r.under path) (t.under path) := map _ h

theorem andThen {r t r' t' : Outcome} (h : Extends r t) (h' : Extends r' t') :
    Extends (r.andThen r') (t.andThen t') := bind h fun _ _ => map _ h'

theorem anyClean {f : α → Outcome} {g : β → Outcome} {l : List α} {l' : List β}
    (h : List.Forall₂ (fun a b => Extends (f a) (g b)) l l') :
    Extends (DocSchema.anyClean f l) (DocSchema.anyClean g l') := by
  induction h with
  | nil => exact refl _
  | cons hab _ ih =>
    rw [anyClean_cons, anyClean_cons]
    refine bind hab fun ds _ => ?_
    split
    · exact refl _
    · exact ih

end Extends

/-- Extending the answers of parts extends the answer of the whole. -/
theorem extends_congruence : Congruence Extends where
  refl := Extends.refl
  under := Extends.under
  andThen := Extends.andThen
  any h := Extends.bind (Extends.anyClean h) fun _ _ => Extends.refl _

namespace Catalog

variable {c : Catalog} {w w' : Call → Outcome}

/-- A visit whose calls get extended answers has an extended answer. -/
theorem step_extends {x : Call}
    (h : ∀ y, c.Calls (fun _ => True) x y → Extends (w y) (w' y)) :
    Extends (c.step w x) (c.step w' x) :=
  extends_congruence.step x.node.guardAgrees_refl h fun _ hm => h _ hm

/-- More fuel does not change an answer. -/
theorem outcome_extends (c : Catalog) {j k : Nat} (h : j ≤ k) (x : Call) :
    Extends (c.outcome j x) (c.outcome k x) := by
  induction j generalizing k x with
  | zero => exact fun hne => absurd rfl hne
  | succ j ih =>
    obtain ⟨k, rfl⟩ := Nat.exists_eq_add_of_le' h
    rw [outcome_succ, ← Nat.add_assoc, outcome_succ]
    exact step_extends fun y _ => ih (Nat.le_add_left j k) y

theorem outcome_exhausted_of_le {j k : Nat} (h : j ≤ k) {x : Call}
    (hk : c.outcome k x = .error .exhausted) : c.outcome j x = .error .exhausted := by
  by_contra hj
  exact hj (c.outcome_extends h x hj ▸ hk)

/-! ### What a level of the document can take -/

/-- Depth of all declared types but those entered, and one more for each. -/
def depthsBut (entered : List String) : List (String × Node) → Nat
  | [] => 0
  | (t, n) :: rest => (if t ∈ entered then 0 else n.depth + 1) + depthsBut entered rest

theorem depthsBut_nil (types : List (String × Node)) :
    depthsBut [] types = types.foldr (fun t total => t.2.depth + 1 + total) 0 := by
  induction types with
  | nil => rfl
  | cons t types ih => simp [depthsBut, ih]

theorem depthsBut_cons_le (t : String) (entered : List String) (types : List (String × Node)) :
    depthsBut (t :: entered) types ≤ depthsBut entered types := by
  induction types with
  | nil => exact Nat.le_refl _
  | cons u types ih =>
    simp only [depthsBut, List.mem_cons]
    split <;> split <;> first | omega | simp_all

/-- Entering a type takes its depth away. -/
theorem depthsBut_enter {t : String} {entered : List String} {n : Node} (ht : t ∉ entered) :
    ∀ {types : List (String × Node)}, lookup t types = some n →
      n.depth + 1 + depthsBut (t :: entered) types ≤ depthsBut entered types
  | (u, m) :: types, h => by
    simp only [lookup] at h
    simp only [depthsBut, List.mem_cons]
    split at h
    · next hu =>
      subst hu
      obtain rfl : m = n := by simpa using h
      have := depthsBut_cons_le u entered types
      simp only [true_or, if_true, if_neg ht]
      omega
    · next hu =>
      have := depthsBut_enter ht h
      simp only [hu, false_or]
      omega

/-- Fuel that is enough for a call, given the types that were entered on the same value. -/
def need (c : Catalog) (entered : List String) (x : Call) : Nat :=
  x.node.depth + depthsBut entered c.types + (slotDepth x.slot - 1) * depthsBut [] c.types

theorem need_down {entered : List String} {x y : Call} (hs : y.slot = x.slot)
    (hn : y.node.depth < x.node.depth) : c.need entered y < c.need entered x := by
  simp only [need, hs]; omega

theorem slotDepth_pos (s : Slot) : 0 < slotDepth s := by
  cases s with
  | none => exact Nat.one_pos
  | some v => exact v.depth_pos

theorem need_below (entered : List String) {x y : Call} (hs : slotDepth y.slot < slotDepth x.slot)
    (hn : y.node.depth < x.node.depth) : c.need [] y < c.need entered x := by
  have hy := slotDepth_pos y.slot
  have := Nat.mul_le_mul_right (depthsBut [] c.types)
    (show slotDepth y.slot - 1 + 1 ≤ slotDepth x.slot - 1 by omega)
  rw [Nat.succ_mul] at this
  simp only [need]; omega

theorem need_enter {entered : List String} {t : String} {x y : Call} (ht : t ∉ entered)
    (hy : lookup t c.types = some y.node) (hs : y.slot = x.slot) :
    c.need (t :: entered) y < c.need entered x := by
  have := depthsBut_enter ht hy
  have := x.node.depth_pos
  simp only [need, hs]; omega

/-! ### The budget is enough -/

/-- The least fuel that gives an answer, less one. -/
theorem exists_least_answer {x : Call} {k : Nat} (h : c.outcome k x ≠ .error .exhausted) :
    ∃ j, j < k ∧ c.outcome j x = .error .exhausted ∧ c.outcome (j + 1) x = c.outcome k x := by
  induction k with
  | zero => exact absurd rfl h
  | succ k ih =>
    by_cases hk : c.outcome k x = .error .exhausted
    · exact ⟨k, Nat.lt_succ_self k, hk, rfl⟩
    · obtain ⟨j, hj, hexhausted, hanswer⟩ := ih hk
      refine ⟨j, Nat.lt_succ_of_lt hj, hexhausted, hanswer.trans ?_⟩
      exact (c.outcome_extends (Nat.le_succ k) x hk).symm

/-- A walk that ends within `k + 1` units ends within the fuel it needs, if the definitions of the
types entered on this value do not end within `k`. -/
theorem outcome_need (k : Nat) : ∀ (entered : List String) (x : Call),
    (∀ t ∈ entered, ∀ d, lookup t c.types = some d →
      c.outcome k ⟨d, x.slot, x.subject⟩ = .error .exhausted) →
    c.outcome (k + 1) x ≠ .error .exhausted →
    c.outcome (c.need entered x) x = c.outcome (k + 1) x := by
  induction k using Nat.strongRecOn with
  | ind k ih =>
    intro entered x hentered hx
    obtain ⟨m, hm⟩ : ∃ m, c.need entered x = m + 1 :=
      Nat.exists_eq_succ_of_ne_zero (by have := x.node.depth_pos; simp only [need]; omega)
    rw [outcome_succ] at hx ⊢
    rw [hm, outcome_succ]
    refine step_extends (fun y hy hne => ?_) hx
    obtain ⟨j, hj, hexhausted, hanswer⟩ := exists_least_answer hne
    -- the answer within `j + 1` units is found with the fuel that `y` needs, which is at most `m`
    have settle (entered' : List String)
        (hbut : ∀ t ∈ entered', ∀ d, lookup t c.types = some d →
          c.outcome j ⟨d, y.slot, y.subject⟩ = .error .exhausted)
        (hlt : c.need entered' y < c.need entered x) : c.outcome m y = c.outcome k y := by
      have hneed := (ih j hj entered' y hbut (hanswer ▸ hne)).trans hanswer
      rw [← hneed]
      exact c.outcome_extends (by omega) y (hneed ▸ hne)
    have hearlier : ∀ t ∈ entered, ∀ d, lookup t c.types = some d →
        c.outcome j ⟨d, x.slot, x.subject⟩ = .error .exhausted :=
      fun t ht d hd => outcome_exhausted_of_le (Nat.le_of_lt hj) (hentered t ht d hd)
    rcases hy.level with ⟨hs, hg, hn, -⟩ | ⟨hs, hn⟩ | ⟨t, -, ht, hs, hg⟩
    · exact settle entered (hs ▸ hg ▸ hearlier) (need_down hs hn)
    · exact settle [] (by simp) (need_below entered hs hn)
    · have hfresh : t ∉ entered := fun hmem => hne (by
        have := hentered t hmem _ ht
        rwa [← hs, ← hg] at this)
      refine settle (t :: entered) (fun u hu d hd => ?_) (need_enter hfresh ht hs)
      rcases List.mem_cons.mp hu with rfl | hu
      · obtain rfl : y.node = d := by rw [ht] at hd; simpa using hd
        exact hexhausted
      · exact hs ▸ hg ▸ hearlier u hu d hd

theorem need_le_budget (x : Call) : c.need [] x ≤ c.budget x.node x.slot := by
  obtain ⟨levels, hlevels⟩ := Nat.exists_eq_succ_of_ne_zero (Nat.ne_of_gt (slotDepth_pos x.slot))
  have := Nat.mul_le_mul_left levels
    (show depthsBut [] c.types ≤ x.node.depth + depthsBut [] c.types + 1 by omega)
  simp only [need, budget, visitsPerLevel, ← depthsBut_nil, hlevels, Nat.succ_mul,
    Nat.succ_sub_one]
  omega

/-- A walk that ends with some fuel ends within its budget, with the same answer. -/
theorem outcome_budget {k : Nat} {x : Call} (h : c.outcome k x ≠ .error .exhausted) :
    c.outcome (c.budget x.node x.slot) x = c.outcome k x := by
  obtain ⟨j, -, -, hj⟩ := exists_least_answer h
  have hneed := (outcome_need j [] x (by simp) (hj ▸ h)).trans hj
  rw [← hneed]
  exact c.outcome_extends (need_le_budget x) x (hneed ▸ h)

/-- Two calls, perhaps under two catalogs, have the same answer within their budgets, if each answer
of one is an answer of the other with some fuel. -/
theorem outcome_budget_eq {c' : Catalog} {x y : Call}
    (hxy : ∀ j, ∃ k, Extends (c.outcome j x) (c'.outcome k y))
    (hyx : ∀ j, ∃ k, Extends (c'.outcome j y) (c.outcome k x)) :
    c.outcome (c.budget x.node x.slot) x = c'.outcome (c'.budget y.node y.slot) y := by
  have transfer {c c' : Catalog} {x y : Call} {j k : Nat}
      (h : Extends (c.outcome j x) (c'.outcome k y)) (hne : c.outcome j x ≠ .error .exhausted) :
      c'.outcome (c'.budget y.node y.slot) y = c.outcome j x := by
    have hk : c'.outcome k y = c.outcome j x := h hne
    rw [← hk]
    exact outcome_budget (hk ▸ hne)
  by_cases hx : c.outcome (c.budget x.node x.slot) x = .error .exhausted
  · by_contra hne
    rw [hx] at hne
    obtain ⟨k, hk⟩ := hyx (c'.budget y.node y.slot)
    exact hne (hx.symm.trans (transfer hk (Ne.symm hne)))
  · obtain ⟨k, hk⟩ := hxy (c.budget x.node x.slot)
    exact (transfer hk hx).symm

end Catalog

end DocSchema
