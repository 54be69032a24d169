import DocSchema.Pattern.Parser
import DocSchema.Pattern.Matcher

/-!
Patterns in which `$` holds at the very end of the text only.

`Pattern.sharpened` reads each anchor `$` of a pattern so, and touches nothing else: not what a
literal dollar or a class matches, not the widths and numbers of groups. A pattern has no `$` left if
and only if it is its own sharpened pattern.
-/

namespace DocSchema

namespace Pattern

/-- The end of a line becomes the end of the text. -/
def Anchor.sharpened : Anchor → Anchor
  | .lineEnd => .textEnd
  | a => a

end Pattern

/-- The pattern with each anchor `$` read as the very end of the text. -/
def Pattern.sharpened : Pattern → Pattern
  | .empty => .empty
  | .one mode what => .one mode what
  | .anchor mode a => .anchor mode a.sharpened
  | .seq p q => .seq p.sharpened q.sharpened
  | .alt p q => .alt p.sharpened q.sharpened
  | .group n p => .group n p.sharpened
  | .times greed least most p => .times greed least most p.sharpened
  | .atomic p => .atomic p.sharpened
  | .ahead negative p => .ahead negative p.sharpened
  | .behind negative width p => .behind negative width p.sharpened
  | .backref mode n => .backref mode n
  | .ifGroup n yes no => .ifGroup n yes.sharpened no.sharpened

namespace Pattern

/-- An anchor is as wide as the other. -/
theorem widths_sharpened (group : Nat → Nat × Nat) (p : Pattern) :
    p.sharpened.widths group = p.widths group := by
  induction p with
  | anchor | empty | one | backref | ahead | behind => rfl
  | seq p q ihp ihq | alt p q ihp ihq | ifGroup n p q ihp ihq =>
    simp only [sharpened, widths, ihp, ihq]
  | group n p ih | times greed least most p ih | atomic p ih => simp only [sharpened, widths, ih]

/-! ### Items -/

def Item.sharpened : Item → Item
  | .plain p => .plain p.sharpened
  | .anchor p => .anchor p.sharpened
  | .repetition p => .repetition p.sharpened

theorem Item.pattern_sharpened (i : Item) : i.sharpened.pattern = i.pattern.sharpened := by
  cases i <;> rfl

theorem Item.sharpened_eq_self (i : Item) : i.sharpened = i ↔ i.pattern.sharpened = i.pattern := by
  cases i <;> simp [sharpened, pattern]

theorem foldl_sharpened (items : List Item) (p : Pattern) :
    (items.map Item.sharpened).foldl (fun p i => .seq i.pattern p) p.sharpened =
      (items.foldl (fun p i => .seq i.pattern p) p).sharpened := by
  induction items generalizing p with
  | nil => rfl
  | cons i items ih =>
    rw [List.map_cons, List.foldl_cons, List.foldl_cons, ← ih, Item.pattern_sharpened]
    rfl

theorem sequence_sharpened (items : List Item) :
    sequence (items.map Item.sharpened) = (sequence items).sharpened := by
  cases items with
  | nil => rfl
  | cons i items => rw [List.map_cons, sequence, sequence, Item.pattern_sharpened, foldl_sharpened]

theorem sharpened_of_foldl {items : List Item} {p : Pattern}
    (h : (items.foldl (fun p i => Pattern.seq i.pattern p) p).sharpened =
      items.foldl (fun p i => .seq i.pattern p) p) :
    p.sharpened = p ∧ ∀ i ∈ items, i.sharpened = i := by
  induction items generalizing p with
  | nil => exact ⟨h, List.forall_mem_nil _⟩
  | cons i items ih =>
    obtain ⟨hseq, hitems⟩ := ih h
    simp only [sharpened, Pattern.seq.injEq] at hseq
    exact ⟨hseq.2, List.forall_mem_cons.mpr ⟨i.sharpened_eq_self.mpr hseq.1, hitems⟩⟩

/-- A sequence has no `$` if no item has one. -/
theorem sharpened_of_sequence {items : List Item}
    (h : (sequence items).sharpened = sequence items) : ∀ i ∈ items, i.sharpened = i := by
  cases items with
  | nil => exact List.forall_mem_nil _
  | cons i items =>
    obtain ⟨hi, hitems⟩ := sharpened_of_foldl h
    exact List.forall_mem_cons.mpr ⟨i.sharpened_eq_self.mpr hi, hitems⟩

end Pattern

end DocSchema
