/-!
Sets of characters given by ascending ranges of code points.
-/

namespace DocSchema

/-- Membership in ascending, disjoint ranges; each range includes both its ends. -/
def within : List (Nat × Nat) → Nat → Bool
  | [], _ => false
  | (first, last) :: rest, c => if c < first then false else c ≤ last || within rest c

end DocSchema
