import DocSchema.Character.Ranges

/-!
White space: the characters of the Unicode property `White_Space`, and the four information
separators U+001C to U+001F.
-/

namespace DocSchema

def blankRanges : List (Nat × Nat) := [
  (9, 13), (28, 32), (133, 133), (160, 160), (5760, 5760), (8192, 8202), (8232, 8233),
  (8239, 8239), (8287, 8287), (12288, 12288)]

/-- The character counts as white space. -/
def isBlank (c : Char) : Bool := within blankRanges c.toNat

/-- Removes leading white space. -/
def trimStart : List Char → List Char
  | [] => []
  | c :: cs => if isBlank c then trimStart cs else c :: cs

/-- Removes trailing white space. -/
def trimEnd (cs : List Char) : List Char := (trimStart cs.reverse).reverse

/-- Removes white space at both ends. -/
def trim (cs : List Char) : List Char := trimEnd (trimStart cs)

end DocSchema
