import DocSchema.Character.Blank

/-!
Scanning expression texts: small readers that take something from the front and return the rest.
-/

namespace DocSchema.Expression

def isNameStart (c : Char) : Bool := 'a' ≤ c && c ≤ 'z' || 'A' ≤ c && c ≤ 'Z' || c = '_'

def isNameRest (c : Char) : Bool := isNameStart c || '0' ≤ c && c ≤ '9'

/-- What follows a fixed text. -/
def after? : List Char → List Char → Option (List Char)
  | [], cs => some cs
  | w :: ws, c :: cs => if w = c then after? ws cs else none
  | _ :: _, [] => none

/-- What follows white space that must not be missing. -/
def afterBlanks? : List Char → Option (List Char)
  | c :: cs => if isBlank c then some (trimStart cs) else none
  | [] => none

/-- An identifier of ASCII letters, digits and underscores, not starting with a digit. -/
def identifier? : List Char → Option (List Char × List Char)
  | c :: cs =>
    if isNameStart c then some (c :: cs.takeWhile isNameRest, cs.dropWhile isNameRest) else none
  | [] => none

end DocSchema.Expression
