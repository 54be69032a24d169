import DocSchema.Pattern.Parser
import DocSchema.Pattern.Matcher

/-!
Pattern literals: a source between slashes, followed by flag letters.

Of the flag letters `i`, `m` and `s` change the meaning of the pattern, and `g`, `y`, `u` and `d` do
not. Unless the pattern is matched line by line, `$` means the very end of the text.
-/

namespace DocSchema.Pattern

/-- The flags after one more letter. -/
def addFlag (f : Flags) (c : Char) : Option Flags :=
  match c with
  | 'i' => some { f with ignoreCase := true }
  | 'm' => some { f with multiline := true }
  | 's' => some { f with dotAll := true }
  | 'g' | 'y' | 'u' | 'd' => some f
  | _ => none

/-- The flags that letters ask for. -/
def flagsOf (letters : List Char) : Option Flags := letters.foldlM addFlag Flags.none

/-- The outcome of reading a source: a pattern, none if it is malformed, or a fault. -/
def SourceError.toOutcome : Except SourceError Pattern → Except Fault (Option Pattern)
  | .ok p => .ok (some p)
  | .error .malformed => .ok none
  | .error .repeatTooLarge => .error .tooLarge
  | .error (.tooManyDigits n) => .error (.tooManyDigits n)
  | .error .conflictingModes => .error .conflictingModes

/-- The pattern of a source and flag letters; none if either is bad. -/
def compile (source letters : List Char) : Except Fault (Option Pattern) :=
  match flagsOf letters with
  | none => .ok none
  | some flags =>
    SourceError.toOutcome (parse flags (if flags.multiline then source else anchorAtEnd source))

def isFlagLetter (c : Char) : Bool := 'a' ≤ c && c ≤ 'z'

/-- The source and the flag letters of a literal: the last slash separates them. -/
def splitLiteral (cs : List Char) : Option (List Char × List Char) :=
  match cs with
  | '/' :: rest =>
    let letters := (rest.reverse.takeWhile (· ≠ '/')).reverse
    match rest.reverse.dropWhile (· ≠ '/') with
    | _ :: source => if letters.all isFlagLetter then some (source.reverse, letters) else none
    | [] => none
  | _ => none

/-- The pattern of a literal; none if the literal is bad. -/
def compileLiteral (cs : List Char) : Except Fault (Option Pattern) :=
  match splitLiteral cs with
  | some (source, letters) => compile source letters
  | none => .ok none

end DocSchema.Pattern
