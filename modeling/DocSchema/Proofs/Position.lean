import DocSchema.Json.Basic

/-!
Positions in a document: the steps that lead from the whole document down to one of its parts.

A step goes to the value under a key, to an item, or to a key itself, which is text and has no parts
of its own. Paths write the three as `.k`, `[i]` and `.[key:k]`, one after the other.
-/

namespace DocSchema

/-- One step down. -/
inductive Step where
  | member (key : String)
  | item (i : Nat)
  | key (key : String)
  deriving DecidableEq

/-- A step as paths write it. -/
def Step.text : Step → String
  | .member k => s!".{k}"
  | .item i => s!"[{i}]"
  | .key k => s!".[key:{k}]"

/-- Steps from the top down. -/
abbrev Position := List Step

/-- A position as paths write it. -/
def Position.text : Position → String
  | [] => ""
  | t :: rest => t.text ++ Position.text rest

/-- What is at a position. A step to a key is the last one. -/
def Json.at? : Position → Json → Option Json
  | [], v => some v
  | .member k :: rest, .object fields => (lookup k fields).bind (Json.at? rest)
  | .item i :: rest, .array items => items[i]?.bind (Json.at? rest)
  | [.key k], .object fields => (lookup k fields).map fun _ => .string k
  | _, _ => none

end DocSchema
