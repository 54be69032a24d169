import DocSchema.Json.Basic
import DocSchema.Text.Quoted

/-!
Values as they appear in messages.

Inside a container, and where a message says so, text is quoted (`display`); on its own it stands
as it is (`plain`).
-/

namespace DocSchema

/-- Names of the numbers without digits, in messages. -/
def Number.messageNames : Double.SpecialNames := ⟨"nan", "inf"⟩

def Number.plain : Number → String
  | .int n => toString n
  | .double x => x.text messageNames

namespace Json

mutual

/-- The quoted form of a value. -/
def shown : Json → List Char
  | .null => "None".toList
  | .bool true => "True".toList
  | .bool false => "False".toList
  | .number n => n.plain.toList
  | .string s => Quoted.text s.toList
  | .array items => '[' :: shownItems true items ++ [']']
  | .object fields => '\x7b' :: shownFields true fields ++ ['\x7d']

def shownItems (first : Bool) : List Json → List Char
  | [] => []
  | v :: rest => (if first then [] else [',', ' ']) ++ shown v ++ shownItems false rest

def shownFields (first : Bool) : List (String × Json) → List Char
  | [] => []
  | (k, v) :: rest =>
    (if first then [] else [',', ' ']) ++ Quoted.text k.toList ++ [':', ' '] ++ shown v ++
      shownFields false rest

end

/-- The quoted form of a value, as a string. -/
def display (v : Json) : String := String.ofList v.shown

/-- Text as it is, any other value in its quoted form. -/
def plain : Json → String
  | .string s => s
  | v => v.display

end Json

end DocSchema
