import DocSchema.Character.Blank
import DocSchema.Diagnostic
import DocSchema.Json.Display

/-!
Report cards: diagnostics as a Markdown document.

Under the title stands the number of diagnostics, then one section per category that occurs, in the
order of the categories, with one bullet per diagnostic in the order of reporting.
-/

namespace DocSchema.Card

/-- Escapes the quotes of inline code. -/
def escapeTicks (s : String) : String :=
  String.ofList (s.toList.flatMap fun c => if c = '\x60' then ['\\', '\x60'] else [c])

/-- A value on a card. -/
def scalar : Json → String
  | .bool true => "true"
  | .bool false => "false"
  | .null => "null"
  | v => escapeTicks v.plain

/-- The bullet of a diagnostic. -/
def bullet (d : Diagnostic) : String :=
  s!"- `{escapeTicks d.path}` **{d.code.name}**: {escapeTicks d.message}"

/-- The marks in front of a heading; a level below one has none. -/
def marks (level : Int) : String := String.ofList (List.replicate level.toNat '#')

/-- The diagnostics of one category. -/
def ofCategory (ds : List Diagnostic) (c : Category) : List Diagnostic :=
  ds.filter (·.category = c)

/-- The lines of one section: heading, bullets, and an empty line; none if nothing occurs. -/
def sectionLines (level : Int) (ds : List Diagnostic) (c : Category) : List String :=
  match ofCategory ds c with
  | [] => []
  | group =>
    s!"{marks level}# {c.name} ({group.length})" ::
      "\n".intercalate (group.map bullet) :: [""]

/-- Removes white space at the end. -/
def trimmedEnd (s : String) : String := String.ofList (trimEnd s.toList)

/-- The card of a list of diagnostics. -/
def render (level : Int) (title : String) (ds : List Diagnostic) : String :=
  let top := [s!"{marks level} {title}", ""]
  match ds with
  | [] => "\n".intercalate (top ++ ["JSON is valid."])
  | ds =>
    trimmedEnd ("\n".intercalate (top ++ [s!"{ds.length} diagnostic(s).", ""] ++
      Category.all.flatMap (sectionLines level ds)))

/-- The level of a card's title, unless another is asked for. -/
def standardLevel : Int := 2

def standardTitle : String := "Validation Report"

/-- The card in its standard form. -/
def standard (ds : List Diagnostic) : String := render standardLevel standardTitle ds

end DocSchema.Card
