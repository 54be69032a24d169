import DocSchema.CommandLine.Options
import DocSchema.CommandLine.Usage
import DocSchema.Report.Card
import DocSchema.Schema.Source

/-!
A run of the command line: from arguments and files to an exit code and two streams of text.

The document, the schema and the root type are looked for in this order; the first that cannot be
had ends the run with code 2. A valid document gives code 0, an invalid one code 1 and its
diagnostics. Remarks are written to the error stream if they are asked for.
-/

namespace DocSchema.CommandLine

/-- A piece of the error stream: text, or a remark, which is written with a time stamp. -/
inductive Piece where
  | text (s : String)
  | remark (n : Note)

/-- The line of a remark. -/
def Piece.render (stamp : String) : Piece → String
  | .text s => s
  | .remark n => s!"{stamp} DEBUG {n.topic}: {n.text}\n"

/-- What a run leaves behind. A failure that the program does not report takes the place of the
exit code. -/
structure Outcome where
  exit : Except Failure Nat
  output : String
  errors : List Piece

/-- The error stream, with one stamp for all remarks. -/
def Outcome.errorText (o : Outcome) (stamp : String) : String :=
  String.join (o.errors.map (Piece.render stamp))

/-- The remarks as pieces, if they are asked for. -/
def remarks (r : Request) (notes : List Note) : List Piece :=
  if r.verbose then notes.map .remark else []

/-- The root name asked for, null if none. -/
def Request.rootName (r : Request) : Json :=
  match r.root with
  | some name => .string name
  | none => .null

/-- The path of the schema asked for. -/
def Request.schemaPath (r : Request) : Except Failure String :=
  match r.schema with
  | some path => .ok path
  | none => .error .noPath

/-- Document text, catalog and root type of a request. -/
def prepare (folder : Folder) (r : Request) : Recorded Failure (String × Catalog × String) := do
  let document ← settled (loadDocument folder r.document)
  let schema ← settled r.schemaPath
  let catalog ← loadCatalog folder schema
  let root ← settled (catalog.resolveRoot r.rootName)
  note "typegraph" s!"validating {r.document} against {schema} (root {root})"
  return (document, catalog, root)

/-- What is printed for diagnostics: exit code, output, errors. -/
def present (markdown : Bool) (found : List Diagnostic) : Nat × String × String :=
  match found with
  | [] => (0, "JSON is valid.\n", "")
  | found =>
    if markdown then (1, Card.standard found ++ "\n", "")
    else (1, "", "Validation failed:\n" ++ String.join (found.map fun d => s!"- {d.line}\n"))

/-- Validates a prepared document. -/
def check (r : Request) (document : String) (catalog : Catalog) (root : String) : Outcome :=
  let run : Recorded Fault (List Diagnostic) :=
    catalog.validate (.text document) (.string root)
  match run.run.run [] with
  | (.ok found, notes) =>
    let (code, output, errors) := present r.markdown found
    ⟨.ok code, output, remarks r notes ++ [.text errors]⟩
  | (.error f, notes) => ⟨.error (.fault f), "", remarks r notes⟩

/-- Carries out a request. -/
def validate (folder : Folder) (r : Request) : Outcome :=
  match (prepare folder r).run.run [] with
  | (.ok (document, catalog, root), notes) =>
    let o := check r document catalog root
    { o with errors := remarks r notes ++ o.errors }
  | (.error e, notes) =>
    match e.inInput? with
    | some message =>
      ⟨.ok 2, "", remarks r notes ++ [.text s!"Failed to validate JSON:\n- {message}\n"]⟩
    | none => ⟨.error e, "", remarks r notes⟩

/-- Runs the command line in a folder. -/
def run (folder : Folder) (argv : List String) : Outcome :=
  match parse argv with
  | .ok r => validate folder r
  | .error .help => ⟨.ok 0, help, []⟩
  | .error .version => ⟨.ok 0, versionLine, []⟩
  | .error (.misuse e) => ⟨.ok 2, "", [.text (misuse e.reason)]⟩

end DocSchema.CommandLine
