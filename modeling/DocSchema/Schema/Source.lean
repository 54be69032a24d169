import DocSchema.Check.Journal
import DocSchema.Check.Validate
import DocSchema.Schema.Catalog
import DocSchema.Schema.Sample

/-!
Where schemas and documents come from: files in a folder, the sample, or the command line itself.

A path is looked up in its tidy form, without empty and `.` steps. A schema that is no file is
looked for among the samples by its last step. A document argument that is no file is the document.
-/

namespace DocSchema

variable {m : Type → Type} [Monad m] [MonadExceptOf Failure m] [Journal m]

/-- Files by name, with their octets. -/
abbrev Folder := List (String × List UInt8)

namespace FilePath

/-- The steps of a path between its slashes. -/
def steps (path : List Char) : List (List Char) :=
  match path with
  | [] => [[]]
  | c :: rest =>
    match c, steps rest with
    | '/', ss => [] :: ss
    | c, s :: ss => (c :: s) :: ss
    | c, [] => [[c]]

/-- The steps that lead anywhere. -/
def realSteps (path : List Char) : List (List Char) :=
  (steps path).filter fun s => s ≠ [] && s ≠ ['.']

/-- The slashes that a path keeps in front: one, or exactly two. -/
def leading : List Char → List Char
  | '/' :: '/' :: '/' :: _ => ['/']
  | '/' :: '/' :: _ => ['/', '/']
  | '/' :: _ => ['/']
  | _ => []

def joined : List (List Char) → List Char
  | [] => []
  | [s] => s
  | s :: rest => s ++ '/' :: joined rest

/-- The tidy form of a path. -/
def tidy (path : String) : String :=
  let cs := leading path.toList ++ joined (realSteps path.toList)
  if cs.isEmpty then "." else String.ofList cs

/-- The last step of a path. -/
def lastStep (path : String) : String :=
  String.ofList ((realSteps path.toList).getLast?.getD [])

/-- A path has a first step, or a whole, beyond the limits of file systems. -/
def tooLong (path : String) : Bool :=
  let first := ((realSteps path.toList).filter (· ≠ ['.', '.'])).head?.getD []
  255 < (String.ofList first).utf8ByteSize || 4096 ≤ (tidy path).utf8ByteSize

end FilePath

namespace Folder

/-- The octets of the file at a path. -/
def file? (folder : Folder) (path : String) : Option (List UInt8) :=
  (folder.find? fun f => FilePath.tidy f.1 = FilePath.tidy path).map (·.2)

end Folder

/-- Every line end becomes a line feed. -/
def plainLines : List Char → List Char
  | [] => []
  | '\r' :: '\n' :: rest => '\n' :: plainLines rest
  | '\r' :: rest => '\n' :: plainLines rest
  | c :: rest => c :: plainLines rest

/-- The text of a file. -/
def fileText (octets : List UInt8) : Except Failure String :=
  match Utf8.decode octets with
  | .ok text => .ok (String.ofList (plainLines text.toList))
  | .error e => .error (.encoding e)

/-- The JSON value of a schema text. -/
def schemaValue (origin text : String) : Except Failure Json :=
  match Json.read false text with
  | .ok v => .ok v
  | .error (.malformed p l c o) => .error (.schemaText origin (.malformed p l c o))
  | .error e => .error (.read e)

/-- The compiled schema at a path. -/
def loadSchema (folder : Folder) (path : String) : m Json := do
  let place := FilePath.tidy path
  match folder.file? path with
  | some octets =>
    note "typegraph.loader" s!"loading compiled schema from {place}"
    let text ← settled (fileText octets)
    settled (schemaValue place text)
  | none =>
    if FilePath.tooLong path then throw (.nameTooLong place)
    else if FilePath.lastStep path = Sample.fileName then
      note "typegraph.loader" s!"loading bundled schema {Sample.fileName}"
      return Sample.schema
    else throw (.notFound path)

/-- The catalog of the compiled schema at a path. -/
def loadCatalog (folder : Folder) (path : String) : m Catalog := do
  let v ← loadSchema folder path
  settled (Catalog.read v)

/-- The document that a command-line argument stands for: the text of a file, or the argument. -/
def loadDocument (folder : Folder) (argument : String) : Except Failure String :=
  match folder.file? argument with
  | some octets => fileText octets
  | none => .ok argument

/-- A document handed over as a value: text that may name a file, or a container as it is. -/
def loadValue (folder : Folder) : Json → Except Failure Json
  | .string s => (loadDocument folder s).map .string
  | .array items => .ok (.array items)
  | .object fields => .ok (.object fields)
  | v => .error (.fault (.notADocument v.storageName))

end DocSchema
