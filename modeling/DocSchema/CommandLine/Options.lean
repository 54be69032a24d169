import DocSchema.Character.Digit
import DocSchema.Text.Quoted

/-!
Options of the command line.

Arguments are sorted first: into options, plain arguments, and the `--` after which all arguments
are plain. A long option may be shortened as long as it stays the only one, and short options that
take no value may be joined. Options act in the order in which they stand; the two plain arguments
that are wanted may stand anywhere between them.
-/

namespace DocSchema.CommandLine

/-- What an option does. -/
inductive Switch where
  | help
  | version
  | verbose
  | type
  | format
  deriving DecidableEq

/-- The spellings of the options. -/
def spellings : List (String × Switch) :=
  [("-h", .help), ("--help", .help), ("--version", .version), ("-v", .verbose),
    ("--verbose", .verbose), ("--type", .type), ("--format", .format)]

namespace Switch

/-- How messages name an option. -/
def label (w : Switch) : String :=
  "/".intercalate ((spellings.filter (·.2 = w)).map (·.1))

/-- The option takes a value. -/
def takesValue : Switch → Bool
  | .type | .format => true
  | _ => false

def ofSpelling? (s : String) : Option Switch := (spellings.find? (·.1 = s)).map (·.2)

end Switch

/-- Why arguments cannot be used. -/
inductive Misuse where
  | ambiguous (argument : String) (matching : List String)
  | ignoredValue (w : Switch) (value : String)
  | valueExpected (w : Switch)
  | invalidChoice (value : String)
  | missing (names : List String)
  | unrecognized (arguments : List String)

/-- The values that `--format` takes. -/
def formats : List String := ["text", "markdown"]

def Misuse.reason : Misuse → String
  | .ambiguous argument matching =>
    let options := ", ".intercalate matching
    s!"ambiguous option: {argument} could match {options}"
  | .ignoredValue w value => s!"argument {w.label}: ignored explicit argument {quoted value}"
  | .valueExpected w => s!"argument {w.label}: expected one argument"
  | .invalidChoice value =>
    let choices := ", ".intercalate (formats.map quoted)
    s!"argument {Switch.format.label}: invalid choice: {quoted value} (choose from {choices})"
  | .missing names => "the following arguments are required: " ++ ", ".intercalate names
  | .unrecognized arguments => "unrecognized arguments: " ++ " ".intercalate arguments

/-! ### Sorting -/

/-- How a value is attached to an option: not at all, after an equals sign, or directly. -/
inductive Attached where
  | nothing
  | equals (value : String)
  | joined (rest : List Char)

/-- An argument after sorting. -/
inductive Word where
  | plain (text : String)
  /-- The `--` that ends the options. -/
  | separator
  | unknown (text : String)
  | option (w : Switch) (spelling : String) (value : Attached)

/-- The text before the first equals sign, and what it is followed by. -/
def splitValue (cs : List Char) : String × Attached :=
  match cs.dropWhile (· ≠ '=') with
  | _ :: value => (String.ofList (cs.takeWhile (· ≠ '=')), .equals (String.ofList value))
  | [] => (String.ofList cs, .nothing)

/-- The options that a text may abbreviate, with the value it brings along. -/
def candidates (cs : List Char) : List (Switch × String × Attached) :=
  match cs with
  | '-' :: '-' :: _ =>
    let (stem, value) := splitValue cs
    spellings.filterMap fun (s, w) =>
      if stem.toList.isPrefixOf s.toList then some (w, s, value) else none
  | '-' :: c :: rest =>
    spellings.filterMap fun (s, w) =>
      if s.toList = ['-', c] then some (w, s, .joined rest)
      else if cs.isPrefixOf s.toList then some (w, s, .nothing)
      else none
  | _ => []

/-- A minus and a number without exponent, perhaps with a line feed at the end. -/
def isNegativeNumber : List Char → Bool
  | '-' :: cs =>
    let body := if cs.getLast? = some '\n' then cs.dropLast else cs
    match body.dropWhile isDigit with
    | [] => !body.isEmpty
    | '.' :: fraction => !fraction.isEmpty && fraction.all isDigit
    | _ => false
  | _ => false

/-- Sorts one argument in front of the separator. -/
def sortOne (arg : String) : Except Misuse Word :=
  let cs := arg.toList
  match cs, Switch.ofSpelling? arg, splitValue cs with
  | '-' :: _ :: _, some w, _ => .ok (.option w arg .nothing)
  | '-' :: _ :: _, none, (stem, value) =>
    match value, Switch.ofSpelling? stem with
    | .equals value, some w => .ok (.option w stem (.equals value))
    | _, _ =>
      match candidates cs with
      | [(w, spelling, value)] => .ok (.option w spelling value)
      | [] =>
        if isNegativeNumber cs || cs.contains ' ' then .ok (.plain arg) else .ok (.unknown arg)
      | several => .error (.ambiguous arg (several.map (·.2.1)))
  | _, _, _ => .ok (.plain arg)

/-- Sorts all arguments. -/
def sort : List String → Except Misuse (List Word)
  | [] => .ok []
  | arg :: rest =>
    if arg = "--" then .ok (.separator :: rest.map .plain)
    else do
      let w ← sortOne arg
      let ws ← sort rest
      .ok (w :: ws)

/-! ### Acting -/

/-- What the arguments ask for so far. -/
structure Settings where
  verbose : Bool
  root : Option String
  format : String
  /-- The plain arguments taken: document, then schema. A second `--` counts as one without text. -/
  taken : List (Option String)
  /-- Arguments that nothing takes. -/
  extra : List String

def Settings.start : Settings := ⟨false, none, "text", [], []⟩

/-- Why the arguments lead to no validation. -/
inductive Stop where
  | help
  | version
  | misuse (e : Misuse)

def Word.isOption : Word → Bool
  | .option .. | .unknown _ => true
  | _ => false

def Word.text : Word → String
  | .plain t | .unknown t => t
  | .separator => "--"
  | .option _ spelling _ => spelling

/-- Lets an option act on its value. -/
def act (s : Settings) (w : Switch) (value : String) : Except Stop Settings :=
  match w with
  | .help => .error .help
  | .version => .error .version
  | .verbose => .ok { s with verbose := true }
  | .type => .ok { s with root := some value }
  | .format =>
    if formats.contains value then .ok { s with format := value }
    else .error (.misuse (.invalidChoice value))

/-- The switches of an option word, each with the value it brings along, and a rest of the word in
which no option was found. -/
structure Switches where
  found : List (Switch × Option String)
  rest : List String

/-- The switches of joined short options, given the first one and the text behind it. -/
def joinedSwitches : Switch → List Char → Except Misuse Switches
  | w, [] => .ok ⟨[(w, none)], []⟩
  | w, c :: rest =>
    if w.takesValue then .ok ⟨[(w, some (String.ofList (c :: rest)))], []⟩
    else if c = '=' then .error (.ignoredValue w (String.ofList rest))
    else if c = '-' then .error (.ignoredValue w (String.ofList (c :: rest)))
    else match Switch.ofSpelling? (String.ofList ['-', c]) with
      | none => .ok ⟨[(w, none)], [String.ofList ('-' :: c :: rest)]⟩
      | some v => do
        let ws ← joinedSwitches v rest
        .ok { ws with found := (w, none) :: ws.found }

/-- The switches of one option word. -/
def switches (w : Switch) : Attached → Except Misuse Switches
  | .nothing => .ok ⟨[(w, none)], []⟩
  | .equals value =>
    if w.takesValue then .ok ⟨[(w, some value)], []⟩ else .error (.ignoredValue w value)
  | .joined rest => joinedSwitches w rest

/-- Lets switches act in order; a value that is wanted and missing is the next plain argument. -/
def actAll (s : Settings) (rest : List Word) :
    List (Switch × Option String) → Except Stop (Settings × List Word)
  | [] => .ok (s, rest)
  | (w, value) :: more =>
    if w.takesValue then
      match value, rest with
      | some value, _ => do actAll (← act s w value) rest more
      | none, .plain value :: rest => do actAll (← act s w value) rest more
      | none, _ => .error (.misuse (.valueExpected w))
    else do actAll (← act s w "") rest more

/-- One plain argument with the separators around it, from the front of the words. -/
def takePlain : List Word → Option (List String × List Word)
  | .separator :: .plain t :: rest => some (["--", t], rest)
  | .plain t :: .separator :: rest => some ([t, "--"], rest)
  | .plain t :: rest => some ([t], rest)
  | _ => none

/-- How many plain arguments are wanted. -/
def wanted : Nat := 2

/-- Takes as many plain arguments as are still wanted from the front of the words. -/
def takePlains : Nat → Settings → List Word → Settings × List Word
  | 0, s, words => (s, words)
  | n + 1, s, words =>
    match takePlain words with
    | some (texts, rest) =>
      takePlains n { s with taken := s.taken ++ [(texts.erase "--").head?] } rest
    | none => (s, words)

/-- Goes through the words; the fuel bounds their number. -/
def go : Nat → Settings → List Word → Except Stop Settings
  | 0, s, _ => .ok s
  | _ + 1, s, [] => .ok s
  | fuel + 1, s, .unknown text :: rest => go fuel { s with extra := s.extra ++ [text] } rest
  | fuel + 1, s, .option w _ value :: rest =>
    match switches w value with
    | .error e => .error (.misuse e)
    | .ok ws => do
      let (s, rest) ← actAll { s with extra := s.extra ++ ws.rest } rest ws.found
      go fuel s rest
  | fuel + 1, s, words =>
    let (after, rest) := takePlains (wanted - s.taken.length) s words
    if s.taken.length < after.taken.length && rest.any (·.isOption) then go fuel after rest
    else
      let surplus := rest.takeWhile (!·.isOption)
      let after := { after with extra := after.extra ++ surplus.map (·.text) }
      go fuel after (rest.dropWhile (!·.isOption))

/-- The names of the plain arguments that are still missing. -/
def missing (s : Settings) : List String := ["JSON", "SCHEMA"].drop s.taken.length

/-- What a validation is asked to do. The schema is missing if only a second `--` stands for it. -/
structure Request where
  document : String
  schema : Option String
  root : Option String
  markdown : Bool
  verbose : Bool

/-- Reads the arguments. -/
def parse (argv : List String) : Except Stop Request :=
  match sort argv with
  | .error e => .error (.misuse e)
  | .ok words => do
    let s ← go (2 * words.length + 2) .start words
    match s.taken, s.extra with
    | [some document, schema], [] =>
      .ok ⟨document, schema, s.root, s.format = "markdown", s.verbose⟩
    | [_, _], extra => .error (.misuse (.unrecognized extra))
    | _, _ => .error (.misuse (.missing (missing s)))

end DocSchema.CommandLine
