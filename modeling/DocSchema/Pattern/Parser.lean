import DocSchema.Pattern.Escape
import DocSchema.Character.Name

/-!
Reading pattern sources.

A source is a sequence of tokens; alternatives and sequences are read by descent, each group one
level deeper. A quantifier applies to the item in front of it, which must not be an anchor or
another repetition. Flags set at the very start hold for the whole pattern, flags of a group for
that group. Groups are numbered in the order of their opening, and a reference back needs a group
that is closed.
-/

namespace DocSchema.Pattern

/-- The flags in force. -/
structure Flags where
  ignoreCase : Bool
  multiline : Bool
  dotAll : Bool
  verbose : Bool
  ascii : Bool
  unicode : Bool
  template : Bool
  deriving DecidableEq

def Flags.none : Flags := ⟨false, false, false, false, false, false, false⟩

def Flags.mode (f : Flags) : Mode := ⟨f.ignoreCase, f.ascii, f.dotAll, f.multiline⟩

/-- Either flag of two. -/
def Flags.union (f g : Flags) : Flags :=
  ⟨f.ignoreCase || g.ignoreCase, f.multiline || g.multiline, f.dotAll || g.dotAll,
    f.verbose || g.verbose, f.ascii || g.ascii, f.unicode || g.unicode, f.template || g.template⟩

/-- Flags turned on and off by a group; naming a character set replaces the one in force. -/
def Flags.adjust (f on off : Flags) : Flags :=
  let sets := on.ascii || on.unicode
  ⟨(f.ignoreCase || on.ignoreCase) && !off.ignoreCase,
    (f.multiline || on.multiline) && !off.multiline,
    (f.dotAll || on.dotAll) && !off.dotAll,
    (f.verbose || on.verbose) && !off.verbose,
    if sets then on.ascii else f.ascii,
    if sets then on.unicode else f.unicode,
    f.template⟩

/-- What is known about the pattern read so far. -/
structure Ledger where
  /-- Flags of the whole pattern. -/
  flags : Flags
  /-- Groups opened. -/
  groups : Nat
  /-- Widths of the groups that are closed. -/
  closed : List (Nat × (Nat × Nat))
  names : List (String × Nat)
  /-- Groups opened before the outermost lookbehind that is being read. -/
  behind : Option Nat
  /-- The greatest group number that a condition names. -/
  wanted : Nat
  /-- A repetition was read. -/
  repeats : Bool
  /-- A lookbehind has no fixed width. -/
  unfixed : Bool

def Ledger.start (flags : Flags) : Ledger := ⟨flags, 0, [], [], none, 0, false, false⟩

def Ledger.isClosed (l : Ledger) (n : Nat) : Bool := l.closed.any (·.1 = n)

def Ledger.width (l : Ledger) (n : Nat) : Nat × Nat :=
  ((l.closed.find? (·.1 = n)).map (·.2)).getD (0, 0)

def Ledger.named? (l : Ledger) (name : List Char) : Option Nat :=
  (l.names.find? (·.1 = String.ofList name)).map (·.2)

/-- Inside a lookbehind only groups closed before it may be named. -/
def Ledger.admits (l : Ledger) (n : Nat) : Bool :=
  match l.behind with
  | some opened => l.isClosed n && n ≤ opened
  | none => true

/-- A pattern in a sequence; quantifiers ask what it is. -/
inductive Item where
  | plain (p : Pattern)
  | anchor (p : Pattern)
  | repetition (p : Pattern)

def Item.pattern : Item → Pattern
  | .plain p | .anchor p | .repetition p => p

/-- The items, given in reverse order, one after the other. -/
def sequence (items : List Item) : Pattern :=
  match items with
  | [] => .empty
  | i :: rest => rest.foldl (fun p i => .seq i.pattern p) i.pattern

/-! ### Names and numbers -/

/-- The text up to a closing character, which is not empty. -/
def textUntil (close : Char) : List Char → List Token → Read (List Char)
  | _, [] | _, .dangling :: _ => .error .malformed
  | done, t :: rest =>
    if t = .char close then
      if done.isEmpty then .error .malformed else .ok (done, rest)
    else textUntil close (done ++ t.chars) rest

def nameUntil (close : Char) (ts : List Token) : Read (List Char) :=
  match textUntil close [] ts with
  | .ok (name, rest) => if isName name then .ok (name, rest) else .error .malformed
  | .error e => .error e

/-- Digits of any script, single underscores between them. -/
def spacedDigits? : Bool → Nat → List Char → Option Nat
  | afterDigit, n, [] => if afterDigit then some n else none
  | afterDigit, n, c :: rest =>
    if c = '_' then if afterDigit then spacedDigits? false n rest else none
    else match digit? c with
      | some d => spacedDigits? true (n * 10 + d) rest
      | none => none

/-- A group number as a condition names it: trimmed, with an optional plus sign. -/
def groupNumber? (cs : List Char) : Option Nat :=
  match trim cs with
  | '+' :: ds => spacedDigits? false 0 ds
  | ds => spacedDigits? false 0 ds

/-- Group numbers stay below this bound. -/
def maxGroups : Nat := 1073741823

/-- The group that a condition names. -/
def conditionGroup (l : Ledger) (name : List Char) : Except SourceError Nat :=
  if isName name then
    match l.named? name with
    | some n => .ok n
    | none => .error .malformed
  else
    match groupNumber? name with
    | some n => if n = 0 ∨ maxGroups ≤ n then .error .malformed else .ok n
    | none => .error .malformed

/-! ### Flags -/

def flag? : Char → Option Flags
  | 'i' => some { Flags.none with ignoreCase := true }
  | 'm' => some { Flags.none with multiline := true }
  | 's' => some { Flags.none with dotAll := true }
  | 'x' => some { Flags.none with verbose := true }
  | 'a' => some { Flags.none with ascii := true }
  | 'u' => some { Flags.none with unicode := true }
  | 't' => some { Flags.none with template := true }
  | _ => none

/-- Flags before a `)`, `:` or `-`, and which of these it was. -/
def flagsOn : Flags → List Token → Read (Flags × Char)
  | on, .char c :: rest =>
    match flag? c with
    | some f =>
      let on := on.union f
      if on.ascii && on.unicode then .error .malformed else flagsOn on rest
    | none =>
      if c = ')' ∨ c = ':' ∨ c = '-' then .ok ((on, c), rest) else .error .malformed
  | _, _ => .error .malformed

/-- Flags after a `-`, up to the `:`. -/
def flagsOff : Flags → List Token → Read Flags
  | off, .char c :: rest =>
    match flag? c with
    | some f =>
      if f.ascii || f.unicode then .error .malformed else flagsOff (off.union f) rest
    | none => if c = ':' ∧ off ≠ Flags.none then .ok (off, rest) else .error .malformed
  | _, _ => .error .malformed

/-- The two sets share a flag. -/
def Flags.overlap (f g : Flags) : Bool :=
  f.ignoreCase && g.ignoreCase || f.multiline && g.multiline || f.dotAll && g.dotAll ||
    f.verbose && g.verbose

/-- What an extension with flags asks for: flags of the whole pattern, or of one group. -/
inductive FlagGroup where
  | whole (on : Flags)
  | scoped (on off : Flags)

/-- The flags behind `(?`. -/
def flagGroup (ts : List Token) : Read FlagGroup :=
  match flagsOn Flags.none ts with
  | .error e => .error e
  | .ok ((on, close), rest) =>
    if close = ')' then
      if on = Flags.none then .error .malformed else .ok (.whole on, rest)
    else if on.template then .error .malformed
    else if close = ':' then
      if on = Flags.none then .error .malformed else .ok (.scoped on Flags.none, rest)
    else
      match flagsOff Flags.none rest with
      | .error e => .error e
      | .ok (off, rest) =>
        if off.template || on.overlap off then .error .malformed else .ok (.scoped on off, rest)

/-! ### Quantifiers -/

/-- Repeat counts stay below this bound. -/
def maxRepeat : Nat := 4294967295

/-- A repeat count. -/
def repeatCount (ds : List Char) : Except SourceError Nat :=
  if digitLimit < ds.length then .error (.tooManyDigits ds.length)
  else if maxRepeat ≤ valueIn 10 ds then .error .repeatTooLarge
  else .ok (valueIn 10 ds)

/-- The counts between braces, from behind the opening one on; none if they are no counts, and the
brace is a plain character. -/
def braces (ts : List Token) : Except SourceError (Option ((Nat × Option Nat) × List Token)) :=
  if ts.head? = some (.char '\x7d') then .ok none
  else
    let (low, rest) := takeChars isDecimalDigit ts.length ts
    let (high, rest) := match rest with
      | .char ',' :: rest => takeChars isDecimalDigit rest.length rest
      | _ => (low, rest)
    match rest with
    | [.char '\x7d', .dangling] => .error .malformed
    | .char '\x7d' :: rest => do
      let least ← if low.isEmpty then .ok 0 else repeatCount low
      if high.isEmpty then return some ((least, none), rest)
      let most ← repeatCount high
      if most < least then .error .malformed else return some ((least, some most), rest)
    | _ => .ok none

/-- The counts of a quantifier; none if the character is none. -/
def quantifier (c : Char) (rest : List Token) :
    Except SourceError (Option ((Nat × Option Nat) × List Token)) :=
  match c with
  | '?' => .ok (some ((0, some 1), rest))
  | '*' => .ok (some ((0, none), rest))
  | '+' => .ok (some ((1, none), rest))
  | '\x7b' => braces rest
  | _ => .ok none

/-- The manner behind a quantifier. -/
def greed (ts : List Token) : Greed × List Token :=
  match ts with
  | .char '?' :: rest => (.lazy, rest)
  | .char '+' :: rest => (.possessive, rest)
  | _ => (.greedy, ts)

/-- The items with the latest one repeated. -/
def repeatLast (g : Greed) (counts : Nat × Option Nat) :
    List Item → Except SourceError (List Item)
  | .plain p :: rest => .ok (.repetition (.times g counts.1 counts.2 p) :: rest)
  | _ => .error .malformed

/-! ### Escapes outside classes -/

def anchorEscape? : Char → Option Anchor
  | 'A' => some .textStart
  | 'b' => some .boundary
  | 'B' => some .noBoundary
  | 'Z' => some .textEnd
  | _ => none

/-- A reference back to a group that is closed. -/
def reference (l : Ledger) (f : Flags) (n : Nat) : Except SourceError Item :=
  if l.isClosed n && l.admits n then .ok (.plain (.backref f.mode n)) else .error .malformed

/-- An escape that starts with a digit: octal with three octal digits or a leading zero, else the
number of a group. -/
def digitEscape (l : Ledger) (f : Flags) (c : Char) (rest : List Token) : Read Item :=
  let code (n : Nat) : Item := .plain (.one f.mode (.literal false n))
  if c = '0' then
    let (ds, rest) := takeChars isOctal 2 rest
    .ok (code (valueIn 8 ds), rest)
  else
    match takeChars isDecimalDigit 1 rest with
    | ([d], more) =>
      match isOctal c && isOctal d, takeChars isOctal 1 more with
      | true, ([e], more) =>
        if valueIn 8 [c, d, e] ≤ 0o377 then .ok (code (valueIn 8 [c, d, e]), more)
        else .error .malformed
      | _, _ => (reference l f (valueIn 10 [c, d])).map (·, more)
    | _ => (reference l f (valueIn 10 [c])).map (·, rest)

/-- An escape outside classes. -/
def outerEscape (l : Ledger) (f : Flags) (c : Char) (rest : List Token) : Read Item :=
  match anchorEscape? c, category? c, controlCode? c with
  | some a, _, _ => .ok (.anchor (.anchor f.mode a), rest)
  | none, some (negated, k), _ => .ok (.plain (.one f.mode (.category negated k)), rest)
  | none, none, some n => .ok (.plain (.one f.mode (.literal false n)), rest)
  | none, none, none =>
    if isDecimalDigit c then digitEscape l f c rest
    else (codeEscape c rest).map fun (n, rest) => (.plain (.one f.mode (.literal false n)), rest)

/-! ### Groups -/

/-- What an opening parenthesis starts. -/
inductive Opening where
  | capture (name : Option (List Char))
  | plain (on off : Flags)
  | atomic
  | look (behind negative : Bool)
  | condition (group : Nat)
  | reference (name : List Char)
  | comment
  | flags (on : Flags)

/-- What follows the end of a comment. -/
def afterComment : List Token → Except SourceError (List Token)
  | [] | .dangling :: _ => .error .malformed
  | t :: rest => if t = .char ')' then .ok rest else afterComment rest

/-- The extension behind `(?`. -/
def extension (l : Ledger) (ts : List Token) : Read Opening :=
  match ts with
  | .char 'P' :: .char '<' :: rest => (nameUntil '>' rest).map fun (n, rest) =>
      (.capture (some n), rest)
  | .char 'P' :: .char '=' :: rest => (nameUntil ')' rest).map fun (n, rest) =>
      (.reference n, rest)
  | .char ':' :: rest => .ok (.plain Flags.none Flags.none, rest)
  | .char '#' :: rest => (afterComment rest).map (.comment, ·)
  | .char '=' :: rest => .ok (.look false false, rest)
  | .char '!' :: rest => .ok (.look false true, rest)
  | .char '<' :: .char '=' :: rest => .ok (.look true false, rest)
  | .char '<' :: .char '!' :: rest => .ok (.look true true, rest)
  | .char '>' :: rest => .ok (.atomic, rest)
  | .char '(' :: rest =>
    match textUntil ')' [] rest with
    | .error e => .error e
    | .ok (name, rest) => (conditionGroup l name).map fun n => (.condition n, rest)
  | ts =>
    match flagGroup ts with
    | .error e => .error e
    | .ok (.whole on, rest) => .ok (.flags on, rest)
    | .ok (.scoped on off, rest) => .ok (.plain on off, rest)

/-- What an opening parenthesis starts, given what follows it. -/
def opening (l : Ledger) : List Token → Read Opening
  | .char '?' :: rest => extension l rest
  | ts => .ok (.capture none, ts)

/-- Opens a group, which must not reuse a name. -/
def Ledger.open? (l : Ledger) (name : Option (List Char)) : Except SourceError (Nat × Ledger) :=
  let n := l.groups + 1
  match name with
  | none => .ok (n, { l with groups := n })
  | some name =>
    if (l.named? name).isSome then .error .malformed
    else .ok (n, { l with groups := n, names := (String.ofList name, n) :: l.names })

/-- Closes a group. -/
def Ledger.close (l : Ledger) (n : Nat) (p : Pattern) : Ledger :=
  { l with closed := (n, p.widths l.width) :: l.closed }

/-- Enters a lookbehind. -/
def Ledger.enterBehind (l : Ledger) : Ledger :=
  { l with behind := some (l.behind.getD l.groups) }

/-- Leaves a lookbehind that was entered from `outer`; its pattern should have a fixed width. -/
def Ledger.leaveBehind (l outer : Ledger) (p : Pattern) : Ledger :=
  let (low, high) := p.widths l.width
  { l with behind := outer.behind, unfixed := l.unfixed || low ≠ high || maxRepeat < low }

def expectClose : List Token → Except SourceError (List Token)
  | .char ')' :: rest => .ok rest
  | _ => .error .malformed

/-! ### Descent -/

/-- What a reader of patterns yields: the pattern, the ledger after it, and what is left. -/
abbrev Part := Except SourceError (Pattern × Ledger × List Token)

/-- What follows the line that a comment is on. -/
def afterLine : List Token → List Token
  | [] => []
  | .dangling :: rest => .dangling :: rest
  | t :: rest => if t = .char '\n' then rest else afterLine rest

/-- Blank tokens and comments of the verbose notation; what remains if the token is one. -/
def skipVerbose : List Token → Option (List Token)
  | .char c :: rest =>
    if c = ' ' ∨ ('\t' ≤ c ∧ c ≤ '\r') then some rest
    else if c = '#' then some (afterLine rest)
    else none
  | _ => none

/-- Where in the pattern a sequence stands: whether flags of the whole pattern may still be set
there, and the flags of the enclosing group, if there is one. -/
structure Context where
  first : Bool
  scope : Option Flags

def Context.flags (c : Context) (l : Ledger) : Flags := c.scope.getD l.flags

/-- A context inside a group. -/
def Context.inner (f : Flags) : Context := ⟨false, some f⟩

mutual

/-- Alternatives, separated by bars. They stay apart also where each of them, behind what all start
with, is a single character, so that an engine would gather them into one class. The difference shows
in one case, which is outside the model: where case is ignored, a character beyond the basic plane is
compared here in all its variants, as a literal, and not with the lower case alone, as a member of a
class (`ClassItem.holds`). -/
def alternatives : Nat → Context → Ledger → List Token → Part
  | 0, _, _, _ => .error .malformed
  | fuel + 1, ctx, l, ts =>
    match items fuel ctx [] l ts with
    | .error e => .error e
    | .ok (p, l, .char '|' :: rest) =>
      match alternatives fuel { ctx with first := false } l rest with
      | .error e => .error e
      | .ok (q, l, rest) => .ok (.alt p q, l, rest)
    | .ok done => .ok done

/-- The items of a sequence, in reverse order, up to a bar, a closing parenthesis or the end. -/
def items : Nat → Context → List Item → Ledger → List Token → Part
  | 0, _, _, _, _ => .error .malformed
  | fuel + 1, ctx, done, l, ts =>
    let f := ctx.flags l
    match (if f.verbose then skipVerbose ts else none) with
    | some rest => items fuel ctx done l rest
    | none =>
      match ts with
      | [] | .char '|' :: _ | .char ')' :: _ => .ok (sequence done, l, ts)
      | .dangling :: _ => .error .malformed
      | .escape c :: rest =>
        match outerEscape l f c rest with
        | .error e => .error e
        | .ok (i, rest) => items fuel ctx (i :: done) l rest
      | .char '(' :: rest => parenthesis fuel ctx done l rest
      | .char c :: rest =>
        match quantifier c rest with
        | .error e => .error e
        | .ok (some (counts, rest)) =>
          let (g, rest) := greed rest
          match repeatLast g counts done with
          | .error e => .error e
          | .ok done => items fuel ctx done { l with repeats := true } rest
        | .ok none =>
          match c with
          | '[' =>
            match charClass rest with
            | .error e => .error e
            | .ok (s, rest) => items fuel ctx (.plain (.one f.mode s) :: done) l rest
          | '.' => items fuel ctx (.plain (.one f.mode .any) :: done) l rest
          | '^' => items fuel ctx (.anchor (.anchor f.mode .lineStart) :: done) l rest
          | '$' => items fuel ctx (.anchor (.anchor f.mode .lineEnd) :: done) l rest
          | c => items fuel ctx (.plain (.one f.mode (.literal false c.toNat)) :: done) l rest

/-- A group, from behind its opening parenthesis on, and the items after it. -/
def parenthesis : Nat → Context → List Item → Ledger → List Token → Part
  | 0, _, _, _, _ => .error .malformed
  | fuel + 1, ctx, done, l, ts =>
    let f := ctx.flags l
    match opening l ts with
    | .error e => .error e
    | .ok (.comment, rest) => items fuel ctx done l rest
    | .ok (.flags on, rest) =>
      if ctx.first && done.isEmpty then
        items fuel ctx done { l with flags := l.flags.union on } rest
      else .error .malformed
    | .ok (.reference name, rest) =>
      match l.named? name with
      | none => .error .malformed
      | some n =>
        match reference l f n with
        | .error e => .error e
        | .ok i => items fuel ctx (i :: done) l rest
    | .ok (.capture name, rest) => do
      let (n, l) ← l.open? name
      let (p, l, rest) ← alternatives fuel (.inner f) l rest
      let rest ← expectClose rest
      items fuel ctx (.plain (.group n p) :: done) (l.close n p) rest
    | .ok (.plain on off, rest) => do
      let (p, l, rest) ← alternatives fuel (.inner (f.adjust on off)) l rest
      let rest ← expectClose rest
      items fuel ctx (.plain p :: done) l rest
    | .ok (.atomic, rest) => do
      let (p, l, rest) ← alternatives fuel (.inner f) l rest
      let rest ← expectClose rest
      items fuel ctx (.plain (.atomic p) :: done) l rest
    | .ok (.look false negative, rest) => do
      let (p, l, rest) ← alternatives fuel (.inner f) l rest
      let rest ← expectClose rest
      items fuel ctx (.plain (.ahead negative p) :: done) l rest
    | .ok (.look true negative, rest) => do
      let (p, inside, rest) ← alternatives fuel (.inner f) l.enterBehind rest
      let rest ← expectClose rest
      let width := (p.widths inside.width).1
      items fuel ctx (.plain (.behind negative width p) :: done) (inside.leaveBehind l p) rest
    | .ok (.condition n, rest) => do
      if !l.admits n then .error .malformed
      let l := { l with wanted := max l.wanted n }
      let (yes, l, rest) ← items fuel (.inner f) [] l rest
      match rest with
      | .char '|' :: rest => do
        let (no, l, rest) ← items fuel (.inner f) [] l rest
        let rest ← expectClose rest
        items fuel ctx (.plain (.ifGroup n yes no) :: done) l rest
      | rest => do
        let rest ← expectClose rest
        items fuel ctx (.plain (.ifGroup n yes .empty) :: done) l rest

end

/-! ### One step of each of the three readers -/

section Step

variable {fuel : Nat} {ctx : Context} {done : List Item} {l l₁ : Ledger}
  {ts more rest : List Token} {p : Pattern}

theorem alternatives_bar (h : items fuel ctx [] l ts = .ok (p, l₁, .char '|' :: more)) :
    alternatives (fuel + 1) ctx l ts =
      match alternatives fuel { ctx with first := false } l₁ more with
      | .error e => .error e
      | .ok (q, l, rest) => .ok (.alt p q, l, rest) := by
  rw [alternatives, h]
  rfl

theorem items_dangling (hv : (ctx.flags l).verbose = false) (ts : List Token) :
    items (fuel + 1) ctx done l (.dangling :: ts) = .error .malformed := by
  rw [items, hv]
  rfl

theorem parenthesis_comment (h : opening l ts = .ok (.comment, rest)) :
    parenthesis (fuel + 1) ctx done l ts = items fuel ctx done l rest := by
  rw [parenthesis, h]

end Step

/-- What the ledger and the unread tokens say at the end of a source. -/
def settle (p : Pattern) (l : Ledger) (rest : List Token) : Except SourceError Pattern :=
  if l.flags.ascii && l.flags.unicode then .error .conflictingModes
  else if !rest.isEmpty || l.groups < l.wanted || l.unfixed || l.flags.template && l.repeats then
    .error .malformed
  else .ok p

/-- Reads a pattern source under the given flags. -/
def parse (flags : Flags) (source : List Char) : Except SourceError Pattern :=
  let ts := Token.ofChars source
  match alternatives (3 * ts.length + 3) ⟨true, none⟩ (.start flags) ts with
  | .error e => .error e
  | .ok (p, l, rest) => settle p l rest

end DocSchema.Pattern
