import DocSchema.Pattern.Basic

/-!
Matching by backtracking.

A pattern is run against a `Cursor` and a continuation: `run p k` matches `p` at the cursor and then
`k`, trying the alternatives of `p` in order until `k` succeeds. The recursion follows the pattern;
a repetition is bounded by the text that is left, because after an iteration that consumed nothing
no further one is tried.
-/

namespace DocSchema.Pattern

/-- A place in the text: what was read, backwards, what is left, how far in, and the text of the
groups that were closed so far, the latest first. -/
structure Cursor where
  before : List Char
  after : List Char
  position : Nat
  groups : List (Nat × List Char)

/-- What is left to match. -/
abbrev Goal := Cursor → Option Cursor

namespace Cursor

def start (text : List Char) : Cursor := ⟨[], text, 0, []⟩

/-- One character further, if it is one that `p` accepts. -/
def step? (s : Cursor) (p : Char → Bool) : Option Cursor :=
  match s.after with
  | c :: rest => if p c then some ⟨c :: s.before, rest, s.position + 1, s.groups⟩ else none
  | [] => none

/-- Some characters back. -/
def back? : Nat → Cursor → Option Cursor
  | 0, s => some s
  | n + 1, s =>
    match s.before with
    | c :: rest => back? n ⟨rest, c :: s.after, s.position - 1, s.groups⟩
    | [] => none

/-- The text of a group. -/
def group? (s : Cursor) (n : Nat) : Option (List Char) :=
  (s.groups.find? (·.1 = n)).map (·.2)

/-- Closes a group that was opened at an earlier cursor. -/
def close (n : Nat) (opened s : Cursor) : Cursor :=
  { s with groups := (n, (opened.after.take (s.position - opened.position))) :: s.groups }

/-- Skips a text that equals the given one, in the mode. -/
def skip? (mode : Mode) : List Char → Cursor → Option Cursor
  | [], s => some s
  | c :: cs, s =>
    match s.step? fun d => if mode.ignoreCase then mode.lower d = mode.lower c else d = c with
    | some s => skip? mode cs s
    | none => none

end Cursor

/-! ### Anchors -/

/-- Exactly one of the characters around the cursor is a word character. -/
def atBoundary (mode : Mode) (s : Cursor) : Bool :=
  let word (cs : List Char) := match cs with
    | c :: _ => Category.word.holds mode.ascii c
    | [] => false
  word s.before != word s.after

/-- An anchor holds at the cursor. In an empty text there is neither a boundary nor its absence. -/
def Anchor.holds (mode : Mode) (s : Cursor) : Anchor → Bool
  | .lineStart =>
    match s.before with
    | [] => true
    | c :: _ => mode.multiline && c = '\n'
  | .lineEnd =>
    match s.after with
    | [] => true
    | c :: rest => c = '\n' && (mode.multiline || rest.isEmpty)
  | .textStart => s.before.isEmpty
  | .textEnd => s.after.isEmpty
  | .boundary => !(s.before.isEmpty && s.after.isEmpty) && atBoundary mode s
  | .noBoundary => !(s.before.isEmpty && s.after.isEmpty) && !atBoundary mode s

/-! ### Repetition -/

/-- The first of two attempts that succeeds. -/
def orElse (first : Option Cursor) (second : Unit → Option Cursor) : Option Cursor :=
  match first with
  | some s => some s
  | none => second ()

/-- The body exactly `n` times, then the goal. -/
def exactly (body : Goal → Goal) : Nat → Goal → Goal
  | 0, k, s => k s
  | n + 1, k, s => body (fun t => exactly body n k t) s

/-- No further iteration: the count is used up, or the last iteration consumed nothing. -/
def spent (more : Option Nat) (last : Option Nat) (s : Cursor) : Bool :=
  more = some 0 || last = some s.position

/-- Further iterations first, then the goal. -/
def greedily (body : Goal → Goal) : Nat → Option Nat → Option Nat → Goal → Goal
  | 0, _, _, k, s => k s
  | fuel + 1, more, last, k, s =>
    if spent more last s then k s
    else orElse
      (body (fun t => greedily body fuel (more.map (· - 1)) (some s.position) k t) s)
      fun _ => k s

/-- The goal first, then further iterations. -/
def lazily (body : Goal → Goal) : Nat → Option Nat → Option Nat → Goal → Goal
  | 0, _, _, k, s => k s
  | fuel + 1, more, last, k, s =>
    orElse (k s) fun _ =>
      if spent more last s then none
      else body (fun t => lazily body fuel (more.map (· - 1)) (some s.position) k t) s

/-- As many further iterations as there are, each settled on its own. -/
def possessively (body : Goal → Goal) : Nat → Option Nat → Option Nat → Cursor → Cursor
  | 0, _, _, s => s
  | fuel + 1, more, last, s =>
    if spent more last s then s
    else match body some s with
      | some t => possessively body fuel (more.map (· - 1)) (some s.position) t
      | none => s

/-- The body `n` times, each iteration settled on its own. -/
def settled (body : Goal → Goal) : Nat → Goal
  | 0, s => some s
  | n + 1, s =>
    match body some s with
    | some t => settled body n t
    | none => none

/-- The body at least `least` and at most `most` times, then the goal. -/
def repeated (greed : Greed) (least : Nat) (most : Option Nat) (body : Goal → Goal) : Goal → Goal :=
  fun k s =>
    let more := most.map (· - least)
    match greed with
    | .greedy => exactly body least (fun t => greedily body (t.after.length + 2) more none k t) s
    | .lazy => exactly body least (fun t => lazily body (t.after.length + 2) more none k t) s
    | .possessive =>
      match settled body least s with
      | some t => k (possessively body (t.after.length + 2) more none t)
      | none => none

/-! ### Running -/

/-- Matches a pattern, then the goal. -/
def run : Pattern → Goal → Goal
  | .empty, k, s => k s
  | .one mode what, k, s =>
    match s.step? fun c => what.holds mode c with
    | some t => k t
    | none => none
  | .anchor mode a, k, s => if a.holds mode s then k s else none
  | .seq p q, k, s => run p (run q k) s
  | .alt p q, k, s => orElse (run p k s) fun _ => run q k s
  | .group n p, k, s => run p (fun t => k (Cursor.close n s t)) s
  | .times greed least most p, k, s => repeated greed least most (run p) k s
  | .atomic p, k, s =>
    match run p some s with
    | some t => k t
    | none => none
  | .ahead negative p, k, s =>
    match run p some s, negative with
    | some t, false => k { s with groups := t.groups }
    | none, true => k s
    | _, _ => none
  | .behind negative width p, k, s =>
    match (s.back? width).bind (run p some), negative with
    | some t, false => k { s with groups := t.groups }
    | none, true => k s
    | _, _ => none
  | .backref mode n, k, s =>
    match s.group? n with
    | some text =>
      match s.skip? mode text with
      | some t => k t
      | none => none
    | none => none
  | .ifGroup n yes no, k, s =>
    if (s.group? n).isSome then run yes k s else run no k s

/-- A match starts at the cursor or further on. -/
def foundFrom (p : Pattern) (before : List Char) (position : Nat) : List Char → Bool
  | [] => (run p some ⟨before, [], position, []⟩).isSome
  | c :: rest =>
    (run p some ⟨before, c :: rest, position, []⟩).isSome ||
      foundFrom p (c :: before) (position + 1) rest

/-- The pattern matches somewhere in the text. -/
def found (p : Pattern) (text : String) : Bool := p.foundFrom [] 0 text.toList

end DocSchema.Pattern
