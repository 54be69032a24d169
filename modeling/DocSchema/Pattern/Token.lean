/-!
Tokens of a pattern source: single characters, and escapes made of a backslash and one character.
-/

namespace DocSchema.Pattern

/-- A piece of a pattern source; a backslash that ends the source is left dangling. -/
inductive Token where
  | char (c : Char)
  | escape (c : Char)
  | dangling
  deriving DecidableEq

namespace Token

/-- The tokens of a source. -/
def ofChars : List Char → List Token
  | [] => []
  | ['\\'] => [.dangling]
  | '\\' :: c :: rest => .escape c :: ofChars rest
  | c :: rest => .char c :: ofChars rest

/-- The characters of a token. -/
def chars : Token → List Char
  | .char c => [c]
  | .escape c => ['\\', c]
  | .dangling => ['\\']

end Token

/-! ### The end of the text -/

/-- Reads every `$` outside character classes as the very end of the text. A class lasts from an
unescaped `[` to the next unescaped `]`. -/
def anchorTokens : Bool → List Token → List Token
  | _, [] => []
  | true, .char ']' :: rest => .char ']' :: anchorTokens false rest
  | false, .char '[' :: rest => .char '[' :: anchorTokens true rest
  | false, .char '$' :: rest => .escape 'Z' :: anchorTokens false rest
  | inClass, t :: rest => t :: anchorTokens inClass rest

/-- A source in which `$` means the very end of the text only. -/
def anchorAtEnd (source : List Char) : List Char :=
  (anchorTokens false (Token.ofChars source)).flatMap Token.chars

end DocSchema.Pattern
