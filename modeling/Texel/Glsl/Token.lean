import Texel.Text.Identifier
import Texel.Text.Slice

/-!
# Tokens of shader text

Shader text is read as words and single symbols. Blanks, comments and directive lines separate
tokens and leave no trace. Reading is one pass over the characters: `Lexer.step` takes a character,
and `Lexer.finish` closes what is still open at the end.

A directive line starts with `#` after nothing but blanks on its line. A comment that is never
closed reaches to the end of the text.
-/

namespace Texel.Glsl

inductive Lexeme
  | word (chars : List Char)
  | symbol (c : Char)
deriving DecidableEq, Repr

/-- A lexeme and the bytes it covers. -/
structure Token where
  lexeme : Lexeme
  span : Span
deriving DecidableEq, Repr

/-- Blanks of shader text. -/
def isBlank (c : Char) : Bool :=
  c == ' ' || c == '\t' || c == '\n' || c == '\x0c' || c == '\r'

/-- Where the reading stands. -/
inductive Mode
  /-- Between two tokens. -/
  | code
  /-- In a word that began at `start`; its characters so far, last first. -/
  | word (start : Nat) (chars : List Char)
  /-- After a slash that may open a comment. -/
  | slash (start : Nat)
  /-- In a line comment or a directive line. -/
  | line
  /-- In a block comment. -/
  | block
  /-- In a block comment, after a star. -/
  | star
deriving DecidableEq, Repr

structure Lexer where
  mode : Mode := .code
  /-- Bytes read so far. -/
  offset : Nat := 0
  /-- Has the current line had only blanks so far? -/
  fresh : Bool := true
  /-- The tokens read so far, last first. -/
  found : List Token := []
deriving DecidableEq, Repr

namespace Lexer

/-- Notes a token that ends where the reading stands. -/
def emit (l : Lexer) (lexeme : Lexeme) (start stop : Nat) : Lexer :=
  { l with mode := .code, found := ⟨lexeme, ⟨start, stop⟩⟩ :: l.found }

/-- The word that is being read ends here. -/
def close (l : Lexer) : Lexer :=
  match l.mode with
  | .word start chars => l.emit (.word chars.reverse) start l.offset
  | .slash start => l.emit (.symbol '/') start l.offset
  | _ => l

/-- Takes a character that stands between tokens. -/
def begin (l : Lexer) (c : Char) : Lexer :=
  if isBlank c then { l with mode := .code }
  else if c == '/' then { l with mode := .slash l.offset }
  else if c == '#' && l.fresh then { l with mode := .line }
  else if Identifier.isStart c then { l with mode := .word l.offset [c] }
  else l.emit (.symbol c) l.offset (l.offset + c.utf8Size)

/-- What a character does to the mode and the tokens. -/
def read (l : Lexer) (c : Char) : Lexer :=
  match l.mode with
  | .code => l.begin c
  | .word start chars =>
    if Identifier.isPart c then { l with mode := .word start (c :: chars) } else l.close.begin c
  | .slash _ =>
    if c == '/' then { l with mode := .line }
    else if c == '*' then { l with mode := .block }
    else l.close.begin c
  | .line => if c == '\n' then { l with mode := .code } else l
  | .block => if c == '*' then { l with mode := .star } else l
  | .star =>
    if c == '/' then { l with mode := .code }
    else if c == '*' then l
    else { l with mode := .block }

/-- Moves the position over a character. -/
def advance (l : Lexer) (c : Char) : Lexer :=
  { l with
    offset := l.offset + c.utf8Size
    fresh := c == '\n' || (l.fresh && isBlank c) }

def step (l : Lexer) (c : Char) : Lexer := (l.read c).advance c

def run (l : Lexer) (cs : List Char) : Lexer := cs.foldl step l

/-- All tokens, once the text has ended. -/
def finish (l : Lexer) : List Token := l.close.found.reverse

end Lexer

/-- The tokens of a text, in order. -/
def tokens (text : String) : List Token := (Lexer.run {} text.toList).finish

namespace Token

def isSymbol (t : Token) (c : Char) : Bool := t.lexeme == .symbol c

def word? (t : Token) : Option String :=
  match t.lexeme with
  | .word chars => some (String.ofList chars)
  | .symbol _ => none

end Token
end Texel.Glsl
