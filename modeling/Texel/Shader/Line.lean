/-!
# Lines of a program

A program is read line by line. A backslash at the end of a line joins the next one to it, even in
the middle of a word or of a comment. A comment counts as a blank, so one that covers several lines
joins them too. Each of the three steps is one pass over the characters.
-/

namespace Texel.Shader

/-- Gives every line end the same form. -/
structure LineEnds where
  /-- The character before, if a line end of two characters may have begun with it. -/
  half : Option Char := none
  /-- The characters so far, last first. -/
  found : List Char := []
deriving DecidableEq, Repr

/-- A line ends with one of two characters, or with both in either order. -/
def LineEnds.step (e : LineEnds) (c : Char) : LineEnds :=
  if c == '\n' || c == '\r' then
    if e.half.any (· != c) then { e with half := none } else ⟨some c, '\n' :: e.found⟩
  else ⟨none, c :: e.found⟩

/-- Joins lines. -/
structure Joiner where
  /-- Is the character before a backslash? -/
  escaped : Bool := false
  /-- The characters so far, last first. -/
  found : List Char := []
deriving DecidableEq, Repr

def Joiner.step (j : Joiner) (c : Char) : Joiner :=
  if j.escaped && c == '\n' then ⟨false, j.found.tail⟩ else ⟨c == '\\', c :: j.found⟩

/-- Where the reading stands with regard to comments. -/
inductive CommentMode
  | code
  /-- After a slash that may open a comment. -/
  | slash
  /-- In a comment that ends with its line. -/
  | line
  | block
  /-- In a block comment, after a star. -/
  | star
deriving DecidableEq, Repr

/-- Puts a blank in the place of every comment. -/
structure Stripper where
  mode : CommentMode := .code
  /-- The characters so far, last first. -/
  found : List Char := []
deriving DecidableEq, Repr

namespace Stripper

def begin (s : Stripper) (c : Char) : Stripper :=
  if c == '/' then { s with mode := .slash } else ⟨.code, c :: s.found⟩

def step (s : Stripper) (c : Char) : Stripper :=
  match s.mode with
  | .code => s.begin c
  | .slash =>
    if c == '/' then { s with mode := .line }
    else if c == '*' then { s with mode := .block }
    else { s with found := '/' :: s.found }.begin c
  | .line => if c == '\n' then ⟨.code, '\n' :: ' ' :: s.found⟩ else s
  | .block => if c == '*' then { s with mode := .star } else s
  | .star =>
    if c == '/' then ⟨.code, ' ' :: s.found⟩
    else if c == '*' then s
    else { s with mode := .block }

/-- The result, unless a block comment is still open. -/
def finish? (s : Stripper) : Option (List Char) :=
  match s.mode with
  | .code | .line => some s.found.reverse
  | .slash => some ('/' :: s.found).reverse
  | .block | .star => none

end Stripper

/-- The lines of a text, joined and without comments. There are none if a comment never ends. -/
def lines? (text : String) : Option (List (List Char)) :=
  let ends := text.toList.foldl LineEnds.step {}
  let joined := ends.found.reverse.foldl Joiner.step {}
  (joined.found.reverse.foldl Stripper.step {}).finish?.map (·.splitOnP (· == '\n'))

end Texel.Shader
