import Texel.Text.Identifier

/-!
# Renaming

A text falls into pieces: words, which start with a letter, an underscore or a dollar sign; numbers
with their suffixes; and single other characters. Renaming replaces the words equal to a given one
and keeps every other piece. Comments are text like any other here.
-/

namespace Texel.Glsl

/-- A character that can begin a word. -/
def startsWord (c : Char) : Bool := Identifier.isStart c || c == '$'

/-- A character that begins a piece of more than one character. -/
def startsRun (c : Char) : Bool := startsWord c || c.isDigit

/-- The pieces of `run ++ cs`, where `run` is the piece being read. -/
def piecesFrom : List Char → List Char → List (List Char)
  | [], [] => []
  | run, [] => [run]
  | [], c :: cs => if startsRun c then piecesFrom [c] cs else [c] :: piecesFrom [] cs
  | run, c :: cs =>
    if Identifier.isPart c then piecesFrom (run ++ [c]) cs
    else run :: if startsRun c then piecesFrom [c] cs else [c] :: piecesFrom [] cs

/-- The pieces of a text, which concatenate to it. -/
def pieces (cs : List Char) : List (List Char) := piecesFrom [] cs

/-- Is the piece a word? -/
def isWord : List Char → Bool
  | [] => false
  | c :: _ => startsWord c

def renamePiece (old new : List Char) (piece : List Char) : List Char :=
  if isWord piece && piece == old then new else piece

/-- Every whole word `old` of the text replaced by `new`. -/
def rename (text old new : String) : String :=
  String.ofList ((pieces text.toList).flatMap (renamePiece old.toList new.toList))

end Texel.Glsl
