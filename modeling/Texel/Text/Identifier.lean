/-!
# Identifiers

The character classes of shader identifiers, which are ASCII only, and the camel-case form that
turns the display name of a parameter into an identifier part.
-/

namespace Texel.Identifier

/-- A character that can begin an identifier. -/
def isStart (c : Char) : Bool := c.isAlpha || c == '_'

/-- A character that can continue an identifier. -/
def isPart (c : Char) : Bool := c.isAlphanum || c == '_'

/-- The camel-case form of what follows the first kept character: separators vanish, and the
character after a run of separators is raised. -/
def camelTail : Bool → List Char → List Char
  | _, [] => []
  | raised, c :: cs =>
    if c.isAlphanum then
      (if raised then c.toUpper else c) :: camelTail false cs
    else
      camelTail true cs

def camelChars (cs : List Char) : List Char :=
  match cs.dropWhile (!·.isAlphanum) with
  | [] => ['p']
  | c :: rest => c.toLower :: camelTail false rest

/-- Letters and digits of `s` with every run of other characters read as a word break:
`"Color A"` becomes `"colorA"`. A name without letters and digits becomes `"p"`. -/
def camelCase (s : String) : String := String.ofList (camelChars s.toList)

end Texel.Identifier
