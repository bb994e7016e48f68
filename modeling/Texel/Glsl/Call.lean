import Texel.Glsl.Token

/-!
# Calls in a function body

A word directly followed by an opening parenthesis is a call, unless a dot stands before it, unless
it is a keyword or a built-in type, or is the function itself. A number swallows the words and dots
that touch it, so `1.0f` hides no word.
-/

namespace Texel.Glsl

/-- Words that are followed by a parenthesis without being called. -/
def notCalls : List String :=
  ["if", "for", "while", "switch", "return", "int", "uint", "bool", "float", "vec2", "vec3",
    "vec4", "ivec2", "ivec3", "ivec4", "uvec2", "uvec3", "uvec4", "bvec2", "bvec3", "bvec4",
    "mat2", "mat3", "mat4"]

structure CallScan where
  /-- The end of the number that is being read. -/
  number : Option Nat := none
  /-- Was the last token a dot? -/
  dotted : Bool := false
  /-- The word that a parenthesis would make a call. -/
  pending : Option String := none
  /-- The functions called so far, by first use. -/
  calls : List String := []
deriving Repr

namespace CallScan

/-- Does the token prolong the number that is being read? -/
def prolongs (s : CallScan) (t : Token) : Bool :=
  s.number == some t.span.start &&
    match t.lexeme with
    | .word _ => true
    | .symbol c => c.isDigit || c == '.'

def note (self : String) (s : CallScan) : CallScan :=
  match s.pending with
  | some name =>
    if name == self || notCalls.contains name || s.calls.contains name then s
    else { s with calls := s.calls ++ [name] }
  | none => s

def step (self : String) (s : CallScan) (t : Token) : CallScan :=
  if s.prolongs t then
    { s with number := some t.span.stop, dotted := false, pending := none }
  else
    match t.lexeme with
    | .word chars =>
      { s with
        number := none
        dotted := false
        pending := if s.dotted then none else some (String.ofList chars) }
    | .symbol c =>
      let s := if c == '(' then s.note self else s
      { s with
        number := if c.isDigit then some t.span.stop else none
        dotted := c == '.'
        pending := none }

end CallScan

/-- The functions that a body calls, in order of first use; a function's calls to itself do not
count. -/
def callsIn (self : String) (body : List Token) : List String :=
  (body.foldl (CallScan.step self) {}).calls

end Texel.Glsl
