/-!
# Tokens of JSON text

One pass over the characters. A run of number characters is one token, whose grammar is checked
later; so is a run of lower-case letters.
-/

namespace Texel.Json

/-- A part of a string: a character, or a 16-bit unit written by number. -/
inductive Unit16
  | char (c : Char)
  | unit (n : Nat)
deriving DecidableEq, Repr

inductive Token
  | symbol (c : Char)
  | string (text : Option String)
  | number (literal : List Char)
  | word (letters : List Char)
deriving DecidableEq, Repr

/-- Where the reading stands; what has been read of a token is kept last first. -/
inductive Mode
  | idle
  | string (units : List Unit16)
  /-- After a backslash. -/
  | escape (units : List Unit16)
  /-- After `\u` and `count` digits, which make `value`. -/
  | unit (units : List Unit16) (count value : Nat)
  | number (chars : List Char)
  | word (chars : List Char)
deriving DecidableEq, Repr

structure Lexer where
  mode : Mode := .idle
  /-- The tokens so far, last first. -/
  found : List Token := []
deriving DecidableEq, Repr

def isHigh (n : Nat) : Bool := 0xd800 ≤ n && n ≤ 0xdbff

def isLow (n : Nat) : Bool := 0xdc00 ≤ n && n ≤ 0xdfff

/-- The characters of a string; units must be characters or pairs of surrogates. -/
def decodeUnits : List Unit16 → Option (List Char)
  | [] => some []
  | .char c :: rest => (decodeUnits rest).map (c :: ·)
  | .unit n :: .unit m :: rest =>
    if isHigh n then
      if isLow m then
        (decodeUnits rest).map
          (Char.ofNat (0x10000 + (n - 0xd800) * 0x400 + (m - 0xdc00)) :: ·)
      else none
    else if isLow n then none
    else (decodeUnits (.unit m :: rest)).map (Char.ofNat n :: ·)
  | .unit n :: rest =>
    if isHigh n || isLow n then none else (decodeUnits rest).map (Char.ofNat n :: ·)

def isBlank (c : Char) : Bool := c == ' ' || c == '\t' || c == '\n' || c == '\r'

def isSymbol (c : Char) : Bool :=
  c == '\x7b' || c == '\x7d' || c == '[' || c == ']' || c == ',' || c == ':'

def isNumberChar (c : Char) : Bool :=
  c.isDigit || c == '-' || c == '+' || c == '.' || c == 'e' || c == 'E'

def hexValue? (c : Char) : Option Nat :=
  if c.isDigit then some (c.toNat - '0'.toNat)
  else if 'a' ≤ c ∧ c ≤ 'f' then some (c.toNat - 'a'.toNat + 10)
  else if 'A' ≤ c ∧ c ≤ 'F' then some (c.toNat - 'A'.toNat + 10)
  else none

/-- The character after a backslash. -/
def escaped? (c : Char) : Option Char :=
  if c == '"' || c == '\\' || c == '/' then some c
  else if c == 'b' then some '\x08'
  else if c == 'f' then some '\x0c'
  else if c == 'n' then some '\n'
  else if c == 'r' then some '\r'
  else if c == 't' then some '\t'
  else none

namespace Lexer

/-- Takes a character between tokens. -/
def begin (l : Lexer) (c : Char) : Option Lexer :=
  if isBlank c then some { l with mode := .idle }
  else if isSymbol c then some { l with mode := .idle, found := .symbol c :: l.found }
  else if c == '"' then some { l with mode := .string [] }
  else if c.isDigit || c == '-' then some { l with mode := .number [c] }
  else if c.isLower then some { l with mode := .word [c] }
  else none

/-- Ends a number or a word. -/
def close (l : Lexer) : Lexer :=
  match l.mode with
  | .number chars => ⟨.idle, .number chars.reverse :: l.found⟩
  | .word chars => ⟨.idle, .word chars.reverse :: l.found⟩
  | _ => l

def step (l : Lexer) (c : Char) : Option Lexer :=
  match l.mode with
  | .idle => l.begin c
  | .string units =>
    if c == '"' then
      some ⟨.idle, .string ((decodeUnits units.reverse).map String.ofList) :: l.found⟩
    else if c == '\\' then some { l with mode := .escape units }
    else if c.toNat < 0x20 then none
    else some { l with mode := .string (.char c :: units) }
  | .escape units =>
    if c == 'u' then some { l with mode := .unit units 0 0 }
    else (escaped? c).map fun c => { l with mode := .string (.char c :: units) }
  | .unit units count value =>
    (hexValue? c).map fun digit =>
      let value := value * 16 + digit
      if count = 3 then { l with mode := .string (.unit value :: units) }
      else { l with mode := .unit units (count + 1) value }
  | .number chars =>
    if isNumberChar c then some { l with mode := .number (c :: chars) } else l.close.begin c
  | .word chars =>
    if c.isLower then some { l with mode := .word (c :: chars) } else l.close.begin c

/-- All tokens, if the text may end here. -/
def finish (l : Lexer) : Option (List Token) :=
  match l.close.mode with
  | .idle => some l.close.found.reverse
  | _ => none

end Lexer

/-- The tokens of a text. -/
def tokens? (text : String) : Option (List Token) := do
  (← text.toList.foldlM Lexer.step {}).finish

end Texel.Json
