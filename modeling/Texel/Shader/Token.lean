import Texel.Text.Alphanumeric

/-!
# Tokens of a program

A line of a program is read as names, numbers and symbols, of which the longest that fits is taken.
Whole numbers are decimal, octal after a zero and hexadecimal after `0x`.
-/

namespace Texel.Shader

inductive Token
  | name (text : String)
  /-- A whole number, which has a sign unless `u` stands behind it. -/
  | integer (value : Nat) (signed : Bool)
  /-- A number with a point or an exponent: its digits as a whole number, and the power of ten that
  it is multiplied by. -/
  | real (digits : Nat) (power : Int)
  | symbol (text : String)
deriving DecidableEq, Repr

namespace Token

def isBlank (c : Char) : Bool := c == ' ' || c == '\t' || c == '\x0b' || c == '\x0c'

def isNameStart (c : Char) : Bool :=
  c.isAlpha || c == '_' || (0x80 ≤ c.toNat && Text.isAlphanumeric c)

def isNamePart (c : Char) : Bool := isNameStart c || c.isDigit

/-- All symbols, longer ones before those they begin with. -/
def symbols : List String :=
  ["<<=", ">>=", "++", "--", "<=", ">=", "==", "!=", "&&", "||", "^^", "+=", "-=", "*=", "/=", "%=",
    "&=", "^=", "|=", "<<", ">>", "(", ")", "\x7b", "\x7d", "[", "]", ",", ";", ":", "?", ".", "+",
    "-", "*", "/", "%", "<", ">", "=", "!", "~", "&", "|", "^"]

/-! ### Numbers -/

def digit? (base : Nat) (c : Char) : Option Nat :=
  let value :=
    if c.isDigit then c.toNat - '0'.toNat
    else if 'a' ≤ c ∧ c ≤ 'f' then c.toNat - 'a'.toNat + 10
    else if 'A' ≤ c ∧ c ≤ 'F' then c.toNat - 'A'.toNat + 10
    else base
  if value < base then some value else none

/-- The number that some digits write. -/
def natural? (base : Nat) (digits : List Char) : Option Nat :=
  if digits.isEmpty then none
  else digits.foldlM (fun n c => (digit? base c).map (n * base + ·)) 0

/-- A whole number, once its digits have been read. -/
def integerEnd (value : Nat) : List Char → Token × List Char
  | [] => (.integer value true, [])
  | c :: rest =>
    if c == 'u' || c == 'U' then (.integer value false, rest) else (.integer value true, c :: rest)

/-- The exponent at the head of some characters, and what follows it. -/
def exponent? : List Char → Option (Int × List Char)
  | [] => none
  | mark :: rest => do
    guard (mark == 'e' || mark == 'E')
    let (sign, digits) := rest.span fun c => c == '+' || c == '-'
    guard (sign.length ≤ 1)
    let (digits, rest) := digits.span Char.isDigit
    let power ← natural? 10 digits
    return (if sign = ['-'] then -Int.ofNat power else power, rest)

/-- What follows the letters that tell the precision of a number. -/
def realEnd : List Char → List Char
  | 'f' :: rest => rest
  | 'F' :: rest => rest
  | 'l' :: 'f' :: rest => rest
  | 'L' :: 'F' :: rest => rest
  | rest => rest

/-- A number that begins with a digit of its own base or with a point. -/
def decimal? (cs : List Char) : Option (Token × List Char) :=
  let (whole, rest) := cs.span Char.isDigit
  let (fraction, behind) := match rest with
    | '.' :: rest =>
      let (digits, rest) := rest.span Char.isDigit
      (some digits, rest)
    | rest => (none, rest)
  let exponent := exponent? behind
  if fraction.isNone && exponent.isNone then
    let base := if whole.head? = some '0' then 8 else 10
    (natural? base whole).map fun value => integerEnd value rest
  else do
    let (power, rest) := exponent.getD (0, behind)
    let fraction := fraction.getD []
    let digits ← natural? 10 (whole ++ fraction)
    return (.real digits (power - fraction.length), realEnd rest)

/-- The number at the head of some characters, and what follows it. -/
def number? (cs : List Char) : Option (Token × List Char) :=
  match cs with
  | '0' :: x :: rest =>
    if x == 'x' || x == 'X' then
      let (digits, rest) := rest.span fun c => (digit? 16 c).isSome
      (natural? 16 digits).map fun value => integerEnd value rest
    else decimal? cs
  | _ => decimal? cs

/-! ### Lines -/

/-- The token at the head of some characters, and what follows it. -/
def first? (cs : List Char) : Option (Token × List Char) :=
  match cs with
  | [] => none
  | c :: rest =>
    if isNameStart c then
      let (word, rest) := cs.span isNamePart
      some (.name (String.ofList word), rest)
    else if c.isDigit || (c == '.' && rest.head?.any Char.isDigit) then number? cs
    else
      (symbols.find? fun s => s.toList.isPrefixOf cs).map fun s => (.symbol s, cs.drop s.length)

/-- The tokens behind some that have been read, which stand last first, in at most `n` steps. -/
def readFrom? : Nat → List Token → List Char → Option (List Token)
  | 0, _, _ => none
  | n + 1, found, cs =>
    match cs.dropWhile isBlank with
    | [] => some found.reverse
    | cs => do
      let (token, rest) ← first? cs
      readFrom? n (token :: found) rest

/-- The tokens of a line, if nothing else is in it. -/
def read? (line : List Char) : Option (List Token) := readFrom? (line.length + 1) [] line

def name? : Token → Option String
  | .name text => some text
  | _ => none

def isSymbol (t : Token) (text : String) : Bool := t == .symbol text

end Token
end Texel.Shader
