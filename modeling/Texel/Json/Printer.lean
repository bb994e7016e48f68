import Texel.Json.Basic
import Texel.Number.Shortest
import Texel.Text.Quoted

/-!
# Writing JSON

One item a line with two blanks for each level, or all on one line.
-/

namespace Texel.Json

/-- A character inside a string. -/
def escapeText (c : Char) : String :=
  if c == '"' then "\\\""
  else if c == '\\' then "\\\\"
  else if c == '\x08' then "\\b"
  else if c == '\x0c' then "\\f"
  else if c == '\n' then "\\n"
  else if c == '\r' then "\\r"
  else if c == '\t' then "\\t"
  else if c.toNat < 0x10 then "\\u000" ++ Text.hex c.toNat
  else if c.toNat < 0x20 then "\\u00" ++ Text.hex c.toNat
  else c.toString

def stringText (s : String) : String :=
  "\"" ++ String.join (s.toList.map escapeText) ++ "\""

/-- A string without a text is written as a lone surrogate. -/
def keyText : Option String → String
  | some s => stringText s
  | none => "\"\\ud800\""

def indent (depth : Nat) : String := String.ofList (List.replicate (2 * depth) ' ')

mutual

/-- The text of a value that starts at a level of `depth`. -/
def pretty (depth : Nat) : Json → String
  | .null => "null"
  | .bool true => "true"
  | .bool false => "false"
  | .number literal => String.ofList literal
  | .string text => keyText text
  | .array [] => "[]"
  | .array (v :: rest) =>
    "[\n" ++ indent (depth + 1) ++ pretty (depth + 1) v ++ prettyItems (depth + 1) rest ++ "\n"
      ++ indent depth ++ "]"
  | .object [] => "\x7b\x7d"
  | .object ((key, v) :: rest) =>
    "\x7b\n" ++ indent (depth + 1) ++ keyText key ++ ": " ++ pretty (depth + 1) v
      ++ prettyMembers (depth + 1) rest ++ "\n" ++ indent depth ++ "\x7d"

def prettyItems (depth : Nat) : List Json → String
  | [] => ""
  | v :: rest => ",\n" ++ indent depth ++ pretty depth v ++ prettyItems depth rest

def prettyMembers (depth : Nat) : List (Option String × Json) → String
  | [] => ""
  | (key, v) :: rest =>
    ",\n" ++ indent depth ++ keyText key ++ ": " ++ pretty depth v ++ prettyMembers depth rest

end

/-- The text of a value. -/
def render (v : Json) : String := pretty 0 v

mutual

/-- The text of a value on one line, without blanks. -/
def compact : Json → String
  | .null => "null"
  | .bool true => "true"
  | .bool false => "false"
  | .number literal => String.ofList literal
  | .string text => keyText text
  | .array items => "[" ++ ",".intercalate (compactItems items) ++ "]"
  | .object members => "\x7b" ++ ",".intercalate (compactMembers members) ++ "\x7d"

def compactItems : List Json → List String
  | [] => []
  | v :: rest => compact v :: compactItems rest

def compactMembers : List (Option String × Json) → List String
  | [] => []
  | (key, v) :: rest => (keyText key ++ ":" ++ compact v) :: compactMembers rest

end

def ofText (s : String) : Json := .string (some s)

def ofNat (n : Nat) : Json := .number (Nat.toDigits 10 n)

/-! ### Numbers

The shortest digits, written positionally while the exponent of the first digit is in a range. -/

structure DecimalStyle where
  /-- The lowest exponent of a first digit that is written positionally. -/
  lowest : Int
  /-- The highest one. -/
  highest : Int

/-- Positional from a millionth to below ten million millions. -/
def decimalStyle : DecimalStyle := ⟨-6, 12⟩

def zeros (n : Nat) : List Char := List.replicate n '0'

/-- Digits with the point after the first `places` of them. -/
def positional (digits : List Char) (exponent : Int) : List Char :=
  if 0 ≤ exponent then
    let places := exponent.toNat + 1
    let whole := digits.take places ++ zeros (places - digits.length)
    let rest := digits.drop places
    whole ++ '.' :: (if rest.isEmpty then ['0'] else rest)
  else
    '0' :: '.' :: (zeros ((-exponent).toNat - 1) ++ digits)

def scientific (digits : List Char) (exponent : Int) : List Char :=
  let mantissa :=
    match digits with
    | [] => []
    | [d] => [d]
    | d :: rest => d :: '.' :: rest
  let sign := if exponent < 0 then '-' else '+'
  mantissa ++ 'e' :: sign :: Nat.toDigits 10 exponent.natAbs

/-- The literal of a decimal. -/
def decimalLiteral (style : DecimalStyle) (d : Decimal) : List Char :=
  let digits := Nat.toDigits 10 d.digits
  let exponent := d.exponent + (digits.length - 1 : Nat)
  if style.lowest ≤ exponent ∧ exponent ≤ style.highest then positional digits exponent
  else scientific digits exponent

/-- The literal of a finite number. -/
def singleLiteral (x : Single) : List Char :=
  let magnitude := x.magnitude
  let unsigned :=
    if magnitude.mantissa = 0 then ['0', '.', '0']
    else decimalLiteral decimalStyle (Decimal.shortest magnitude)
  if x.isNegative then '-' :: unsigned else unsigned

/-- A number; what is not finite is written as null. -/
def ofSingle (x : Single) : Json :=
  if x.isFinite then .number (singleLiteral x) else .null

end Texel.Json
