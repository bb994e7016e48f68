/-!
# Quantities

Numbers that are known before a program runs: whole numbers and fractions, with the rules by which
the shading language computes with them.
-/

namespace Texel.Shader

/-- A number. The denominator of a fraction is not zero. -/
inductive Quantity
  | whole (value : Int)
  | fraction (numerator : Int) (denominator : Nat)
deriving DecidableEq, Repr

namespace Quantity

def truth (b : Bool) : Quantity := .whole (if b then 1 else 0)

/-- The largest power of ten that is written out; beyond it, a number counts as that large or as
that small. -/
def powerLimit : Nat := 400

/-- A decimal number: its digits as a whole number, times a power of ten. -/
def decimal (digits : Nat) (power : Int) : Quantity :=
  let scale := Nat.pow 10 (min power.natAbs powerLimit)
  if 0 ≤ power then .fraction (digits * scale) 1 else .fraction digits scale

def numerator : Quantity → Int
  | .whole value => value
  | .fraction n _ => n

def denominator : Quantity → Nat
  | .whole _ => 1
  | .fraction _ d => d

def isWhole : Quantity → Bool
  | .whole _ => true
  | .fraction .. => false

/-- The number with which a comparison with another one is one with zero. -/
def difference (a b : Quantity) : Int :=
  a.numerator * b.denominator - b.numerator * a.denominator

def le (a b : Quantity) : Bool := a.difference b ≤ 0

/-- The whole part, toward zero. -/
def truncate (q : Quantity) : Int := Int.tdiv q.numerator q.denominator

def neg : Quantity → Quantity
  | .whole value => .whole (-value)
  | .fraction n d => .fraction (-n) d

/-- Operations on whole numbers. Bits are those of 64-bit numbers. -/
def wholeOperation? (symbol : String) (a b : Int) : Option Quantity :=
  match symbol with
  | "+" => some (.whole (a + b))
  | "-" => some (.whole (a - b))
  | "*" => some (.whole (a * b))
  | "/" => if b = 0 then none else some (.whole (Int.tdiv a b))
  | "%" => if b = 0 then none else some (.whole (Int.tmod a b))
  | "<<" => some (.whole (Int64.ofInt a <<< Int64.ofInt b).toInt)
  | ">>" => some (.whole (Int64.ofInt a >>> Int64.ofInt b).toInt)
  | "&" => some (.whole (Int64.ofInt a &&& Int64.ofInt b).toInt)
  | "|" => some (.whole (Int64.ofInt a ||| Int64.ofInt b).toInt)
  | "^" => some (.whole (Int64.ofInt a ^^^ Int64.ofInt b).toInt)
  | "&&" => some (truth (a != 0 && b != 0))
  | "||" => some (truth (a != 0 || b != 0))
  | "^^" => some (truth ((a != 0) != (b != 0)))
  | _ => none

/-- Operations on fractions. -/
def fractionOperation? (symbol : String) (a b : Quantity) : Option Quantity :=
  match symbol with
  | "+" =>
    some (.fraction (a.numerator * b.denominator + b.numerator * a.denominator)
      (a.denominator * b.denominator))
  | "-" => some (.fraction (a.difference b) (a.denominator * b.denominator))
  | "*" => some (.fraction (a.numerator * b.numerator) (a.denominator * b.denominator))
  | "/" =>
    if b.numerator = 0 then none
    else
      some (.fraction (a.numerator * b.denominator * b.numerator.sign)
        (a.denominator * b.numerator.natAbs))
  | _ => none

/-- An operation on two numbers. A fraction makes the other number one. -/
def operate? (symbol : String) (a b : Quantity) : Option Quantity :=
  match symbol with
  | "==" => some (truth (a.difference b == 0))
  | "!=" => some (truth (a.difference b != 0))
  | "<" => some (truth (!b.le a))
  | ">" => some (truth (!a.le b))
  | "<=" => some (truth (a.le b))
  | ">=" => some (truth (b.le a))
  | symbol =>
    if a.isWhole && b.isWhole then wholeOperation? symbol a.numerator b.numerator
    else fractionOperation? symbol a b

/-- An operation on one number. -/
def alter? (symbol : String) (q : Quantity) : Option Quantity :=
  match symbol with
  | "+" => some q
  | "-" => some q.neg
  | "~" => if q.isWhole then some (.whole (-q.numerator - 1)) else none
  | "!" => some (truth (q.numerator == 0))
  | _ => none

def smaller (a b : Quantity) : Quantity := if a.le b then a else b

def larger (a b : Quantity) : Quantity := if a.le b then b else a

/-- The value of a built-in function. -/
def function? (name : String) : List Quantity → Option Quantity
  | [q] =>
    match name with
    | "abs" => some (if q.numerator < 0 then q.neg else q)
    | "floor" => some (.fraction (Int.fdiv q.numerator q.denominator) 1)
    | "ceil" => some (.fraction (-Int.fdiv (-q.numerator) q.denominator) 1)
    | "trunc" => some (.fraction q.truncate 1)
    | _ => none
  | [a, b] =>
    match name with
    | "min" => some (smaller a b)
    | "max" => some (larger a b)
    | _ => none
  | [q, low, high] => if name = "clamp" then some (smaller (larger q low) high) else none
  | _ => none

/-- The value of a number made from another one. -/
def convert? (type : String) (q : Quantity) : Option Quantity :=
  match type with
  | "int" | "uint" => some (.whole q.truncate)
  | "float" | "double" => some (.fraction q.numerator q.denominator)
  | "bool" => some (truth (q.numerator != 0))
  | _ => none

end Quantity
end Texel.Shader
