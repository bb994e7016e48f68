import Texel.Number.Single

/-!
# Numerals

The grammar of JSON numbers and their values. An integer of at most 64 bits has its exact value.
Any other numeral is a significand of at most 64 bits times a power of ten, computed in the 64-bit
format with one rounding for the significand and one for each multiplication or division; digits
that do not fit into the significand are dropped.
-/

namespace Texel

/-- A number as written. -/
structure Numeral where
  negative : Bool
  integer : List Nat
  fraction : List Nat
  /-- Sign and digits of the exponent. -/
  exponent : Option (Bool × List Nat)
deriving DecidableEq, Repr

/-- What a numeral stands for. -/
inductive Amount
  | natural (n : Nat)
  /-- The number `-n`. -/
  | negative (n : Nat)
  | real (negative : Bool) (magnitude : Binary)
deriving DecidableEq, Repr

namespace Numeral

def digitValue (c : Char) : Nat := c.toNat - '0'.toNat

def exponentOf? : List Char → Option (Option (Bool × List Nat))
  | [] => some none
  | e :: rest =>
    if e == 'e' || e == 'E' then
      let (negative, digits) :=
        match rest with
        | '-' :: digits => (true, digits)
        | '+' :: digits => (false, digits)
        | digits => (false, digits)
      if digits.isEmpty || !digits.all Char.isDigit then none
      else some (some (negative, digits.map digitValue))
    else none

/-- Reads a literal: no superfluous leading zero, and a digit on both sides of the point. -/
def parse? (literal : List Char) : Option Numeral :=
  let (negative, unsigned) :=
    match literal with
    | '-' :: rest => (true, rest)
    | rest => (false, rest)
  let (integer, rest) := unsigned.span Char.isDigit
  if integer.isEmpty || (integer.head? == some '0' && integer.length != 1) then none
  else
    match rest with
    | '.' :: rest =>
      let (fraction, rest) := rest.span Char.isDigit
      if fraction.isEmpty then none
      else (exponentOf? rest).map
        (⟨negative, integer.map digitValue, fraction.map digitValue, ·⟩)
    | rest => (exponentOf? rest).map (⟨negative, integer.map digitValue, [], ·⟩)

/-- Significands stay below this. -/
def limit : Nat := UInt64.size

/-- A significand that is being read, and the power of ten it is multiplied by. -/
structure Scaled where
  significand : Nat := 0
  exponent : Int := 0
  /-- Have digits been dropped? -/
  full : Bool := false
deriving DecidableEq, Repr

def Scaled.integerDigit (p : Scaled) (d : Nat) : Scaled :=
  if p.full || limit ≤ p.significand * 10 + d then
    { p with exponent := p.exponent + 1, full := true }
  else
    { p with significand := p.significand * 10 + d }

def Scaled.fractionDigit (p : Scaled) (d : Nat) : Scaled :=
  if p.full || limit ≤ p.significand * 10 + d then { p with full := true }
  else { p with significand := p.significand * 10 + d, exponent := p.exponent - 1 }

def natural (digits : List Nat) : Nat := digits.foldl (fun n d => n * 10 + d) 0

/-- The power `10 ^ n` in the 64-bit format, for `n ≤ 308`. -/
def powerOfTen (n : Nat) : Binary := (Format.double.round? (Nat.pow 10 n) 1).getD ⟨0, 0⟩

def times? (a b : Binary) : Option Binary :=
  Format.double.round? (a.ratio.1 * b.ratio.1) (a.ratio.2 * b.ratio.2)

def over? (a b : Binary) : Option Binary :=
  Format.double.round? (a.ratio.1 * b.ratio.2) (a.ratio.2 * b.ratio.1)

/-- `a / 10 ^ n`, in steps that stay inside the table of powers. -/
def scaleDown? (a : Binary) (n : Nat) : Option Binary :=
  if n ≤ 308 then over? a (powerOfTen n)
  else if a.mantissa = 0 then some a
  else do scaleDown? (← over? a (powerOfTen 308)) (n - 308)
termination_by n

/-- `a * 10 ^ n`, if that is finite. -/
def scaleUp? (a : Binary) (n : Nat) : Option Binary :=
  if n ≤ 308 then times? a (powerOfTen n)
  else if a.mantissa = 0 then some a
  else none

/-- `significand * 10 ^ exponent`. -/
def scale? (significand : Nat) (exponent : Int) : Option Binary := do
  let a ← Format.double.round? significand 1
  if 0 ≤ exponent then scaleUp? a exponent.toNat else scaleDown? a (-exponent).toNat

/-- The magnitude of a numeral that is no 64-bit integer; `none` if it is out of range. -/
def magnitude? (n : Numeral) : Option Binary :=
  let whole := n.integer.foldl Scaled.integerDigit {}
  let all := n.fraction.foldl Scaled.fractionDigit { whole with full := false }
  match n.exponent with
  | none => scale? all.significand all.exponent
  | some (negative, digits) =>
    let e := natural digits
    if 0x80000000 ≤ e then
      if all.significand ≠ 0 ∧ !negative then none else some ⟨0, 0⟩
    else scale? all.significand (if negative then all.exponent - e else all.exponent + e)

/-- The value of a numeral, unless it is out of range. -/
def amount? (n : Numeral) : Option Amount :=
  let whole := natural n.integer
  if n.fraction.isEmpty ∧ n.exponent.isNone ∧ !n.negative ∧ whole < limit then
    some (.natural whole)
  else if n.fraction.isEmpty ∧ n.exponent.isNone ∧ n.negative ∧ whole ≠ 0
      ∧ whole ≤ 0x8000000000000000 then
    some (.negative whole)
  else n.magnitude?.map (.real n.negative)

end Numeral

namespace Amount

/-- The nearest single-precision number. -/
def toSingle : Amount → Single
  | .natural n => .ofRatio false n 1
  | .negative n => .ofRatio true n 1
  | .real sign m => .ofBinary sign (m.narrow? .single)

/-- A natural number below a bound. -/
def toNat? (bound : Nat) : Amount → Option Nat
  | .natural n => if n < bound then some n else none
  | _ => none

end Amount
end Texel
