import Texel.Number.Single

/-!
# Shortest decimals

The decimal with the fewest digits that reads back as a given single-precision number. For each
digit count the two neighbours of the number on that decimal grid are tested against the interval of
reals that round to the number; the first grid with a hit wins, and of two hits the nearer one, a
tie going to the even digit.
-/

namespace Texel

/-- The decimal `digits * 10 ^ exponent`. -/
structure Decimal where
  digits : Nat
  exponent : Int
deriving DecidableEq, Repr

namespace Decimal

/-- The reals that round to a number, around it, all in units of `1 / unit`. -/
structure Interval where
  low : Nat
  value : Nat
  high : Nat
  unit : Nat
  closed : Bool

/-- Four times the mantissa makes room for the half-way points; below a power of two the gap to the
lower neighbour is half as wide. -/
def Interval.ofBinary (b : Binary) : Interval :=
  let m := 4 * b.mantissa
  let low := if b.mantissa = 0x800000 ∧ -149 < b.exponent then m - 1 else m - 2
  let e := b.exponent - 2
  let up := if 0 ≤ e then Nat.pow 2 e.toNat else 1
  let unit := if 0 ≤ e then 1 else Nat.pow 2 (-e).toNat
  ⟨low * up, m * up, (m + 2) * up, unit, b.mantissa % 2 = 0⟩

/-- `n * 10 ^ e` as a quotient. -/
def scaled (n : Nat) (e : Int) : Nat × Nat :=
  if 0 ≤ e then (n * Nat.pow 10 e.toNat, 1) else (n, Nat.pow 10 (-e).toNat)

/-- Does the decimal lie in the interval? -/
def Interval.contains (i : Interval) (n : Nat) (e : Int) : Bool :=
  let (p, q) := scaled n e
  let x := p * i.unit
  if i.closed then i.low * q ≤ x && x ≤ i.high * q else i.low * q < x && x < i.high * q

/-- Digits of a number `n / d` on the grid `10 ^ e`, rounded down. -/
def gridFloor (n d : Nat) (e : Int) : Nat :=
  let (p, q) := scaled 1 e
  n * q / (d * p)

/-- Twice the distance from the grid point below, compared with one grid step. -/
def nearerBelow (n d : Nat) (e : Int) (k : Nat) : Ordering :=
  let (p, q) := scaled 1 e
  compare (2 * (n * q - k * (d * p))) (d * p)

/-- The hit of one grid, if it has one. -/
def Interval.hit? (i : Interval) (e : Int) : Option Nat :=
  let k := gridFloor i.value i.unit e
  match i.contains k e, i.contains (k + 1) e with
  | true, false => some k
  | false, true => some (k + 1)
  | false, false => none
  | true, true =>
    match nearerBelow i.value i.unit e k with
    | .lt => some k
    | .gt => some (k + 1)
    | .eq => some (k + k % 2)

/-- The decimal exponent of the first digit of `n / d`, searched downwards from `e`. -/
def leadingExponent (n d : Nat) : Nat → Int → Int
  | 0, e => e
  | fuel + 1, e =>
    let (p, q) := scaled 1 e
    if d * p ≤ n * q then e else leadingExponent n d fuel (e - 1)

/-- Tries ever finer grids. -/
def search (i : Interval) : Nat → Int → Decimal
  | 0, e => ⟨gridFloor i.value i.unit e, e⟩
  | fuel + 1, e =>
    match i.hit? e with
    | some k => ⟨k, e⟩
    | none => search i fuel (e - 1)

/-- Moves trailing zeros of the digits into the exponent. -/
def trim : Nat → Decimal → Decimal
  | 0, d => d
  | fuel + 1, d =>
    if d.digits % 10 = 0 ∧ d.digits ≠ 0 then trim fuel ⟨d.digits / 10, d.exponent + 1⟩ else d

/-- The shortest decimal of a positive number of the 32-bit format. Its first digit stands between
`10 ^ -46` and `10 ^ 39`, and nine digits always suffice. -/
def shortest (b : Binary) : Decimal :=
  let i := Interval.ofBinary b
  trim 10 (search i 9 (leadingExponent i.value i.unit 90 39))

end Decimal
end Texel
