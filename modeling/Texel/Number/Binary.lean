/-!
# Rounding to a binary format

A quotient of natural numbers is rounded to the nearest number of a binary floating-point format,
a half going to the even neighbour. All arithmetic is exact.
-/

namespace Texel

/-- A nonnegative number `mantissa * 2 ^ exponent`. -/
structure Binary where
  mantissa : Nat
  exponent : Int
deriving DecidableEq, Repr

/-- A floating-point format: numbers `m * 2 ^ e` with `m < 2 ^ precision` and
`minExp ≤ e ≤ maxExp`. -/
structure Format where
  precision : Nat
  minExp : Int
  maxExp : Int

/-- The 32-bit format. -/
def Format.single : Format := ⟨24, -149, 104⟩

/-- The 64-bit format. -/
def Format.double : Format := ⟨53, -1074, 971⟩

namespace Binary

/-- `n / d` rounded to an integer, a half to the even neighbour. -/
def roundHalfEven (n d : Nat) : Nat :=
  let q := n / d
  let r := n % d
  if 2 * r < d then q else if d < 2 * r then q + 1 else q + q % 2

/-- Numerator and denominator of `n / d / 2 ^ e`. -/
def scaleDown (n d : Nat) (e : Int) : Nat × Nat :=
  if 0 ≤ e then (n, d * Nat.pow 2 e.toNat) else (n * Nat.pow 2 (-e).toNat, d)

/-- Numerator and denominator of a number. -/
def ratio (b : Binary) : Nat × Nat :=
  if 0 ≤ b.exponent then (b.mantissa * Nat.pow 2 b.exponent.toNat, 1)
  else (b.mantissa, Nat.pow 2 (-b.exponent).toNat)

/-- The exponent of the highest power of two that is not above `n / d`, for positive `n`, `d`. -/
def floorLog (n d : Nat) : Int :=
  let guess : Int := n.log2 - d.log2
  let (n', d') := scaleDown n d guess
  if d' ≤ n' then guess else guess - 1

end Binary

/-- `n / d` in a format; `none` when it is too large for a finite number of the format. -/
def Format.round? (format : Format) (n d : Nat) : Option Binary :=
  if n = 0 then
    some ⟨0, format.minExp⟩
  else
    let e := max format.minExp (Binary.floorLog n d - (format.precision - 1 : Nat))
    let (n', d') := Binary.scaleDown n d e
    let q := Binary.roundHalfEven n' d'
    let rounded : Binary :=
      if q = Nat.pow 2 format.precision then ⟨Nat.pow 2 (format.precision - 1), e + 1⟩
      else ⟨q, e⟩
    if format.maxExp < rounded.exponent then none else some rounded

/-- A number rounded into a narrower format. -/
def Binary.narrow? (format : Format) (b : Binary) : Option Binary :=
  format.round? b.ratio.1 b.ratio.2

end Texel
