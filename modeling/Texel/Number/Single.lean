import Texel.Number.Binary

/-!
# Single-precision numbers

A number is held as its 32-bit pattern, so every pattern, the payloads of NaNs included, is kept as
it is.
-/

namespace Texel

/-- A single-precision number by its bits. -/
structure Single where
  bits : UInt32
deriving DecidableEq, Repr, Inhabited

namespace Single

def zero : Single := ⟨0⟩

def one : Single := ⟨0x3f800000⟩

instance : OfNat Single 0 := ⟨zero⟩
instance : OfNat Single 1 := ⟨one⟩

def isNegative (x : Single) : Bool := x.bits &&& 0x80000000 != 0

/-- The exponent field. -/
def biased (x : Single) : Nat := ((x.bits >>> 23) &&& 0xff).toNat

/-- The mantissa field. -/
def fraction (x : Single) : Nat := (x.bits &&& 0x7fffff).toNat

def isFinite (x : Single) : Bool := x.biased != 255

def isNaN (x : Single) : Bool := x.biased == 255 && x.fraction != 0

/-- The absolute value of a finite number. -/
def magnitude (x : Single) : Binary :=
  if x.biased = 0 then ⟨x.fraction, -149⟩ else ⟨0x800000 + x.fraction, (x.biased : Int) - 150⟩

/-- The number with a sign and a magnitude of the 32-bit format; no magnitude stands for
infinity. -/
def ofBinary (negative : Bool) (magnitude : Option Binary) : Single :=
  let sign : Nat := if negative then 0x80000000 else 0
  let field : Nat :=
    match magnitude with
    | none => 0x7f800000
    | some b =>
      if b.mantissa < 0x800000 then b.mantissa
      else (b.exponent + 150).toNat * 0x800000 + (b.mantissa - 0x800000)
  ⟨UInt32.ofNat (sign + field)⟩

/-- The number nearest to `± n / d`. -/
def ofRatio (negative : Bool) (n d : Nat) : Single :=
  ofBinary negative (Format.single.round? n d)

/-- An 8-bit color channel as a number between 0 and 1. -/
def ofByte (b : Nat) : Single := ofRatio false b 255

/-- The 8-bit color channel of a number: clamped to the range from 0 to 1, multiplied by 255 and
rounded, a half upwards. What is not below 1 counts as 1. -/
def toByte (x : Single) : Nat :=
  if x.isNaN then 255
  else if x.isNegative then 0
  else if !x.isFinite then 255
  else
    let (n, d) := x.magnitude.ratio
    if d ≤ n then 255
    else
      let (p, q) := (ofRatio false (255 * n) d).magnitude.ratio
      (2 * p + q) / (2 * q)

/-- The four bytes of the pattern, lowest first. -/
def bytes (x : Single) : List Nat :=
  let n := x.bits.toNat
  [n % 256, n / 0x100 % 256, n / 0x10000 % 256, n / 0x1000000 % 256]

end Single
end Texel
