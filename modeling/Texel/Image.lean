import Texel.Number.Single

/-!
# Images

Color images with four samples for each texel, row by row.
-/

namespace Texel

/-- Width and height in texels. -/
structure Extent where
  width : Nat
  height : Nat
deriving DecidableEq, Repr, Inhabited

structure Image where
  extent : Extent
  /-- The samples; those that are missing at the end are zero. -/
  samples : List Single := []
deriving DecidableEq, Repr

namespace Image

/-- An image of zeros. -/
def blank (extent : Extent) : Image := { extent }

/-- How many samples the image has. -/
def size (i : Image) : Nat := i.extent.width * i.extent.height * 4

/-- The first `n` of the samples `xs` of an image, as far as there are so many. -/
def firstOf {α : Type} (extent : Extent) (zero : α) (xs : List α) (n : Nat) : List α :=
  let count := min n (extent.width * extent.height * 4)
  let present := xs.take count
  present ++ List.replicate (count - present.length) zero

/-- The first `n` samples. -/
def firstSamples (i : Image) (n : Nat) : List Single := firstOf i.extent 0 i.samples n

/-- All samples. -/
def allSamples (i : Image) : List Single := i.firstSamples i.size

def isZero (i : Image) : Bool := i.samples.all (·.bits == 0)

/-- The image whose samples are stored as bytes. -/
def ofBytes (extent : Extent) (bytes : List Nat) : Image := ⟨extent, bytes.map Single.ofByte⟩

/-- The samples rounded to bytes; those that are missing are zero here, too. -/
def toBytes (i : Image) : List Nat := (i.samples.take i.size).map Single.toByte

end Image
end Texel
