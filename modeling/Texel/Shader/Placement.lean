import Texel.Device.Layout
import Texel.Shader.Type

/-!
# Placement of members

Where the members of a structure or of a block stand in memory. Every type has a size and an
alignment, and a member stands at the next multiple of its alignment. The two packings differ in
arrays and matrices: in the wide one their parts start at multiples of 16.

A block of uniforms must be laid out in a way that hardware can read. `Shape.uniform` is the
alignment that a type needs there; without it, the type has no place in such a block.
-/

namespace Texel.Shader

inductive Packing
  /-- For uniforms: the parts of arrays and matrices start at multiples of 16. -/
  | wide
  /-- For buffers: parts are packed as tightly as their alignments allow. -/
  | tight
deriving DecidableEq, Repr

/-- The next multiple of an alignment. -/
def roundUp (n align : Nat) : Nat := (n + align - 1) / align * align

/-- The alignment of structures and of the parts of arrays in a block of uniforms. -/
def uniformAlign : Nat := 16

/-- How much place a type takes. -/
structure Shape where
  size : Nat
  align : Nat
  /-- The alignment of its largest number or vector. -/
  natural : Nat
  /-- The alignment that it needs in a block of uniforms, if it may be there. -/
  uniform : Option Nat
  isStructure : Bool := false
deriving DecidableEq, Repr

namespace Shape

/-- Bytes of a number. A truth value cannot be shared with the outside. -/
def width : Scalar → Nat
  | .bool => 1
  | .double => 8
  | _ => 4

/-- A number or a vector. Three numbers are aligned like four. -/
def ofVector (s : Scalar) (size : Nat) : Shape :=
  let align := width s * (if size = 3 then 4 else size)
  { size := width s * size
    align
    natural := align
    uniform := if s = .bool then none else some align }

/-- Columns one after the other. -/
def ofMatrix (p : Packing) (s : Scalar) (columns rows : Nat) : Shape :=
  let natural := (ofVector s rows).align
  let align := if p = .wide then max natural uniformAlign else natural
  { size := columns * align, align, natural, uniform := some natural }

/-- Elements one after the other. Without a length, the place of one is counted. -/
def ofArray (p : Packing) (element : Shape) (length : Option Nat) : Shape :=
  let align := if p = .wide then max element.align uniformAlign else element.align
  let stride := roundUp element.size align
  let uniform := do
    let needed := max (max (← element.uniform) element.natural) uniformAlign
    guard (length.isSome && stride % needed == 0)
    return needed
  { size := length.getD 1 * stride, align, natural := element.natural, uniform }

/-- Places members one after the other, from a position on. -/
def offsets : Nat → List Shape → List Nat
  | _, [] => []
  | position, m :: rest =>
    let offset := roundUp position m.align
    offset :: offsets (offset + m.size) rest

/-- Where the last of some members ends. -/
def stop : Nat → List Shape → Nat
  | position, [] => position
  | position, m :: rest => stop (roundUp position m.align + m.size) rest

/-- May the members stand where they do in a block of uniforms? Behind a structure, the next member
keeps a distance. -/
def fitsUniform : List (Shape × Nat) → Bool
  | [] => true
  | [(m, offset)] => m.uniform.any fun needed => offset % needed == 0
  | (m, offset) :: (next, following) :: rest =>
    (m.uniform.any fun needed => offset % needed == 0) &&
      (!m.isStructure || roundUp m.size uniformAlign ≤ following - offset) &&
      fitsUniform ((next, following) :: rest)

def ofMembers (members : List Shape) : Shape :=
  let align := members.foldl (fun a m => max a m.align) 1
  let natural := members.foldl (fun a m => max a m.natural) 1
  let size := roundUp (stop 0 members) align
  let needed := members.foldl (fun a m => max a (m.uniform.getD 1)) uniformAlign
  let fits := fitsUniform (members.zip (offsets 0 members)) && size % natural == 0
  { size, align, natural, uniform := if fits then some needed else none, isStructure := true }

/-- The shape of a type, given those of the structures. There is none for a type that cannot be
that of a member. In the wide packing, this includes matrices with columns of two numbers. -/
def ofType? (p : Packing) (structures : List Shape) : ValueType → Option Shape
  | .scalar s => some (ofVector s 1)
  | .vector s size => some (ofVector s size)
  | .matrix s columns rows =>
    if p = .wide ∧ rows = 2 then none else some (ofMatrix p s columns rows)
  | .array element length => (ofType? p structures element).map fun e => ofArray p e length
  | .record index => structures[index]?
  | _ => none

end Shape

/-- The places of some members. -/
def members (names : List String) (shapes : List Shape) : List Member :=
  (names.zip (Shape.offsets 0 shapes)).map fun (name, offset) => ⟨name, offset⟩

end Texel.Shader
