import Texel.Kind
import Texel.Number.Single

/-!
# Values

The payload of sockets and parameters, and the values uploaded to uniforms.
-/

namespace Texel

/-- Four components, of which the first `Kind.components` are meaningful. -/
structure Value where
  x : Single := 0
  y : Single := 0
  z : Single := 0
  w : Single := 0
deriving DecidableEq, Repr, Inhabited

namespace Value

def zero : Value := {}

def toList (v : Value) : List Single := [v.x, v.y, v.z, v.w]

end Value

/-- A value as a uniform holds it. -/
inductive UniformValue
  | float (x : Single)
  | vec2 (x y : Single)
  | vec3 (x y z : Single)
  | vec4 (x y z w : Single)
  | int (n : Int32)
deriving DecidableEq, Repr

namespace UniformValue

/-- The components of `v` that a kind has; images and `none` are no uniform values. -/
def ofValue? (kind : Kind) (v : Value) : Option UniformValue :=
  match kind with
  | .scalar => some (.float v.x)
  | .vec2 => some (.vec2 v.x v.y)
  | .vec3 => some (.vec3 v.x v.y v.z)
  | .vec4 => some (.vec4 v.x v.y v.z v.w)
  | .none | .image => none

/-- The little-endian bytes of the value in a uniform buffer. -/
def bytes : UniformValue → List Nat
  | .float x => x.bytes
  | .vec2 x y => x.bytes ++ y.bytes
  | .vec3 x y z => x.bytes ++ y.bytes ++ z.bytes
  | .vec4 x y z w => x.bytes ++ y.bytes ++ z.bytes ++ w.bytes
  | .int n => (Single.mk n.toUInt32).bytes

def byteSize : UniformValue → Nat
  | .float _ | .int _ => 4
  | .vec2 .. => 8
  | .vec3 .. => 12
  | .vec4 .. => 16

end UniformValue
end Texel
