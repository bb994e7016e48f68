/-!
# Types of values

The types that values of a program can have, and the names of those that are built in. A type that
a program declares itself is known by its place among all that it declares.
-/

namespace Texel.Shader

inductive Scalar
  | bool
  | int
  | uint
  | float
  | double
deriving DecidableEq, Repr

inductive ValueType
  | scalar (s : Scalar)
  | vector (s : Scalar) (size : Nat)
  | matrix (s : Scalar) (columns rows : Nat)
  /-- An array; without a length, it is as long as the data behind it. -/
  | array (element : ValueType) (length : Option Nat)
  /-- A structure that the program declares. -/
  | record (index : Nat)
  /-- An image with texels of some kind at places of so many coordinates. -/
  | image (texel : Scalar) (coordinates : Nat) (readable writable : Bool)
  | texture (texel : Scalar) (coordinates : Nat)
  | sampler
deriving DecidableEq, Repr

namespace ValueType

def bool : ValueType := .scalar .bool

def int : ValueType := .scalar .int

def uint : ValueType := .scalar .uint

def float : ValueType := .scalar .float

/-- So many values of a kind. -/
def several (s : Scalar) : Nat → ValueType
  | 1 => .scalar s
  | size => .vector s size

/-- The kind of the numbers that a value is made of. -/
def component? : ValueType → Option Scalar
  | .scalar s => some s
  | .vector s _ => some s
  | .matrix s _ _ => some s
  | _ => none

/-- The same shape with numbers of another kind. -/
def withComponent (s : Scalar) : ValueType → ValueType
  | .scalar _ => .scalar s
  | .vector _ size => .vector s size
  | .matrix _ columns rows => .matrix s columns rows
  | type => type

/-! ### Names -/

def scalarNames : List (String × ValueType) :=
  [("bool", .bool), ("int", .int), ("uint", .uint), ("float", .float), ("double", .scalar .double)]

def sizes : List (String × Nat) := [("2", 2), ("3", 3), ("4", 4)]

def vectorNames : List (String × ValueType) :=
  let kinds := [("vec", Scalar.float), ("bvec", .bool), ("ivec", .int), ("uvec", .uint),
    ("dvec", .double)]
  kinds.flatMap fun (name, s) => sizes.map fun (digit, size) => (name ++ digit, .vector s size)

def matrixNames : List (String × ValueType) :=
  [("mat", Scalar.float), ("dmat", .double)].flatMap fun (name, s) =>
    sizes.flatMap fun (digit, columns) =>
      (name ++ digit, .matrix s columns columns) :: sizes.map fun (other, rows) =>
        (name ++ digit ++ "x" ++ other, .matrix s columns rows)

/-- The arrangements of texels, with the coordinates that a place in them has. -/
def arrangements : List (String × Nat) :=
  [("1D", 1), ("2D", 2), ("3D", 3), ("Cube", 3), ("1DArray", 2), ("2DArray", 3), ("CubeArray", 4)]

def texelKinds : List (String × Scalar) := [("", .float), ("i", .int), ("u", .uint)]

def imageNames : List (String × ValueType) :=
  texelKinds.flatMap fun (letter, s) => arrangements.map fun (arrangement, coordinates) =>
    (letter ++ "image" ++ arrangement, .image s coordinates true true)

def textureNames : List (String × ValueType) :=
  texelKinds.flatMap fun (letter, s) =>
    (arrangements ++ [("2DMS", 2), ("2DMSArray", 3)]).map fun (arrangement, coordinates) =>
      (letter ++ "texture" ++ arrangement, .texture s coordinates)

/-- The types that are built in. -/
def names : List (String × ValueType) :=
  scalarNames ++ vectorNames ++ matrixNames ++ imageNames ++ textureNames ++
    [("sampler", .sampler), ("samplerShadow", .sampler)]

def ofName? (name : String) : Option ValueType := names.lookup name

end ValueType

/-- The formats of the texels of images, with the kind of their numbers. -/
def texelFormats : List (String × Scalar) :=
  (["rgba32f", "rgba16f", "rg32f", "rg16f", "r11f_g11f_b10f", "r32f", "r16f", "rgba16", "rgb10_a2",
    "rgba8", "rg16", "rg8", "r16", "r8", "rgba16_snorm", "rgba8_snorm", "rg16_snorm", "rg8_snorm",
    "r16_snorm", "r8_snorm"].map fun name => (name, .float)) ++
  (["rgba32i", "rgba16i", "rgba8i", "rg32i", "rg16i", "rg8i", "r32i", "r16i", "r8i"].map
    fun name => (name, .int)) ++
  (["rgba32ui", "rgba16ui", "rgb10_a2ui", "rgba8ui", "rg32ui", "rg16ui", "rg8ui", "r32ui", "r16ui",
    "r8ui"].map fun name => (name, .uint))

end Texel.Shader
