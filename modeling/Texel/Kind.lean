/-!
# Value kinds

The closed set of shapes that a socket or a parameter can hold, with their shader type names.
-/

namespace Texel

inductive Kind
  | none
  | scalar
  | vec2
  | vec3
  | vec4
  | image
deriving DecidableEq, Repr, Inhabited

namespace Kind

/-- Every kind, in the order of `index`. -/
def all : List Kind := [.none, .scalar, .vec2, .vec3, .vec4, .image]

def index : Kind → Nat
  | .none => 0
  | .scalar => 1
  | .vec2 => 2
  | .vec3 => 3
  | .vec4 => 4
  | .image => 5

/-- The shader type; empty for `none`. -/
def typeName : Kind → String
  | .none => ""
  | .scalar => "float"
  | .vec2 => "vec2"
  | .vec3 => "vec3"
  | .vec4 => "vec4"
  | .image => "image2D"

/-- The kind a shader type stands for. `none` has no type name. -/
def ofTypeName? (name : String) : Option Kind :=
  if name = "float" then some .scalar
  else if name = "vec2" then some .vec2
  else if name = "vec3" then some .vec3
  else if name = "vec4" then some .vec4
  else if name = "image2D" then some .image
  else Option.none

/-- How many components of a value are meaningful. -/
def components : Kind → Nat
  | .none => 0
  | .scalar => 1
  | .vec2 => 2
  | .vec3 => 3
  | .vec4 => 4
  | .image => 4

/-- The kind of a local variable that holds such a value: a sampled image is a color. -/
def held : Kind → Kind
  | .image => .vec4
  | kind => kind

/-- Kinds that convert freely into each other. -/
def isNumeric : Kind → Bool
  | .scalar | .vec2 | .vec3 | .vec4 => true
  | .none | .image => false

/-- The name messages use. -/
def label : Kind → String
  | .none => "None"
  | .scalar => "Scalar"
  | .vec2 => "Vec2"
  | .vec3 => "Vec3"
  | .vec4 => "Vec4"
  | .image => "Image"

/-- The name documents and listings use. -/
def slug : Kind → String
  | .none => "none"
  | .scalar => "scalar"
  | .vec2 => "vec2"
  | .vec3 => "vec3"
  | .vec4 => "vec4"
  | .image => "image"

end Kind
end Texel
