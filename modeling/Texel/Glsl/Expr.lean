import Texel.Error
import Texel.Text.Identifier

/-!
# Expressions

The expressions that generated code is made of, and their text. A color is read as a color with
coverage: its scalar is the luminance times the alpha.
-/

namespace Texel.Glsl

/-- The ways from one numeric kind to another. -/
inductive Conversion
  | identity
  | vec2ToScalar
  | vec3ToScalar
  | vec4ToScalar
  | scalarToVec2
  | vec3ToVec2
  | vec4ToVec2
  | scalarToVec3
  | vec2ToVec3
  | vec4ToVec3
  | scalarToVec4
  | vec2ToVec4
  | vec3ToVec4
deriving DecidableEq, Repr

namespace Conversion

/-- The conversion between two distinct kinds. -/
def table : Kind → Kind → Option Conversion
  | .vec2, .scalar => some .vec2ToScalar
  | .vec3, .scalar => some .vec3ToScalar
  | .vec4, .scalar => some .vec4ToScalar
  | .scalar, .vec2 => some .scalarToVec2
  | .vec3, .vec2 => some .vec3ToVec2
  | .vec4, .vec2 => some .vec4ToVec2
  | .scalar, .vec3 => some .scalarToVec3
  | .vec2, .vec3 => some .vec2ToVec3
  | .vec4, .vec3 => some .vec4ToVec3
  | .scalar, .vec4 => some .scalarToVec4
  | .vec2, .vec4 => some .vec2ToVec4
  | .vec3, .vec4 => some .vec3ToVec4
  | _, _ => none

/-- The conversion from `source` to `target`. An image is read as the color sampled from it; nothing
converts from or to `none`, and nothing into an image. -/
def between (source target : Kind) : Except CodeError Conversion :=
  if source = .none then .error (.noConversion source target)
  else if source.held = target then .ok .identity
  else
    match table source.held target with
    | some conversion => .ok conversion
    | none => .error (.noConversion source target)

/-- `e` as the operand of a component selection: a plain name stays bare. -/
def operand (e : String) : String :=
  let plain :=
    match e.toList with
    | [] => false
    | c :: _ => !c.isDigit && e.toList.all fun c => Identifier.isPart c || c == '.'
  if plain then e else "(" ++ e ++ ")"

/-- The text of the converted expression `e`. -/
def text (conversion : Conversion) (e : String) : String :=
  let v := operand e
  match conversion with
  | .identity => e
  | .vec2ToScalar => v ++ ".x"
  | .vec3ToScalar => "rgb_to_float(" ++ e ++ ")"
  | .vec4ToScalar => "rgba_to_float(" ++ e ++ ")"
  | .scalarToVec2 => "vec2(" ++ e ++ ", 1.0)"
  | .vec3ToVec2 => "vec2(rgb_to_float(" ++ e ++ "), 1.0)"
  | .vec4ToVec2 => "vec2(rgb_to_float(" ++ v ++ ".xyz), " ++ v ++ ".w)"
  | .scalarToVec3 => "vec3(" ++ e ++ ")"
  | .vec2ToVec3 => "vec3(" ++ v ++ ".x)"
  | .vec4ToVec3 => v ++ ".xyz"
  | .scalarToVec4 => "vec4(vec3(" ++ e ++ "), 1.0)"
  | .vec2ToVec4 => "vec4(vec3(" ++ v ++ ".x), " ++ v ++ ".y)"
  | .vec3ToVec4 => "vec4(" ++ e ++ ", 1.0)"

end Conversion

/-- The name of the implicit coordinate, between 0 and 1 in both directions. -/
def coordName : String := "cUV"

/-- The name of the flag that tells whether anything is bound to an image. -/
def flagName (image : String) : String := image ++ "_conn"

inductive Expr
  /-- The value of a variable or a uniform. -/
  | var (name : String)
  /-- The implicit coordinate. -/
  | coord
  /-- Zero of a numeric kind. -/
  | zero (kind : Kind)
  /-- The color of an image at a coordinate, or zero if nothing is bound to the image. -/
  | sample (image : String) (position : Expr)
  | convert (conversion : Conversion) (e : Expr)
deriving DecidableEq, Repr

namespace Expr

/-- Zero as a value of a kind; images are held as colors. -/
def ofZero (kind : Kind) : Except CodeError Expr :=
  if kind.held.isNumeric then .ok (.zero kind.held) else .error (.undeclarable kind.held)

/-- The expression `e` of kind `source`, converted to `target`. -/
def converted (source target : Kind) (e : Expr) : Except CodeError Expr :=
  (Conversion.between source target).map (.convert · e)

def render : Expr → String
  | .var name => name
  | .coord => coordName
  | .zero .scalar => "0.0"
  | .zero kind => kind.typeName ++ "(0.0)"
  | .sample image position =>
    "(imageLoad(" ++ image ++ ", uv_to_texel(" ++ position.render ++ ", imageSize(" ++ image
      ++ "))) * float(" ++ flagName image ++ "))"
  | .convert conversion e => conversion.text e.render

end Expr
end Texel.Glsl
