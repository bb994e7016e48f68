import Texel.Builtin.Source
import Texel.Operator

/-!
# Built-in operators

The operators that documents can name.
-/

namespace Texel

inductive Builtin
  /-- A constant color. -/
  | color
  /-- A gradient between two colors along an angle in degrees. -/
  | linearGradient
  /-- A weighted mean of two colors. -/
  | mix
  /-- A layer over a base: mode 0 multiplies, 1 screens, 2 adds, 3 takes the difference. -/
  | blend
  /-- Smooth noise. -/
  | valueNoise
  /-- An image, sampled at the texel or at a connected coordinate. -/
  | imageInput
  /-- Coordinates moved, scaled and turned around the center. -/
  | uvTransform
  /-- The slope of the luminance of whatever feeds the node. -/
  | heightGradient
  /-- The result of a graph. -/
  | output
deriving DecidableEq, Repr, Inhabited

namespace Builtin

def all : List Builtin :=
  [.color, .linearGradient, .mix, .blend, .valueNoise, .imageInput, .uvTransform, .heightGradient,
    .output]

/-- The name for people. -/
def label : Builtin → String
  | .color => "Color"
  | .linearGradient => "Linear Gradient"
  | .mix => "Mix"
  | .blend => "Blend"
  | .valueNoise => "Value Noise"
  | .imageInput => "Image"
  | .uvTransform => "UV Transform"
  | .heightGradient => "Height Gradient"
  | .output => "Output"

/-- The name in documents. -/
def slug : Builtin → String
  | .color => "color"
  | .linearGradient => "linear_gradient"
  | .mix => "mix"
  | .blend => "blend"
  | .valueNoise => "value_noise"
  | .imageInput => "image_input"
  | .uvTransform => "uv_transform"
  | .heightGradient => "height_gradient"
  | .output => "output"

def ofSlug? (s : String) : Option Builtin := all.find? (·.slug = s)

/-- A value with one meaningful component. -/
def scalar (x : Single) : Value := { x }

def opacityOne : Value := { w := 1 }

def white : Value := ⟨1, 1, 1, 1⟩

/-- One texel of a texture with 512 texels per side. -/
def gradientStep : Single := .ofRatio false 1 512

/-- The number eight. -/
def eight : Single := .ofRatio false 8 1

def half : Single := .ofRatio false 1 2

/-- Publishes the value of a parameter at the first output. -/
def publish (name : String) (ports : Ports) (index : Nat) : Option Value :=
  if index = 0 then (ports.param? name).map (·.value) else none

/-- Hands the value of the first input on to the first output. -/
def forward (ports : Ports) (index : Nat) : Option Value :=
  if index = 0 then ports.inputs[0]?.map (·.value) else none

def operator : Builtin → Operator
  | .color =>
    { function := "color_node"
      library := Source.color
      outputs := [("Color", .vec4)]
      params := [("Color", .vec4, white)]
      bindings := [("color", { name := "Color" })]
      evaluate := publish "Color" }
  | .linearGradient =>
    { function := "linear_gradient"
      library := Source.linearGradient
      inputs := [("UV", .vec2)]
      outputs := [("Color", .vec4)]
      params :=
        [("Angle", .scalar, .zero), ("Color A", .vec4, opacityOne), ("Color B", .vec4, white)]
      bindings :=
        [("uv", { name := "UV", coords := true }), ("angle", { name := "Angle" }),
          ("color_a", { name := "Color A" }), ("color_b", { name := "Color B" })] }
  | .mix =>
    { function := "mix_node"
      library := Source.mix
      inputs := [("A", .vec4), ("B", .vec4), ("Factor", .scalar)]
      outputs := [("Color", .vec4)]
      params := [("Factor", .scalar, scalar half)]
      bindings :=
        [("a", { name := "A" }), ("b", { name := "B" }), ("factor", { name := "Factor" })] }
  | .blend =>
    { function := "blend_node"
      library := Source.blend
      inputs := [("Base", .vec4), ("Layer", .vec4), ("Opacity", .scalar)]
      outputs := [("Color", .vec4)]
      params := [("Mode", .scalar, .zero), ("Opacity", .scalar, scalar 1)]
      bindings :=
        [("base", { name := "Base" }), ("layer", { name := "Layer" }),
          ("mode", { name := "Mode" }), ("opacity", { name := "Opacity" })] }
  | .valueNoise =>
    { function := "value_noise"
      library := Source.valueNoise
      inputs := [("UV", .vec2)]
      outputs := [("Value", .scalar)]
      params := [("Scale", .scalar, scalar eight), ("Seed", .scalar, .zero)]
      bindings :=
        [("uv", { name := "UV", coords := true }), ("scale", { name := "Scale" }),
          ("seed", { name := "Seed" })] }
  | .imageInput =>
    { function := "image_input"
      library := Source.imageInput
      inputs := [("Coord", .vec2)]
      outputs := [("Color", .vec4)]
      params := [("Image", .image, .zero)]
      bindings := [("pixel", { name := "Image" })] }
  | .uvTransform =>
    { function := "uv_transform"
      library := Source.uvTransform
      inputs := [("UV", .vec2)]
      outputs := [("UV", .vec2)]
      params :=
        [("Offset", .vec2, .zero), ("Scale", .vec2, ⟨1, 1, 0, 0⟩), ("Rotation", .scalar, .zero)]
      bindings :=
        [("uv", { name := "UV", coords := true }), ("offset", { name := "Offset" }),
          ("scale", { name := "Scale" }), ("rotation", { name := "Rotation" })] }
  | .heightGradient =>
    { function := "height_gradient"
      library := Source.heightGradient
      inputs := [("Height", .vec4)]
      outputs := [("Gradient", .vec2)]
      params := [("Strength", .scalar, scalar 1), ("Step", .scalar, scalar gradientStep)]
      bindings :=
        [("uv", { name := "UV", coords := true }), ("strength", { name := "Strength" }),
          ("step_size", { name := "Step" })]
      multiPass := true }
  | .output =>
    { function := "texture_output"
      library := Source.output
      inputs := [("Color", .vec4)]
      outputs := [("Color", .vec4)]
      bindings := [("color", { name := "Color" })]
      isOutput := true
      evaluate := forward }

instance : Operable Builtin := ⟨operator⟩

end Builtin
end Texel
