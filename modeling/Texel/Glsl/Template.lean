import Texel.Text.Lines

/-!
# The program template

The fixed text around the generated sections, with a marker where each section goes. A section
replaces the first occurrence of its marker, and the sections are put in one after the other.
-/

namespace Texel.Glsl

/-- Texels per side of a workgroup. -/
def workgroupSize : Nat := 16

def template : String :=
  Text.ofLines [
    "#version 450",
    "layout(local_size_x = 16, local_size_y = 16, local_size_z = 1) in;",
    "",
    "layout(set = 0, binding = 0, rgba32f) writeonly uniform image2D uOutput;",
    "<uniforms>",
    "const float PI = 3.141592654;",
    "",
    "float rgb_to_float(vec3 color) \x7b",
    "    return color.x * 0.2126 + color.y * 0.7152 + color.z * 0.0722;",
    "\x7d",
    "",
    "float rgba_to_float(vec4 color) \x7b",
    "    return rgb_to_float(color.xyz) * color.w;",
    "\x7d",
    "",
    "ivec2 uv_to_texel(vec2 uv, ivec2 size) \x7b",
    "    return clamp(ivec2(floor(uv * vec2(size))), ivec2(0), size - ivec2(1));",
    "\x7d",
    "",
    "<defs>",
    "void main() \x7b",
    "    ivec2 cCoords = ivec2(gl_GlobalInvocationID.xy);",
    "    ivec2 cSize = imageSize(uOutput);",
    "    if (cCoords.x >= cSize.x || cCoords.y >= cSize.y) \x7b",
    "        return;",
    "    \x7d",
    "    vec2 cUV = (vec2(cCoords) + vec2(0.5)) / vec2(cSize);",
    "<body>\x7d"]

/-- `cs` with the first occurrence of `marker` replaced. -/
def replaceFirst (marker replacement : List Char) : List Char → List Char
  | [] => []
  | c :: cs =>
    if marker.isPrefixOf (c :: cs) then replacement ++ (c :: cs).drop marker.length
    else c :: replaceFirst marker replacement cs

/-- The whole program around its three sections. -/
def assemble (uniforms definitions body : String) : String :=
  let withUniforms := replaceFirst "<uniforms>".toList uniforms.toList template.toList
  let withDefinitions := replaceFirst "<defs>".toList definitions.toList withUniforms
  String.ofList (replaceFirst "<body>".toList body.toList withDefinitions)

end Texel.Glsl
