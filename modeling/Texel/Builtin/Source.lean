import Texel.Text.Lines

/-!
# Libraries of the built-in operators

The shader text of every built-in operator.
-/

namespace Texel.Builtin.Source

def color : String :=
  Text.ofLines [
    "",
    "void color_node(in vec4 color, out vec4 result) \x7b",
    "    result = color;",
    "\x7d"]

def linearGradient : String :=
  Text.ofLines [
    "",
    "void linear_gradient(in vec2 uv, in float angle, in vec4 color_a, in vec4 color_b, out vec4 result) \x7b",
    "    float rad = angle * PI / 180.0;",
    "    vec2 dir = vec2(cos(rad), sin(rad));",
    "    float t = clamp(dot(uv - vec2(0.5), dir) + 0.5, 0.0, 1.0);",
    "    result = mix(color_a, color_b, t);",
    "\x7d"]

def mix : String :=
  Text.ofLines [
    "",
    "void mix_node(in vec4 a, in vec4 b, in float factor, out vec4 result) \x7b",
    "    result = mix(a, b, clamp(factor, 0.0, 1.0));",
    "\x7d"]

def blend : String :=
  Text.ofLines [
    "",
    "vec3 blend_multiply(vec3 a, vec3 b) \x7b",
    "    return a * b;",
    "\x7d",
    "",
    "vec3 blend_screen(vec3 a, vec3 b) \x7b",
    "    return vec3(1.0) - (vec3(1.0) - a) * (vec3(1.0) - b);",
    "\x7d",
    "",
    "vec3 blend_rgb(vec3 a, vec3 b, float mode) \x7b",
    "    if (mode < 0.5) \x7b",
    "        return blend_multiply(a, b);",
    "    \x7d",
    "    if (mode < 1.5) \x7b",
    "        return blend_screen(a, b);",
    "    \x7d",
    "    if (mode < 2.5) \x7b",
    "        return min(a + b, vec3(1.0));",
    "    \x7d",
    "    return abs(a - b);",
    "\x7d",
    "",
    "void blend_node(in vec4 base, in vec4 layer, in float mode, in float opacity, out vec4 result) \x7b",
    "    vec3 blended = blend_rgb(base.xyz, layer.xyz, mode);",
    "    float amount = clamp(opacity * layer.w, 0.0, 1.0);",
    "    result = vec4(mix(base.xyz, blended, amount), base.w);",
    "\x7d"]

def valueNoise : String :=
  Text.ofLines [
    "",
    "float hash21(vec2 p, float seed) \x7b",
    "    vec3 p3 = fract(vec3(p.x, p.y, p.x) * 0.1031 + vec3(seed * 0.013));",
    "    p3 = p3 + vec3(dot(p3, p3.yzx + vec3(33.33)));",
    "    return fract((p3.x + p3.y) * p3.z);",
    "\x7d",
    "",
    "float value_noise_at(vec2 p, float seed) \x7b",
    "    vec2 cell = floor(p);",
    "    vec2 f = fract(p);",
    "    vec2 u = f * f * (vec2(3.0) - 2.0 * f);",
    "    float a = hash21(cell, seed);",
    "    float b = hash21(cell + vec2(1.0, 0.0), seed);",
    "    float c = hash21(cell + vec2(0.0, 1.0), seed);",
    "    float d = hash21(cell + vec2(1.0, 1.0), seed);",
    "    return mix(mix(a, b, u.x), mix(c, d, u.x), u.y);",
    "\x7d",
    "",
    "void value_noise(in vec2 uv, in float scale, in float seed, out float result) \x7b",
    "    result = value_noise_at(uv * scale, seed);",
    "\x7d"]

def imageInput : String :=
  Text.ofLines [
    "",
    "void image_input(in vec4 pixel, out vec4 result) \x7b",
    "    result = pixel;",
    "\x7d"]

def uvTransform : String :=
  Text.ofLines [
    "",
    "void uv_transform(in vec2 uv, in vec2 offset, in vec2 scale, in float rotation, out vec2 result) \x7b",
    "    float rad = rotation * PI / 180.0;",
    "    float c = cos(rad);",
    "    float s = sin(rad);",
    "    vec2 p = (uv - vec2(0.5)) * scale;",
    "    result = vec2(p.x * c - p.y * s, p.x * s + p.y * c) + vec2(0.5) + offset;",
    "\x7d"]

def heightGradient : String :=
  Text.ofLines [
    "",
    "void height_gradient(in vec2 uv, in float strength, in float step_size, out vec2 result) \x7b",
    "    float h = max(step_size, 0.000001);",
    "    vec2 dx = vec2(h, 0.0);",
    "    vec2 dy = vec2(0.0, h);",
    "    float gx = rgb_to_float($subtree(uv + dx).xyz) - rgb_to_float($subtree(uv - dx).xyz);",
    "    float gy = rgb_to_float($subtree(uv + dy).xyz) - rgb_to_float($subtree(uv - dy).xyz);",
    "    result = vec2(gx, gy) * (strength / (2.0 * h));",
    "\x7d"]

def output : String :=
  Text.ofLines [
    "",
    "void texture_output(in vec4 color, out vec4 result) \x7b",
    "    result = color;",
    "\x7d"]

end Texel.Builtin.Source
