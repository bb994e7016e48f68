import Texel.Shader.Overload

/-!
# Built-in functions

The functions that every program can call. Most come in families: the same rule for numbers and
vectors of several kinds. Functions on images are about the image they are given. Of functions on
textures and of those that change shared data, only the names are known here.
-/

namespace Texel.Shader

/-- A type in the rule of a family, seen from the type that the rule is for. -/
inductive Slot
  | same
  /-- One number of its kind. -/
  | single
  /-- As many numbers of another kind. -/
  | other (s : Scalar)
  | fixed (type : ValueType)
deriving DecidableEq, Repr

/-- Functions that follow one rule. -/
structure Family where
  names : List String
  kinds : List Scalar
  sizes : List Nat
  parameters : List Slot
  /-- Parameters that give values back, behind the others. -/
  outputs : List Slot := []
  result : Option Slot
deriving Repr

namespace Slot

def resolve (s : Scalar) (size : Nat) : Slot → ValueType
  | .same => .several s size
  | .single => .scalar s
  | .other s => .several s size
  | .fixed type => type

end Slot

namespace Family

def overloads (f : Family) : List Overload :=
  f.kinds.flatMap fun s => f.sizes.map fun size =>
    { parameters :=
        (f.parameters.map fun p => ⟨p.resolve s size, .input⟩) ++
          f.outputs.map fun p => ⟨p.resolve s size, .output⟩
      result := f.result.map (·.resolve s size) }

end Family

namespace Intrinsic

def all : List Nat := [1, 2, 3, 4]

def vectors : List Nat := [2, 3, 4]

def floats : List Scalar := [.float, .double]

def numbers : List Scalar := [.float, .int, .uint, .double]

def whole : List Scalar := [.int, .uint]

def one : Slot := .single

/-- Families of functions on numbers. -/
def arithmetic : List Family :=
  [⟨["radians", "degrees", "sin", "cos", "tan", "asin", "acos", "atan", "sinh", "cosh", "tanh",
      "asinh", "acosh", "atanh", "exp", "log", "exp2", "log2", "sqrt", "inversesqrt", "floor",
      "trunc", "round", "roundEven", "ceil", "fract", "normalize", "dFdx", "dFdy", "fwidth",
      "dFdxFine", "dFdyFine", "fwidthFine", "dFdxCoarse", "dFdyCoarse", "fwidthCoarse"],
      floats, all, [.same], [], some .same⟩,
    ⟨["abs", "sign"], [.float, .int, .double], all, [.same], [], some .same⟩,
    ⟨["atan", "pow", "mod", "reflect", "step"], floats, all, [.same, .same], [], some .same⟩,
    ⟨["min", "max"], numbers, all, [.same, .same], [], some .same⟩,
    ⟨["mod"], floats, vectors, [.same, one], [], some .same⟩,
    ⟨["step"], floats, vectors, [one, .same], [], some .same⟩,
    ⟨["min", "max"], numbers, vectors, [.same, one], [], some .same⟩,
    ⟨["clamp"], numbers, all, [.same, .same, .same], [], some .same⟩,
    ⟨["clamp"], numbers, vectors, [.same, one, one], [], some .same⟩,
    ⟨["mix", "smoothstep", "fma", "faceforward"], floats, all, [.same, .same, .same], [],
      some .same⟩,
    ⟨["mix"], floats, vectors, [.same, .same, one], [], some .same⟩,
    ⟨["mix"], .bool :: numbers, all, [.same, .same, .other .bool], [], some .same⟩,
    ⟨["smoothstep"], floats, vectors, [one, one, .same], [], some .same⟩,
    ⟨["refract"], floats, all, [.same, .same, one], [], some .same⟩,
    ⟨["length"], floats, all, [.same], [], some one⟩,
    ⟨["distance", "dot"], floats, all, [.same, .same], [], some one⟩,
    ⟨["cross"], floats, [3], [.same, .same], [], some .same⟩,
    ⟨["modf"], floats, all, [.same], [.same], some .same⟩,
    ⟨["frexp"], floats, all, [.same], [.other .int], some .same⟩,
    ⟨["ldexp"], floats, all, [.same, .other .int], [], some .same⟩]

/-- Families of functions that tell something of numbers. -/
def relational : List Family :=
  [⟨["isnan", "isinf"], floats, all, [.same], [], some (.other .bool)⟩,
    ⟨["lessThan", "lessThanEqual", "greaterThan", "greaterThanEqual"], numbers, vectors,
      [.same, .same], [], some (.other .bool)⟩,
    ⟨["equal", "notEqual"], numbers ++ [.bool], vectors, [.same, .same], [],
      some (.other .bool)⟩,
    ⟨["any", "all"], [.bool], vectors, [.same], [], some one⟩,
    ⟨["not"], [.bool], vectors, [.same], [], some .same⟩]

/-- Families of functions on the bits of numbers. -/
def bitwise : List Family :=
  [⟨["floatBitsToInt"], [.float], all, [.same], [], some (.other .int)⟩,
    ⟨["floatBitsToUint"], [.float], all, [.same], [], some (.other .uint)⟩,
    ⟨["intBitsToFloat"], [.int], all, [.same], [], some (.other .float)⟩,
    ⟨["uintBitsToFloat"], [.uint], all, [.same], [], some (.other .float)⟩,
    ⟨["bitCount", "findLSB", "findMSB"], whole, all, [.same], [], some (.other .int)⟩,
    ⟨["bitfieldReverse"], whole, all, [.same], [], some .same⟩,
    ⟨["bitfieldExtract"], whole, all, [.same, .fixed .int, .fixed .int], [], some .same⟩,
    ⟨["bitfieldInsert"], whole, all, [.same, .same, .fixed .int, .fixed .int], [], some .same⟩,
    ⟨["uaddCarry", "usubBorrow"], [.uint], all, [.same, .same], [.same], some .same⟩,
    ⟨["umulExtended"], [.uint], all, [.same, .same], [.same, .same], none⟩,
    ⟨["imulExtended"], [.int], all, [.same, .same], [.same, .same], none⟩,
    ⟨["packUnorm2x16", "packSnorm2x16", "packHalf2x16"], [.float], [2], [.same], [],
      some (.fixed .uint)⟩,
    ⟨["packUnorm4x8", "packSnorm4x8"], [.float], [4], [.same], [], some (.fixed .uint)⟩,
    ⟨["unpackUnorm2x16", "unpackSnorm2x16", "unpackHalf2x16"], [.float], [2], [.fixed .uint], [],
      some .same⟩,
    ⟨["unpackUnorm4x8", "unpackSnorm4x8"], [.float], [4], [.fixed .uint], [], some .same⟩,
    ⟨["packDouble2x32"], [.uint], [2], [.same], [], some (.fixed (.scalar .double))⟩,
    ⟨["unpackDouble2x32"], [.uint], [2], [.fixed (.scalar .double)], [], some .same⟩]

/-- Waiting for other runs of the program. -/
def barriers : List Family :=
  [⟨["barrier", "memoryBarrier", "memoryBarrierAtomicCounter", "memoryBarrierBuffer",
      "memoryBarrierImage", "memoryBarrierShared", "groupMemoryBarrier"], [.float], [1], [], [],
      none⟩]

def families : List Family := arithmetic ++ relational ++ bitwise ++ barriers

/-- Functions of matrices. -/
def matrixOverloads (name : String) : List Overload :=
  floats.flatMap fun s => vectors.flatMap fun columns => vectors.filterMap fun rows =>
    let matrix : ParameterType := ⟨.matrix s columns rows, .input⟩
    if name = "transpose" then some ⟨[matrix], some (.matrix s rows columns)⟩
    else if name = "outerProduct" then
      some ⟨[⟨.vector s rows, .input⟩, ⟨.vector s columns, .input⟩], some matrix.type⟩
    else if name = "matrixCompMult" then some ⟨[matrix, matrix], some matrix.type⟩
    else if name = "determinant" ∧ columns = rows then some ⟨[matrix], some (.scalar s)⟩
    else if name = "inverse" ∧ columns = rows then some ⟨[matrix], some matrix.type⟩
    else none

/-- The built-in functions of a name. -/
def overloads (name : String) : List Overload :=
  ((families.filter (·.names.contains name)).flatMap (·.overloads)) ++ matrixOverloads name

/-- What is done to an image. -/
inductive ImageUse
  | size
  | load
  | store
deriving DecidableEq, Repr

def imageUse? (name : String) : Option ImageUse :=
  [("imageSize", ImageUse.size), ("imageLoad", .load), ("imageStore", .store)].lookup name

/-- The function on images of a type. -/
def ImageUse.overload (use : ImageUse) (image : ValueType) (texel : Scalar) (coordinates : Nat) :
    Overload :=
  let place : ParameterType := ⟨.several .int coordinates, .input⟩
  match use with
  | .size => ⟨[⟨image, .input⟩], some (.several .int coordinates)⟩
  | .load => ⟨[⟨image, .input⟩, place], some (.vector texel 4)⟩
  | .store => ⟨[⟨image, .input⟩, place, ⟨.vector texel 4, .input⟩], none⟩

/-- Functions that are known by name only. -/
def untyped : List String :=
  ["texture", "textureProj", "textureLod", "textureOffset", "textureProjOffset", "textureLodOffset",
    "textureProjLod", "textureProjLodOffset", "textureGrad", "textureGradOffset",
    "textureProjGrad", "textureProjGradOffset", "textureGather", "textureGatherOffset",
    "textureGatherOffsets", "textureSize", "textureQueryLod", "textureQueryLevels",
    "textureSamples", "texelFetch", "texelFetchOffset", "atomicAdd", "atomicMin", "atomicMax",
    "atomicAnd", "atomicOr", "atomicXor", "atomicExchange", "atomicCompSwap", "atomicCounter",
    "atomicCounterIncrement", "atomicCounterDecrement", "imageSamples", "imageAtomicAdd",
    "imageAtomicMin", "imageAtomicMax", "imageAtomicAnd", "imageAtomicOr", "imageAtomicXor",
    "imageAtomicExchange", "imageAtomicCompSwap", "sampler1D", "sampler2D", "sampler3D",
    "samplerCube", "sampler1DArray", "sampler2DArray", "samplerCubeArray", "sampler2DMS",
    "sampler2DMSArray", "isampler1D", "isampler2D", "isampler3D", "isamplerCube",
    "isampler1DArray", "isampler2DArray", "isamplerCubeArray", "isampler2DMS", "isampler2DMSArray",
    "usampler1D", "usampler2D", "usampler3D", "usamplerCube", "usampler1DArray", "usampler2DArray",
    "usamplerCubeArray", "usampler2DMS", "usampler2DMSArray", "sampler1DShadow", "sampler2DShadow",
    "samplerCubeShadow", "sampler1DArrayShadow", "sampler2DArrayShadow", "samplerCubeArrayShadow"]

/-- The variables that are built in. -/
def variableTypes : List (String × ValueType) :=
  (["gl_GlobalInvocationID", "gl_NumWorkGroups", "gl_WorkGroupSize", "gl_WorkGroupID",
    "gl_LocalInvocationID"].map fun name => (name, .vector .uint 3)) ++
  (["gl_LocalInvocationIndex", "gl_BaseVertex", "gl_BaseInstance", "gl_PrimitiveID",
    "gl_InstanceIndex", "gl_VertexIndex", "gl_SampleID"].map fun name => (name, .uint)) ++
  [("gl_Position", .vector .float 4), ("gl_FragCoord", .vector .float 4),
    ("gl_PointCoord", .vector .float 2), ("gl_FrontFacing", .bool), ("gl_PointSize", .float),
    ("gl_FragDepth", .float), ("gl_ClipDistance", .array .float none),
    ("gl_CullDistance", .array .float none)]

end Intrinsic
end Texel.Shader
