import Texel.Builtin
import Texel.Program.Generate
import Texel.Proofs.Glsl.Blocks
import Texel.Proofs.Shader.Typing

/-!
# Texel — running a program

What it means to run the text of a generated program at one texel. The text leaves open what the
library functions compute, how images are read and how numbers are calculated with; an
`Interpretation` says so, and any will do. Everything else is read off the text: which function a
name stands for, in which scope a variable lives, what has been written when it is read, of which
kind a value is. Whatever would not compile gets stuck, which is `none`.

* **`Expression.evaluate`**, **`Statement.exec`** — expressions and statements.
* **`Environment.link`** — the functions of a text, one after the other.
* **`Program.execute`** — the color that the program stores.
-/

namespace Texel

/-- A position in a texture. -/
abbrev Coord := Single × Single

/-- A pair of whole numbers: a texel, or the size of an image. -/
abbrev Texels := Int32 × Int32

/-- What the text of a program leaves open. -/
structure Interpretation where
  /-- `rgb_to_float` of the template. -/
  luminance : Single → Single → Single → Single
  /-- `rgba_to_float` of the template. -/
  coverage : Single → Single → Single → Single → Single
  /-- `uv_to_texel` of the template. -/
  texelAt : Coord → Texels → Texels
  /-- The size of an image, also where none is bound. -/
  size : Option Image → Texels
  /-- The color of a texel, also where no image is bound. -/
  load : Option Image → Texels → Value
  /-- A flag as a number. -/
  number : Int32 → Single
  /-- A color multiplied by a number. -/
  scale : Value → Single → Value
  /-- What the function of a single-pass operator makes of its arguments. -/
  single : Builtin → List UniformValue → Value
  /-- What the function of a multi-pass operator makes of the function that computes what feeds the
  node, and of its arguments. -/
  multi : Builtin → (Coord → Option UniformValue) → List UniformValue → Value

namespace UniformValue

/-- The kind of a value; a flag has none. -/
def kind : UniformValue → Kind
  | .float _ => .scalar
  | .vec2 .. => .vec2
  | .vec3 .. => .vec3
  | .vec4 .. => .vec4
  | .int _ => .none

def typeName : UniformValue → String
  | .int _ => "int"
  | v => v.kind.typeName

/-- The numbers that a value is made of. -/
def components? : UniformValue → Option (List Single)
  | .float x => some [x]
  | .vec2 x y => some [x, y]
  | .vec3 x y z => some [x, y, z]
  | .vec4 x y z w => some [x, y, z, w]
  | .int _ => none

def ofComponents? : List Single → Option UniformValue
  | [x] => some (.float x)
  | [x, y] => some (.vec2 x y)
  | [x, y, z] => some (.vec3 x y z)
  | [x, y, z, w] => some (.vec4 x y z w)
  | _ => none

/-- The parts of a vector that the letters of a word stand for. -/
def parts? (v : UniformValue) (word : String) : Option UniformValue :=
  if v.kind = .scalar then none
  else
    v.components?.bind fun xs =>
      (word.toList.mapM fun c => (['x', 'y', 'z', 'w'].zip xs).lookup c).bind ofComponents?

/-- A value of a kind that is made of others. A number fills a vector. -/
def make? (I : Interpretation) (kind : Kind) : List UniformValue → Option UniformValue
  | [.int n] => if kind = .scalar then some (.float (I.number n)) else none
  | [.float x] => ofValue? kind ⟨x, x, x, x⟩
  | vs =>
    ((vs.mapM components?).bind fun xss => ofComponents? xss.flatten).filter (·.kind = kind)

end UniformValue

namespace Glsl

/-- What has been handed to a program. -/
structure Inputs where
  uniform : String → Option UniformValue
  /-- What is bound to an image, if the image is declared. -/
  image : String → Option (Option Image)

/-- What an expression can stand for. -/
inductive Datum
  | value (v : UniformValue)
  | texels (t : Texels)
  | image (bound : Option Image)

namespace Datum

def value? : Datum → Option UniformValue
  | .value v => some v
  | _ => none

/-- What a function of the template or of the language gives. -/
def ofHelper? (I : Interpretation) (name : String) (data : List Datum) : Option Datum :=
  match name, data with
  | "rgb_to_float", [.value (.vec3 x y z)] => some (.value (.float (I.luminance x y z)))
  | "rgba_to_float", [.value (.vec4 x y z w)] => some (.value (.float (I.coverage x y z w)))
  | "uv_to_texel", [.value (.vec2 x y), .texels size] => some (.texels (I.texelAt (x, y) size))
  | "imageSize", [.image bound] => some (.texels (I.size bound))
  | "imageLoad", [.image bound, .texels t] =>
    (UniformValue.ofValue? .vec4 (I.load bound t)).map .value
  | _, _ => none

/-- The product of a color and a number. -/
def product? (I : Interpretation) : Datum → Datum → Option Datum
  | .value (.vec4 x y z w), .value (.float f) =>
    (UniformValue.ofValue? .vec4 (I.scale ⟨x, y, z, w⟩ f)).map .value
  | _, _ => none

end Datum

/-- The state of a function that is running. -/
structure Frame where
  coord : Coord
  /-- The variables, with their kind and the value that has been written to them. -/
  locals : String → Option (Kind × Option UniformValue) := fun _ => none
  /-- What has been stored in the destination. -/
  stored : List UniformValue := []
  returned : Option UniformValue := none

namespace Frame

def set (frame : Frame) (name : String) (kind : Kind) (value : Option UniformValue) : Frame :=
  { frame with locals := Function.update frame.locals name (some (kind, value)) }

/-- What a name stands for. A variable hides a uniform of its name. -/
def lookup (frame : Frame) (inputs : Inputs) (name : String) : Option Datum :=
  match frame.locals name with
  | some (_, value) => value.map .value
  | none =>
    if name = coordName then some (.value (.vec2 frame.coord.1 frame.coord.2))
    else
      match inputs.uniform name with
      | some v => some (.value v)
      | none => (inputs.image name).map .image

end Frame

/-- A function that statements can call. -/
structure Callable where
  parameters : List (Qualifier × Kind)
  /-- What is written to the output, given the other arguments. -/
  run : List UniformValue → Value

/-- The variables that the template declares around the body. -/
def templateVariables : List String := [coordName, "cCoords", "cSize"]

end Glsl

namespace Shader

open Glsl (Inputs Datum Frame Callable coordName templateVariables)

variable (I : Interpretation) (inputs : Inputs)

/-! ## Expressions -/

/-- The number nearest to a quantity. -/
def Quantity.single (q : Quantity) : Single :=
  Single.ofRatio (decide (q.numerator < 0)) q.numerator.natAbs q.denominator

mutual

/-- What an expression stands for. A function cannot be called where a variable has its name. -/
def Expression.evaluate (frame : Frame) : Expression → Option Datum
  | .literal .float q => some (.value (.float q.single))
  | .variable name => frame.lookup inputs name
  | .field e word =>
    ((e.evaluate frame).bind Datum.value?).bind fun v => (v.parts? word).map .value
  | .call name es =>
    if (frame.locals name).isSome then none
    else (evaluateAll frame es).bind (Datum.ofHelper? I name)
  | .construct type [] es =>
    (Kind.ofTypeName? type).bind fun kind => (evaluateAll frame es).bind fun data =>
      (data.mapM Datum.value?).bind fun vs => (UniformValue.make? I kind vs).map .value
  | .binary symbol e f =>
    if symbol = "*" then
      (e.evaluate frame).bind fun a => (f.evaluate frame).bind fun b => a.product? I b
    else none
  | _ => none

def evaluateAll (frame : Frame) : List Expression → Option (List Datum)
  | [] => some []
  | e :: es =>
    (e.evaluate frame).bind fun d => (evaluateAll frame es).map fun ds => d :: ds

end

/-- The value of an expression. -/
def Expression.value? (frame : Frame) (e : Expression) : Option UniformValue :=
  (e.evaluate I inputs frame).bind Datum.value?

/-- The color that an expression stands for. -/
def Expression.color? (frame : Frame) (e : Expression) : Option UniformValue :=
  (e.value? I inputs frame).filter (·.kind = .vec4)

/-! ## Statements -/

/-- The values of arguments, and the variables for outputs. Kinds have to fit. -/
def arguments? (frame : Frame) : List (Glsl.Qualifier × Kind) → List Expression →
    Option (List UniformValue × List (String × Kind))
  | [], [] => some ([], [])
  | (.output, kind) :: ps, .variable name :: es =>
    match frame.locals name with
    | some (declared, _) =>
      if declared = kind then
        (arguments? frame ps es).map fun (values, targets) => (values, (name, kind) :: targets)
      else none
    | none => none
  | (.output, _) :: _, _ :: _ => none
  | (_, kind) :: ps, e :: es =>
    match e.value? I inputs frame with
    | some v =>
      if v.kind = kind then
        (arguments? frame ps es).map fun (values, targets) => (v :: values, targets)
      else none
    | none => none
  | _, _ => none

/-- A call writes the one output of its function. -/
def call? (f : Callable) (frame : Frame) (es : List Expression) : Option Frame :=
  match arguments? I inputs frame f.parameters es with
  | some (values, [(name, kind)]) =>
    (UniformValue.ofValue? kind (f.run values)).map fun v => frame.set name kind (some v)
  | _ => none

/-- The texel of the program gets a color; the names of the destination and of the texel are those
of the template. -/
def store? (frame : Frame) : List Expression → Option Frame
  | [.variable image, .variable texel, e] =>
    if image = "uOutput" ∧ texel = "cCoords" ∧ frame.locals image = none ∧
        frame.locals texel = none then
      (e.color? I inputs frame).map fun v => { frame with stored := frame.stored ++ [v] }
    else none
  | _ => none

/-- A declaration of one variable that has no value yet. -/
def declare? (frame : Frame) : Declaration → Option Frame
  | .variableList ⟨[], []⟩ ⟨type, none, []⟩ [⟨name, [], none⟩] =>
    if (frame.locals name).isSome ∨ name ∈ templateVariables then none
    else ((Kind.ofTypeName? type).filter (·.isNumeric)).map fun kind => frame.set name kind none
  | _ => none

/-- One statement. Nothing happens after a function has returned. -/
def Statement.exec (callables : String → Option Callable) (frame : Frame) (s : Statement) :
    Option Frame :=
  if frame.returned.isSome then some frame
  else
    match s with
    | .declare d => declare? frame d
    | .evaluate (.call function es) =>
      if (frame.locals function).isSome then none
      else if function = "imageStore" then store? I inputs frame es
      else (callables function).bind fun f => call? I inputs f frame es
    | .leave (some e) =>
      (e.color? I inputs frame).map fun v => { frame with returned := some v }
    | _ => none

def execAll (callables : String → Option Callable) (frame : Frame) (ss : List Statement) :
    Option Frame :=
  ss.foldlM (Statement.exec I inputs callables) frame

end Shader

namespace Glsl

open Shader (execAll)

variable (I : Interpretation) (inputs : Inputs)

/-! ## Definitions -/

/-- The functions that have been defined so far. -/
structure Environment where
  names : List String := []
  /-- Functions of the coordinate. -/
  subtrees : String → Option (Coord → Option UniformValue) := fun _ => none
  callables : String → Option Callable := fun _ => none

/-- The definition of the function of an operator in its library. -/
def definitionOf (b : Builtin) : Option String :=
  (find? (functionsIn b.operator.library) b.operator.function).bind
    (·.definitionText? b.operator.library)

/-- What a function does, by its text. The text is that of the function of a single-pass operator,
or that of a multi-pass operator, renamed and with a known function in place of the placeholder;
otherwise it is a helper. -/
def meaning? (environment : Environment) (e : Entry) : Option (List UniformValue → Value) :=
  Builtin.all.findSome? fun b =>
    (definitionOf b).bind fun plain =>
      if b.operator.multiPass then
        e.calls.findSome? fun name =>
          (environment.subtrees name).bind fun subtree =>
            if rename (rename plain Program.placeholder name) b.operator.function e.name =
              e.text then
              some (I.multi b subtree)
            else none
      else if plain = e.text then some (I.single b)
      else none

/-- What a function of the coordinate does, by its text: it returns a color and stores nothing. -/
def colorFunction? (environment : Environment) (text : String) :
    Option (Coord → Option UniformValue) :=
  match Shader.Item.listOf? text with
  | some [.function ⟨some ⟨type, none, []⟩, _, _⟩ body] =>
    if type = Kind.vec4.typeName then
      some fun coord => (execAll I inputs environment.callables { coord } body).bind fun frame =>
        if frame.stored = [] then frame.returned else none
    else none
  | _ => none

/-- What a function calls has been defined before it, or is there without. -/
def Environment.Ready (environment : Environment) (e : Entry) : Prop :=
  ∀ name ∈ e.calls, name ∈ environment.names ∨ Shader.isPredefined name = true

instance (environment : Environment) (e : Entry) : Decidable (environment.Ready e) :=
  inferInstanceAs (Decidable (∀ name ∈ e.calls, _))

/-- The functions known after one more. A name may be defined once, and the names that expressions
and stores use are taken. A function of the coordinate runs with the functions that are known before
it. -/
def Environment.link (environment : Environment) (e : Entry) : Option Environment :=
  if e.name ∈ environment.names ∨ e.name ∈ "imageStore" :: helperNames ∨
    ¬ environment.Ready e then none
  else if e.parameters = coordParameters then
    (colorFunction? I inputs environment e.text).map fun f =>
      { environment with
        names := e.name :: environment.names
        subtrees := Function.update environment.subtrees e.name (some f) }
  else
    some { environment with
      names := e.name :: environment.names
      callables := Function.update environment.callables e.name
        ((meaning? I environment e).map fun run =>
          ⟨e.parameters.map fun p => (p.2.qualifier, p.2.kind), run⟩) }

end Glsl

/-! ## Programs -/

namespace Upload

variable (g : Graph Builtin)

/-- The parameter that an upload is about. -/
def param? (node : Nat) (name : String) : Option Param := (g.node? node).bind (·.param? name)

/-- What an upload sets a uniform to. -/
def value? (name : String) : Upload → Option UniformValue
  | .value uniform node param kind =>
    if uniform = name then
      (param? g node param).bind fun p => UniformValue.ofValue? kind p.value
    else none
  | .image _ flag _ node param =>
    if flag = name then (param? g node param).map fun p => .int (if p.image.isSome then 1 else 0)
    else none

/-- What an upload binds to a slot. -/
def bound? (slot : Nat) : Upload → Option (Option Image)
  | .value .. => none
  | .image _ _ taken node param =>
    if taken = slot then (param? g node param).map (·.image) else none

end Upload

namespace Program

open Glsl

/-- The slot at which an image is declared. -/
def slotOf? (uniforms : List UniformDecl) (name : String) : Option Nat :=
  uniforms.findSome? fun
    | .image declared slot => if declared = name then some slot else none
    | .member .. => none

/-- What the uploads hand to a program, as far as it is declared there. -/
def inputs (p : Program) (g : Graph Builtin) : Inputs where
  uniform name :=
    (p.uploads.findSome? (Upload.value? g name)).filter fun v =>
      .member name v.typeName ∈ p.uniforms
  image name :=
    (slotOf? p.uniforms name).bind fun slot => p.uploads.findSome? (Upload.bound? g slot)

/-- The color that a program stores at a coordinate, with the parameters of a graph. Its definitions
are functions and nothing else, and its body is read as statements. -/
def execute (I : Interpretation) (g : Graph Builtin) (p : Program) (coord : Coord) :
    Option UniformValue :=
  if p.definitionsText = textOfEntries (entries p.definitionsText) then do
    let environment ← (entries p.definitionsText).foldlM (Environment.link I (p.inputs g)) {}
    let statements ← statementsOf? p.bodyText
    let frame ← Shader.execAll I (p.inputs g) environment.callables { coord } statements
    match frame.stored, frame.returned with
    | [v], none => some v
    | _, _ => none
  else none

end Program
end Texel
