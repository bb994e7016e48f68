import Texel.Failure
import Texel.Glsl.Emitter
import Texel.Glsl.Rename
import Texel.Graph.Ancestors
import Texel.Graph.Schedule
import Texel.Program.Names

/-!
# Program generation

A graph becomes one program. Its body declares a variable for every output, calls the function of
every node in evaluation order, and stores the first output of the result node.

A multi-pass node needs what feeds it as a function of the coordinate. Its ancestors are declared
and called once more inside such a subtree function, and the library of the node is added with the
placeholder and its function renamed for this node. Since ancestors come earlier in the evaluation
order, those among them that are multi-pass have been specialised by then.
-/

namespace Texel

/-- How a parameter reaches the program. -/
inductive Upload
  | value (uniform : String) (node : Nat) (param : String) (kind : Kind)
  /-- An image at a slot, with a flag that tells whether there is one. -/
  | image (uniform flag : String) (slot node : Nat) (param : String)
deriving DecidableEq, Repr

def Upload.uniform : Upload → String
  | .value uniform .. => uniform
  | .image uniform .. => uniform

/-- A generated program. -/
structure Program where
  uniforms : List Glsl.UniformDecl
  definitions : List Glsl.Piece
  body : List Glsl.Piece
  uploads : List Upload
  order : List Nat
  /-- The node whose first output is stored. -/
  result : Nat
deriving DecidableEq, Repr

namespace Program

def uniformsText (p : Program) : String := Glsl.UniformDecl.render p.uniforms

def definitionsText (p : Program) : String := Glsl.renderPieces p.definitions

def bodyText (p : Program) : String := Glsl.renderPieces p.body

def source (p : Program) : String :=
  Glsl.assemble p.uniformsText p.definitionsText p.bodyText

/-- Stands in a library for the function that computes what feeds the node. -/
def placeholder : String := "$subtree"

/-- The input that overrides the coordinate at which images are sampled. -/
def coordInput : String := "Coord"

/-- What generation has gathered. -/
structure Draft where
  emitter : Glsl.Emitter := {}
  /-- The text of all libraries so far. -/
  library : String := ""
  /-- The functions whose library is part of the text. -/
  included : List String := []
  uploads : List Upload := []
  /-- The next slot for an image; the destination has slot 0. -/
  nextSlot : Nat := 1
deriving DecidableEq, Repr

abbrev Generation := Action Draft CodeError

variable {β : Type} [Operable β]

/-- Works on the emitter of the draft. -/
def emitting {α : Type} (x : Action Glsl.Emitter CodeError α) : Generation α :=
  x.within (·.emitter) fun d emitter => { d with emitter }

def nodeOf (g : Graph β) (id : Nat) : Generation (Node β) :=
  .ofOption (.unknownNode id) (g.node? id)

/-- The node whose first output is the result: the last output node, or else the last node. -/
def resultNode (g : Graph β) (order : List Nat) (last : Nat) : Nat :=
  (order.reverse.find? fun id =>
    ((g.node? id).map fun n => (Operable.operator n.behavior).isOutput).getD false).getD last

/-- Adds the library of a node, unless one has been added for the same function. -/
def collectLibrary (g : Graph β) (id : Nat) : Generation Unit :=
  match (g.node? id).map fun n => Operable.operator n.behavior with
  | none => pure ()
  | some op =>
    if op.multiPass then pure ()
    else .update fun d =>
      if d.included.contains op.function then d
      else
        { d with
          included := op.function :: d.included
          library := d.library ++ op.library ++ "\n" }

/-- Declares what a parameter needs. -/
def declareParam (id : Nat) (param : Param) : Generation Unit := do
  let uniform := uniformName id param.name
  match param.kind with
  | .image =>
    let slot := (← .state).nextSlot
    let flag := Glsl.flagName uniform
    .update fun d => { d with nextSlot := slot + 1 }
    emitting (Glsl.Emitter.declareUniform .image uniform slot)
    emitting (Glsl.Emitter.declareFlag flag)
    .update fun d => { d with uploads := d.uploads ++ [.image uniform flag slot id param.name] }
  | kind =>
    emitting (Glsl.Emitter.declareUniform kind uniform 0)
    .update fun d => { d with uploads := d.uploads ++ [.value uniform id param.name kind] }

def declareUniforms (g : Graph β) (id : Nat) : Generation Unit := do
  let node ← nodeOf g id
  Action.each (declareParam id) node.params

def declareOutputs (g : Graph β) (id : Nat) : Generation Unit := do
  let node ← nodeOf g id
  Action.each (fun s => emitting (Glsl.Emitter.declareVariable s.kind (outputName id s.index)))
    node.outputs

/-- The value that a connection brings to an input, converted. -/
def connected? (g : Graph β) (node : Node β) (input : String) (kind : Kind) :
    Except CodeError (Option Glsl.Expr) :=
  match (node.inputIndex? input).bind (g.feeding? node.id) with
  | none => .ok none
  | some c =>
    match g.node? c.source with
    | none => .error (.unknownNode c.source)
    | some source =>
      match source.outputs[c.output]? with
      | none => .ok none
      | some socket =>
        (Glsl.Expr.converted socket.kind kind (.var (outputName c.source c.output))).map some

/-- The value for a parameter of the function of a node: what a connection brings, else the
parameter of the node, else the coordinate if it stands in, else zero. -/
def argument (g : Graph β) (node : Node β) (binding : Binding) (kind : Kind) :
    Except CodeError Glsl.Expr := do
  if let some e ← connected? g node binding.name kind then
    return e
  match node.param? binding.name with
  | some param =>
    let uniform := uniformName node.id param.name
    if param.kind = .image then
      let position := (← connected? g node coordInput .vec2).getD .coord
      Glsl.Expr.converted .image kind (.sample uniform position)
    else
      Glsl.Expr.converted param.kind kind (.var uniform)
  | none =>
    if binding.coords then Glsl.Expr.converted .vec2 kind .coord else Glsl.Expr.ofZero kind

/-- The arguments for the remaining parameters, of which the first output parameter takes the output
`next`. -/
def arguments (g : Graph β) (node : Node β) :
    Nat → List (String × Glsl.Parameter) → Except CodeError (List Glsl.Expr)
  | _, [] => .ok []
  | next, (name, parameter) :: rest =>
    if parameter.qualifier = .output then
      if node.outputs.length ≤ next then .error (.noOutput node.id)
      else do
        let others ← arguments g node (next + 1) rest
        return .var (outputName node.id next) :: others
    else do
      let first ← argument g node ((Operable.operator node.behavior).binding name) parameter.kind
      let others ← arguments g node next rest
      return first :: others

/-- The function that computes a node. -/
def calleeName (node : Node β) : String :=
  let op := Operable.operator node.behavior
  if op.multiPass then specialisedName op.function node.id else op.function

/-- Pastes the function of a node and calls it. -/
def emitCall (g : Graph β) (id : Nat) : Generation Unit := do
  let node ← nodeOf g id
  let name := calleeName node
  emitting (Glsl.Emitter.paste name (← .state).library)
  let function ← .ofOption (.unknownFunction name) ((← .state).emitter.function? name)
  let arguments ← .ofExcept (arguments g node 0 function.callParameters)
  emitting (Glsl.Emitter.append (.call name arguments))

/-- What a subtree function returns: the value that enters the first connected input. -/
def subtreeResult (g : Graph β) (node : Node β) : Except CodeError Glsl.Expr :=
  match node.inputs.findSome? fun s => g.feeding? node.id s.index with
  | none => .ok (.zero .vec4)
  | some c =>
    match g.node? c.source with
    | none => .error (.unknownNode c.source)
    | some source =>
      let kind := (source.outputs[c.output]?.map (·.kind)).getD .none
      Glsl.Expr.converted kind .vec4 (.var (outputName c.source c.output))

/-- Writes the subtree function of a multi-pass node and adds its library, renamed for it. -/
def specialise (g : Graph β) (order : List Nat) (node : Node β) : Generation Unit := do
  let op := Operable.operator node.behavior
  let subtree := subtreeName node.id
  let ancestors := g.ancestors node.id
  let members := order.filter (· ∈ ancestors)
  emitting (Glsl.Emitter.openBlock (some s!"vec4 {subtree}(vec2 {Glsl.coordName})"))
  Action.each (declareOutputs g) members
  Action.each (emitCall g) members
  let result ← .ofExcept (subtreeResult g node)
  emitting (Glsl.Emitter.append (.ret result))
  emitting (Glsl.Emitter.closeBlock .definitions)
  let renamed := Glsl.rename (Glsl.rename op.library placeholder subtree) op.function
    (specialisedName op.function node.id)
  .update fun d => { d with library := d.library ++ renamed ++ "\n" }
  emitting (Glsl.Emitter.load (← .state).library)
  .report (.nodeSpecialised node.id members.length)

/-- The code for one node of the body. -/
def emitNode (g : Graph β) (order : List Nat) (id : Nat) : Generation Unit := do
  let node ← nodeOf g id
  if (Operable.operator node.behavior).multiPass then
    specialise g order node
  emitCall g id

/-- Stores the first output of a node. -/
def emitStore (g : Graph β) (id : Nat) : Generation Unit := do
  let first ← .ofOption (.noOutput id) (g.output? id 0)
  let color ← .ofExcept (Glsl.Expr.converted first.kind .vec4 (.var (outputName id 0)))
  emitting (Glsl.Emitter.append (.store color))

/-- The program of a graph with a given evaluation order. -/
def build (g : Graph β) (order : List Nat) : Generation Program := do
  let last ← .ofOption .emptyGraph order.getLast?
  let result := resultNode g order last
  Action.each (fun id => do
    collectLibrary g id
    declareUniforms g id
    declareOutputs g id) order
  emitting (Glsl.Emitter.load (← .state).library)
  Action.each (emitNode g order) order
  emitStore g result
  let d ← .state
  return {
    uniforms := d.emitter.uniforms
    definitions := d.emitter.definitions
    body := d.emitter.body
    uploads := d.uploads
    order
    result }

/-- The program of a graph. -/
def generate : Action (Graph β) Failure Program := do
  let order ← Graph.evaluationOrder.mapError .graph
  let g ← .state
  let outcome := (build g order).run {}
  .reportAll outcome.events
  let program ← .ofExcept (outcome.result.mapError .code)
  .report (.programGenerated program.order.length program.uploads.length
    program.source.utf8ByteSize)
  return program

end Program
end Texel
