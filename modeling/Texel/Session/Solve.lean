import Texel.Session.Basic

/-!
# Solving

Passes values through the graph, generates the program anew, compiles it, sets its uniforms and
images, and runs it for every texel of the destination. A program takes the place of its predecessor
only when all of that has succeeded.
-/

namespace Texel.Session

variable {δ π β : Type} [Device δ π] [Operable β]

/-- Compiles a program; its diagnostic is reported. -/
def compile (source : String) : Action (Session δ π β) Failure π := do
  match ← Action.attempt (onDevice (Device.compile source)) with
  | .ok program => return program
  | .error failure =>
    .report (.programRejected failure.describe)
    .fail (.rejected failure.describe)

/-- The parameter that an upload is about. -/
def paramOf (node : Nat) (name : String) : Action (Session δ π β) Failure Param := do
  .ofOption (.graph (.unknownNode node))
    (((← .state).graph.node? node).bind (·.param? name))

/-- Hands the current value of a parameter to the program. -/
def upload (program : π) : Upload → Action (Session δ π β) Failure π
  | .value uniform node name kind => do
    let param ← paramOf node name
    match UniformValue.ofValue? kind param.value with
    | some value => onDevice (Rig.lend program (Device.setUniform uniform value))
    | none => return program
  | .image _ flag slot node name => do
    let param ← paramOf node name
    let bound ← onDevice (Rig.lend program (Device.bindImage slot param.image))
    onDevice (Rig.lend bound (Device.setUniform flag (.int (if param.image.isSome then 1 else 0))))

def uploadAll : π → List Upload → Action (Session δ π β) Failure π
  | program, [] => return program
  | program, u :: rest => do uploadAll (← upload program u) rest

/-- Workgroups that cover a number of texels. -/
def groupsFor (texels : Nat) : Nat := (texels + Glsl.workgroupSize - 1) / Glsl.workgroupSize

def groupsOf (extent : Extent) : Groups := ⟨groupsFor extent.width, groupsFor extent.height, 1⟩

/-- Compiles and runs a generated program. -/
def execute (generated : Program) : Action (Session δ π β) Failure Report := do
  let extent := (← .state).config.outputSize
  let groups := groupsOf extent
  let compiled ← compile generated.source
  onDevice (Device.resize extent)
  let filled ← uploadAll compiled generated.uploads
  let dispatched ← onDevice (Rig.lend filled (Device.dispatch groups))
  onDevice (Device.barrier : Action δ Fault Unit)
  .update fun s => { s with program := some dispatched }
  .report (.programDispatched extent.width extent.height groups.x groups.y)
  return {
    extent
    groups
    nodes := generated.order.length
    uploads := generated.uploads.length
    sourceSize := generated.source.utf8ByteSize }

def trySolve : Action (Session δ π β) Failure Report := do
  onGraph Graph.solve
  execute (← generate)

/-- Brings the destination image up to date and tells the listeners. -/
def solve : Action (Session δ π β) Failure Report := do
  match ← Action.attempt trySolve with
  | .ok report =>
    .update fun s =>
      { s with
        status := .ready
        notices := s.notices ++ s.listeners.map (·, report) }
    return report
  | .error failure =>
    .update fun s => { s with status := .failed failure.describe }
    .fail failure

/-- The destination image of the last run. -/
def readOutput : Action (Session δ π β) Failure Image := onDevice Device.readOutput

end Texel.Session
