import Texel.Dictionary
import Texel.Device.Basic
import Texel.Shader.Program

/-!
# The validating device

Checks programs and the use that is made of them, keeps a log of the calls, and draws nothing: its
destination image stays blank. The log names what was asked for successfully; only the compilation
of a program is noted before it is checked.
-/

namespace Texel

/-- Why the validating device refuses something. -/
inductive Rejection
  /-- The text of a program cannot be understood. -/
  | parse
  /-- A program can be understood but is not valid. -/
  | validation
  | extent (error : ExtentError)
  | noInputImage (slot : Nat)
  | noUniform (name : String)
  | unboundInputs (bound inputs : Nat)
deriving DecidableEq, Repr

def Rejection.message : Rejection → String
  | .parse => "GLSL parse failed"
  | .validation => "GLSL validation failed"
  | .extent error => error.message
  | .noInputImage slot => s!"program has no input image at binding {slot}"
  | .noUniform name => "program has no uniform named " ++ Text.quoted name
  | .unboundInputs bound inputs => s!"{bound} of {inputs} input images bound before dispatch"

def Rejection.fault (r : Rejection) : Fault := ⟨[r.message]⟩

/-- A program that has been checked, and what has been set in it. -/
structure ValidProgram where
  layout : Layout
  uniforms : Dictionary UniformValue := []
  /-- For each slot that has been bound, by slot, whether it has an image. -/
  images : List (Nat × Bool) := []
deriving DecidableEq, Repr

namespace ValidProgram

/-- Sets the entry of a slot. -/
def insertSlot (slot : Nat) (present : Bool) : List (Nat × Bool) → List (Nat × Bool)
  | [] => [(slot, present)]
  | (s, p) :: rest =>
    if slot = s then (slot, present) :: rest
    else if slot < s then (slot, present) :: (s, p) :: rest
    else (s, p) :: insertSlot slot present rest

/-- Checks a program text. -/
def check (source : String) : Except Rejection ValidProgram :=
  match Shader.Program.ofText? source with
  | none => .error .parse
  | some program => if program.valid then .ok { layout := program.layout } else .error .validation

end ValidProgram

structure Validator where
  /-- The size of the destination image. -/
  extent : Extent := ⟨0, 0⟩
  /-- The greatest side of an image. -/
  limit : Nat := 8192
  calls : List Call := []
deriving DecidableEq, Repr

namespace Validator

abbrev Op := Action Validator Fault

/-- The device and a program that it has compiled. -/
abbrev Rig := Texel.Rig Validator ValidProgram

def log (call : Call) : Op Unit := .update fun v => { v with calls := v.calls ++ [call] }

def refuse {σ α : Type} (r : Rejection) : Action σ Fault α := .fail r.fault

def checkExtent (what : String) (extent : Extent) : Op Unit := do
  match extent.check what (← .state).limit with
  | .ok () => return
  | .error e => refuse (.extent e)

def compile (source : String) : Op ValidProgram := do
  log .compile
  match ValidProgram.check source with
  | .error r => refuse r
  | .ok program =>
    .report (.programValidated program.layout.members.length program.layout.images.length)
    return program

def resize (extent : Extent) : Op Unit := do
  checkExtent "output" extent
  log (.resize extent)
  .update fun v => { v with extent }

def bindImage (slot : Nat) (image : Option Image) : Action Rig Fault Unit := do
  match (← .state).program.layout.image? 0 slot with
  | some ⟨_, _, _, false⟩ =>
    if let some image := image then
      Rig.onDevice (checkExtent "input image" image.extent)
    Rig.onDevice (log (.bind slot image.isSome))
    .update fun r =>
      { r with program.images := ValidProgram.insertSlot slot image.isSome r.program.images }
  | _ => refuse (.noInputImage slot)

def setUniform (name : String) (value : UniformValue) : Action Rig Fault Unit := do
  if ((← .state).program.layout.member? name).isSome then
    Rig.onDevice (log (.set name value))
    .update fun r => { r with program.uniforms := Dictionary.insert name value r.program.uniforms }
  else
    refuse (.noUniform name)

def dispatch (groups : Groups) : Action Rig Fault Unit := do
  let program := (← .state).program
  if program.images.length = program.layout.inputs.length then
    Rig.onDevice (log (.dispatch groups))
  else
    refuse (.unboundInputs program.images.length program.layout.inputs.length)

def readOutput : Op Image := do return .blank (← .state).extent

instance : Device Validator ValidProgram where
  compile := compile
  resize := resize
  bindImage := bindImage
  setUniform := setUniform
  dispatch := dispatch
  barrier := log .barrier
  readOutput := readOutput

end Validator
end Texel
