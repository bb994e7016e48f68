import Texel.Failure

/-!
# Devices

What a session needs of whatever runs its programs. Some operations work on the device alone, others
also on a program that it has compiled. Every operation may fail; what it has done to the device and
to the program by then stays done.
-/

namespace Texel

/-- Workgroups in each direction. -/
structure Groups where
  x : Nat
  y : Nat
  z : Nat
deriving DecidableEq, Repr

/-- A device together with the program that is worked on. -/
structure Rig (δ π : Type) where
  device : δ
  program : π
deriving DecidableEq, Repr

namespace Rig

variable {δ π α : Type}

/-- An operation that leaves the program alone. -/
def onDevice (x : Action δ Fault α) : Action (Rig δ π) Fault α :=
  x.within device fun r device => { r with device }

/-- Lends a program to an operation and hands it back. A program is lost if the operation fails. -/
def lend (program : π) (x : Action (Rig δ π) Fault Unit) : Action δ Fault π := fun d =>
  let o := x.run ⟨d, program⟩
  ⟨o.result.map fun () => o.state.program, o.state.device, o.events⟩

end Rig

/-- A device with state `δ` that runs programs `π`. -/
class Device (δ : Type) (π : outParam Type) where
  compile (source : String) : Action δ Fault π
  /-- Makes or resizes the destination image. -/
  resize (extent : Extent) : Action δ Fault Unit
  /-- Puts an image into a slot of the program, or empties the slot. -/
  bindImage (slot : Nat) (image : Option Image) : Action (Rig δ π) Fault Unit
  setUniform (name : String) (value : UniformValue) : Action (Rig δ π) Fault Unit
  dispatch (groups : Groups) : Action (Rig δ π) Fault Unit
  /-- Waits until the dispatched work can be read. -/
  barrier : Action δ Fault Unit
  readOutput : Action δ Fault Image

/-- An operation that a device has been asked for. -/
inductive Call
  | compile
  | resize (extent : Extent)
  | bind (slot : Nat) (present : Bool)
  | set (name : String) (value : UniformValue)
  | dispatch (groups : Groups)
  | barrier
deriving DecidableEq, Repr

/-- Why an image of some extent is refused. -/
inductive ExtentError
  | empty (what : String) (extent : Extent)
  | tooLarge (what : String) (extent : Extent) (limit : Nat)
deriving DecidableEq, Repr

def ExtentError.message : ExtentError → String
  | .empty what extent => s!"{what} extent must be non-zero, got {extent.width}x{extent.height}"
  | .tooLarge what extent limit =>
    s!"{what} extent {extent.width}x{extent.height} exceeds the device limit of " ++
      s!"{limit} texels per side"

/-- Neither side of an image may be zero or above the limit. -/
def Extent.check (what : String) (extent : Extent) (limit : Nat) : Except ExtentError Unit :=
  if extent.width = 0 ∨ extent.height = 0 then .error (.empty what extent)
  else if limit < extent.width ∨ limit < extent.height then .error (.tooLarge what extent limit)
  else .ok ()

end Texel
