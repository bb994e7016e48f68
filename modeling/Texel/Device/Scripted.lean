import Texel.Device.Basic

/-!
# The scripted device

Accepts everything except the calls that a script says will fail. The script counts the calls of
each operation, from 0.
-/

namespace Texel

/-- An operation of a device, without what it is asked for. -/
inductive CallKind
  | compile
  | resize
  | bind
  | set
  | dispatch
  | barrier
  | read
deriving DecidableEq, Repr

/-- What stands for a program: the number of bytes of its text. -/
structure ScriptedProgram where
  size : Nat
deriving DecidableEq, Repr

structure Scripted where
  /-- The faults to come, by operation and number of the call. -/
  script : List (CallKind × Nat × Fault) := []
  /-- Every operation asked for. -/
  history : List CallKind := []
  calls : List Call := []
  extent : Extent := ⟨0, 0⟩
deriving DecidableEq, Repr

namespace Scripted

abbrev Op := Action Scripted Fault

/-- Counts an operation, and fails if the script says so. -/
def attempt (operation : CallKind) : Op Unit := do
  let number := (← .state).history.count operation
  .update fun d => { d with history := operation :: d.history }
  match (← .state).script.find? fun (o, n, _) => o = operation ∧ n = number with
  | some (_, _, fault) => .fail fault
  | none => return

def log (call : Call) : Op Unit := .update fun d => { d with calls := d.calls ++ [call] }

instance : Device Scripted ScriptedProgram where
  compile source := do
    log .compile
    attempt .compile
    return ⟨source.utf8ByteSize⟩
  resize extent := do
    log (.resize extent)
    attempt .resize
    .update fun d => { d with extent }
  bindImage slot image := Rig.onDevice do
    log (.bind slot image.isSome)
    attempt .bind
  setUniform name value := Rig.onDevice do
    log (.set name value)
    attempt .set
  dispatch groups := Rig.onDevice do
    log (.dispatch groups)
    attempt .dispatch
  barrier := do
    log .barrier
    attempt .barrier
  readOutput := do
    attempt .read
    return .blank (← .state).extent

end Scripted
end Texel
