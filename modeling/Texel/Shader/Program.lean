import Texel.Shader.Analysis.Statement

/-!
# Programs

From the text of a program to its layout. `Program.ofText?` fails if the text cannot be understood;
a program that can be may still be invalid. It is if it uses two resources in one place, calls a
function that comes later or itself, or has a block of uniforms that cannot be laid out.
-/

namespace Texel.Shader

structure Program where
  layout : Layout
  valid : Bool
deriving DecidableEq, Repr

namespace Analysis

/-- For each function, the resources that it uses itself or through those it calls, which come
before it. -/
def totalUses (routines : List Routine) : List (List Nat) :=
  routines.foldl (fun found r =>
    found ++ [(r.uses ++ r.calls.flatMap fun callee => found[callee]?.getD []).eraseDups]) []

/-- Does every function call only those before it? -/
def callsBackward (routines : List Routine) : Bool :=
  ((List.range routines.length).zip routines).all fun (index, r) => r.calls.all (· < index)

/-- The function that a program starts with. -/
def main? (a : Analysis) : Option Nat :=
  a.routines.findIdx? fun r => r.name = "main" ∧ r.parameters.isEmpty ∧ r.defined

/-- The resources that a run may use. What stands outside of functions runs first. -/
def entryUses (a : Analysis) (main : Nat) : List Nat :=
  let total := totalUses a.routines
  (a.uses ++ (main :: a.calls).flatMap fun callee => total[callee]?.getD []).eraseDups

/-- Are all resources that a run may use in different places? -/
def placesDiffer (a : Analysis) (main : Nat) : Bool :=
  let places := (a.entryUses main).filterMap fun resource => a.resources[resource]?
  places.eraseDups.length == places.length

end Analysis

namespace Program

def ofAnalysis? (a : Analysis) : Option Program := do
  let main ← a.main?
  return {
    layout := a.layout
    valid := a.valid && Analysis.callsBackward a.routines && a.placesDiffer main }

def ofText? (text : String) : Option Program := do
  let items ← Item.ofSource? (← Source.ofText? text)
  let (_, a) ← (Analyze.items items).run {}
  ofAnalysis? a

end Program
end Texel.Shader
