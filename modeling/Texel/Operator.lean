import Texel.Node

/-!
# Operators

What a kind of node does: the sockets and parameters it starts with, the library function it calls,
and the rule by which it passes values on.
-/

namespace Texel

/-- What feeds a parameter of the function of an operator. -/
structure Binding where
  /-- The name of an input or a parameter of the node. -/
  name : String
  /-- Does the implicit coordinate stand in when nothing else feeds it? -/
  coords : Bool := false
deriving DecidableEq, Repr

structure Operator where
  /-- The function to call. -/
  function : String
  /-- The text that defines it and its helpers. -/
  library : String
  inputs : List (String × Kind) := []
  outputs : List (String × Kind) := []
  params : List (String × Kind × Value) := []
  /-- The bindings of function parameters; the others are bound to their own name. -/
  bindings : List (String × Binding) := []
  /-- Does the library evaluate what feeds the node, at other coordinates? -/
  multiPass : Bool := false
  /-- Is the first output meant for the destination image? -/
  isOutput : Bool := false
  /-- The new value of an output, if the value pass changes it. -/
  evaluate : Ports → Nat → Option Value := fun _ _ => none

/-- Behaviors that stand for operators. -/
class Operable (β : Type) where
  operator : β → Operator

instance : Operable Operator := ⟨id⟩

namespace Operator

/-- The ports of a new node. -/
def ports (op : Operator) : Ports :=
  let withInputs := op.inputs.foldl (fun p (name, kind) => p.addInput name kind) {}
  let withOutputs := op.outputs.foldl (fun p (name, kind) => p.addOutput name kind) withInputs
  op.params.foldl (fun p (name, kind, value) => p.addParam name kind value) withOutputs

/-- What feeds a parameter of the function. -/
def binding (op : Operator) (parameter : String) : Binding :=
  ((op.bindings.find? (·.1 = parameter)).map (·.2)).getD { name := parameter }

end Operator
end Texel
