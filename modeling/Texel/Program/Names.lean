import Texel.Text.Identifier

/-!
# Generated names

The names of uniforms, output variables and subtree functions of a program.
-/

namespace Texel.Program

/-- The uniform that holds a parameter of a node. -/
def uniformName (node : Nat) (param : String) : String :=
  s!"param_{node}_" ++ Identifier.camelCase param

/-- The variable that holds an output of a node. -/
def outputName (node index : Nat) : String := s!"out_{node}_{index}"

/-- The function that computes what feeds a multi-pass node. -/
def subtreeName (node : Nat) : String := s!"subtree_{node}"

/-- The function of a multi-pass node, as specialised for the node. -/
def specialisedName (function : String) (node : Nat) : String := s!"{function}_{node}"

end Texel.Program
