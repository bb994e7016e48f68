import Texel.Graph.Schedule

/-!
# The value pass

Every node computes its outputs once, in evaluation order, and the values are copied along the
connections.
-/

namespace Texel.Graph

variable {β : Type}

/-- The node with its outputs computed. -/
def evaluated [Operable β] (n : Node β) : Node β :=
  { n with
    outputs := n.outputs.mapIdx fun i s =>
      match (Operable.operator n.behavior).evaluate n.toPorts i with
      | some value => { s with value }
      | none => s
    solved := true }

/-- The node with the value of an input set. -/
def withInput (index : Nat) (value : Value) (n : Node β) : Node β :=
  { n with inputs := n.inputs.modify index fun s => { s with value } }

/-- Copies the value of an output along a connection. -/
def transfer (outputs : List Socket) (g : Graph β) (c : Connection) : Graph β :=
  match outputs[c.output]? with
  | some s => g.mapNode c.destination (withInput c.input s.value)
  | none => g

/-- Computes one node and hands its outputs on. -/
def solveNode [Operable β] (g : Graph β) (id : Nat) : Graph β :=
  let g := g.mapNode id evaluated
  let outputs := ((g.node? id).map (·.outputs)).getD []
  (g.connections.filter (·.source = id)).foldl (transfer outputs) g

/-- Forgets which nodes the last pass has reached. -/
def unsolved (g : Graph β) : Graph β :=
  { g with nodes := g.nodes.map fun n => { n with solved := false } }

/-- The value pass. A graph with a cycle stays as it is. -/
def solve [Operable β] : Action (Graph β) GraphError Unit := do
  let order ← evaluationOrder
  .update fun g => order.foldl solveNode g.unsolved

end Texel.Graph
