import Texel.Action
import Texel.Operator

/-!
# Graphs

Nodes, numbered in the order of their creation, and connections from outputs to inputs. An input
takes at most one connection. The evaluation order is kept until the next edit that may change it.
-/

namespace Texel

/-- A connection from an output socket to an input socket. -/
structure Connection where
  source : Nat
  output : Nat
  destination : Nat
  input : Nat
deriving DecidableEq, Repr

structure Graph (β : Type) where
  nodes : List (Node β) := []
  connections : List Connection := []
  /-- The evaluation order, if it has been computed since the last edit. -/
  order : Option (List Nat) := none
deriving DecidableEq, Repr

namespace Graph

variable {β : Type}

def size (g : Graph β) : Nat := g.nodes.length

def isEmpty (g : Graph β) : Bool := g.nodes.isEmpty

def node? (g : Graph β) (id : Nat) : Option (Node β) := g.nodes[id]?

def output? (g : Graph β) (id index : Nat) : Option Socket := do (← g.node? id).outputs[index]?

def input? (g : Graph β) (id index : Nat) : Option Socket := do (← g.node? id).inputs[index]?

/-- Changes one node, if it exists. -/
def mapNode (g : Graph β) (id : Nat) (f : Node β → Node β) : Graph β :=
  { g with nodes := g.nodes.modify id f }

/-- The connection into an input, if any. -/
def feeding? (g : Graph β) (id index : Nat) : Option Connection :=
  g.connections.find? fun c => c.destination = id ∧ c.input = index

/-- Adds a node. -/
def create [Operable β] (behavior : β) (g : Graph β) : Graph β :=
  let node : Node β := { (Operable.operator behavior).ports with id := g.size, behavior }
  { g with nodes := g.nodes ++ [node], order := none }

/-- The node with its sockets marked as connected or not. -/
def marked (connections : List Connection) (n : Node β) : Node β :=
  { n with
    inputs := n.inputs.mapIdx fun i s =>
      { s with connected := connections.any fun c => c.destination = n.id ∧ c.input = i }
    outputs := n.outputs.mapIdx fun i s =>
      { s with connected := connections.any fun c => c.source = n.id ∧ c.output = i } }

/-- Sets the connections, and the marks of the sockets at the ends of `c`. -/
def withConnections (g : Graph β) (connections : List Connection) (c : Connection) : Graph β :=
  let edited := (g.mapNode c.source (marked connections)).mapNode c.destination (marked connections)
  { edited with connections, order := none }

/-- Why a connection is refused, if it is. -/
def refusal? (g : Graph β) (c : Connection) : Option GraphError :=
  if (g.node? c.source).isNone then some (.unknownNode c.source)
  else if (g.output? c.source c.output).isNone then
    some (.socketOutOfRange c.source .output c.output)
  else if (g.node? c.destination).isNone then some (.unknownNode c.destination)
  else if (g.input? c.destination c.input).isNone then
    some (.socketOutOfRange c.destination .input c.input)
  else if (g.feeding? c.destination c.input).isSome then
    some (.inputTaken c.destination c.input)
  else none

/-- Adds a connection. -/
def connect (c : Connection) : Action (Graph β) GraphError Unit := do
  match (← .state).refusal? c with
  | some e => .fail e
  | none => .update fun g => g.withConnections (g.connections ++ [c]) c

/-- Removes a connection; false if there is none like it. -/
def disconnect (c : Connection) : Action (Graph β) GraphError Bool := do
  if (← .state).connections.contains c then
    .update fun g => g.withConnections (g.connections.erase c) c
    return true
  else
    return false

/-- Replaces a node by an edited one. -/
def edit (id : Nat) (f : Node β → Except GraphError (Node β)) :
    Action (Graph β) GraphError Unit := do
  let node ← .ofOption (.unknownNode id) ((← .state).node? id)
  let edited ← .ofExcept (f node)
  .update fun g => g.mapNode id fun _ => edited

def setParam (id : Nat) (name : String) (value : Value) : Action (Graph β) GraphError Unit :=
  edit id (·.setParam name value)

def setImage (id : Nat) (name : String) (image : Option Image) (path : Option String) :
    Action (Graph β) GraphError Unit :=
  edit id (·.setImage name image path)

def hasChanges (g : Graph β) : Bool := g.nodes.any (·.changed)

def clearChanges (g : Graph β) : Graph β :=
  { g with nodes := g.nodes.map fun n => { n with changed := false } }

end Graph
end Texel
