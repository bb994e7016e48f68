import Texel.Graph.Basic

/-!
# Edits of single nodes

Changes of a node that leave the connections alone. An edit of a node that does not exist changes
nothing. None of them forgets the evaluation order, which depends on the connections only.
-/

namespace Texel.Graph

variable {β : Type}

def addInput (id : Nat) (name : String) (kind : Kind) (g : Graph β) : Graph β :=
  g.mapNode id fun n => { n with toPorts := n.addInput name kind }

def addOutput (id : Nat) (name : String) (kind : Kind) (g : Graph β) : Graph β :=
  g.mapNode id fun n => { n with toPorts := n.addOutput name kind }

def addParam (id : Nat) (name : String) (kind : Kind) (value : Value) (g : Graph β) : Graph β :=
  g.mapNode id fun n => { n with toPorts := n.addParam name kind value }

/-- Replaces the behavior; sockets and parameters stay as they are. -/
def setBehavior (id : Nat) (behavior : β) (g : Graph β) : Graph β :=
  g.mapNode id fun n => { n with behavior }

def setPosition (id : Nat) (position : Single × Single) (g : Graph β) : Graph β :=
  g.mapNode id fun n => { n with position }

def setInputValue (id index : Nat) (value : Value) (g : Graph β) : Graph β :=
  g.mapNode id fun n => { n with inputs := n.inputs.modify index fun s => { s with value } }

def setOutputValue (id index : Nat) (value : Value) (g : Graph β) : Graph β :=
  g.mapNode id fun n => { n with outputs := n.outputs.modify index fun s => { s with value } }

/-- The changes of one node count as seen. -/
def clearChanged (id : Nat) (g : Graph β) : Graph β :=
  g.mapNode id fun n => { n with changed := false }

end Texel.Graph
