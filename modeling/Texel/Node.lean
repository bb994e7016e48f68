import Texel.Error
import Texel.Image
import Texel.Value

/-!
# Nodes

Sockets, parameters and nodes. What a node computes is its operator's business; a node holds the
values.
-/

namespace Texel

/-- A typed input or output of a node. -/
structure Socket where
  index : Nat
  name : String
  kind : Kind
  value : Value := {}
  /-- Is any connection attached? -/
  connected : Bool := false
deriving DecidableEq, Repr

/-- An adjustable value of a node. -/
structure Param where
  name : String
  kind : Kind
  value : Value
  image : Option Image := none
  /-- The file the image comes from. -/
  path : Option String := none
deriving DecidableEq, Repr

/-- The sockets and parameters of a node. Parameters are in the order of their names. -/
structure Ports where
  inputs : List Socket := []
  outputs : List Socket := []
  params : List Param := []
deriving DecidableEq, Repr

namespace Param

/-- Puts a parameter in its place; one with the same name gives way. -/
def insert (p : Param) : List Param → List Param
  | [] => [p]
  | q :: rest =>
    if p.name = q.name then p :: rest
    else if p.name < q.name then p :: q :: rest
    else q :: insert p rest

end Param

namespace Ports

def addInput (p : Ports) (name : String) (kind : Kind) : Ports :=
  { p with inputs := p.inputs ++ [{ index := p.inputs.length, name, kind }] }

def addOutput (p : Ports) (name : String) (kind : Kind) : Ports :=
  { p with outputs := p.outputs ++ [{ index := p.outputs.length, name, kind }] }

/-- Declares a parameter; an earlier one of that name is forgotten. -/
def addParam (p : Ports) (name : String) (kind : Kind) (value : Value) : Ports :=
  { p with params := Param.insert { name, kind, value } p.params }

def inputIndex? (p : Ports) (name : String) : Option Nat := p.inputs.findIdx? (·.name = name)

def outputIndex? (p : Ports) (name : String) : Option Nat := p.outputs.findIdx? (·.name = name)

def input? (p : Ports) (name : String) : Option Socket := p.inputs.find? (·.name = name)

def param? (p : Ports) (name : String) : Option Param := p.params.find? (·.name = name)

/-- Changes the parameter of a name. -/
def mapParam (p : Ports) (name : String) (f : Param → Param) : Ports :=
  { p with params := p.params.map fun q => if q.name = name then f q else q }

end Ports

/-- A node of a graph whose behavior is a `β`. -/
structure Node (β : Type) extends Ports where
  id : Nat
  behavior : β
  /-- Where an editor shows the node. -/
  position : Single × Single := (0, 0)
  /-- Has the last value pass reached the node? -/
  solved : Bool := false
  /-- Has a parameter been set since the changes were last cleared? -/
  changed : Bool := false
deriving DecidableEq, Repr

namespace Node

variable {β : Type}

/-- Changes a parameter and marks the node as changed. -/
def editParam (n : Node β) (name : String) (f : Param → Param) : Except GraphError (Node β) :=
  if (n.param? name).isSome then
    .ok { n with toPorts := n.mapParam name f, changed := true }
  else
    .error (.unknownParam n.id name)

def setParam (n : Node β) (name : String) (value : Value) : Except GraphError (Node β) :=
  n.editParam name fun p => { p with value }

/-- Attaches an image and the path of its file, or takes them away. -/
def setImage (n : Node β) (name : String) (image : Option Image) (path : Option String) :
    Except GraphError (Node β) :=
  n.editParam name fun p => { p with image, path }

end Node
end Texel
