import Texel.Kind
import Texel.Text.Quoted

/-!
# Errors

The causes for which an edit of a graph or the generation of a program is refused, and their
wording.
-/

namespace Texel

/-- Which side of a node a socket is on. -/
inductive Direction
  | input
  | output
deriving DecidableEq, Repr

def Direction.label : Direction → String
  | .input => "input"
  | .output => "output"

/-- Why a graph refuses an edit or has no evaluation order. -/
inductive GraphError
  | unknownNode (node : Nat)
  | socketOutOfRange (node : Nat) (direction : Direction) (index : Nat)
  | inputTaken (node input : Nat)
  | selfConnection (node : Nat)
  | unknownParam (node : Nat) (name : String)
  | cycle (nodes : List Nat)
deriving DecidableEq, Repr

def GraphError.message : GraphError → String
  | .unknownNode node => s!"node not found: {node}"
  | .socketOutOfRange node direction index =>
    s!"node {node} has no {direction.label} socket {index}"
  | .inputTaken node input => s!"input {input} of node {node} is already connected"
  | .selfConnection node => s!"node {node} cannot be connected to itself"
  | .unknownParam node name => s!"node {node} has no parameter named {Text.quoted name}"
  | .cycle nodes =>
    "cycle detected in graph through nodes "
      ++ Text.bracketed (nodes.map fun node => s!"NodeId({node})")

/-- Why no program can be written. -/
inductive CodeError
  | unknownFunction (name : String)
  | spanOutOfRange (name : String) (start stop size : Nat)
  | noConversion (source target : Kind)
  | undeclarable (kind : Kind)
  | noOpenBlock
  | unknownNode (node : Nat)
  | emptyGraph
  | noOutput (node : Nat)
deriving DecidableEq, Repr

def CodeError.message : CodeError → String
  | .unknownFunction name => s!"function {Text.quoted name} not found in library"
  | .spanOutOfRange name start stop size =>
    s!"function {Text.quoted name} spans {start}..{stop} outside of a {size} byte library"
  | .noConversion source target => s!"no conversion from {source.label} to {target.label}"
  | .undeclarable kind => s!"cannot declare a value of kind {kind.label}"
  | .noOpenBlock => "no open code block to close"
  | .unknownNode node => s!"node {node} is not part of the graph"
  | .emptyGraph => "graph has no nodes to generate a program from"
  | .noOutput node => s!"node {node} has no output to write to the destination image"

end Texel
