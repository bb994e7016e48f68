import Texel.Builtin
import Texel.Dictionary
import Texel.Failure

/-!
# Documents

A graph of built-in operators as it is stored: records of nodes with their settings, and the
connections between them. A document can be made from any such graph, and a graph can be built from
a document whose parts fit together.
-/

namespace Texel

structure NodeRecord where
  id : Nat
  builtin : Builtin
  position : Single × Single := (0, 0)
  params : Dictionary Value := []
  /-- The files of image parameters. -/
  images : Dictionary String := []
deriving DecidableEq, Repr

structure Document where
  version : Nat := 1
  nodes : List NodeRecord := []
  connections : List Connection := []
deriving DecidableEq, Repr

namespace NodeRecord

/-- Values are recorded for all parameters but images, paths for images that have one. -/
def ofNode (n : Node Builtin) : NodeRecord where
  id := n.id
  builtin := n.behavior
  position := n.position
  params := n.params.filterMap fun p => if p.kind = .image then none else some (p.name, p.value)
  images := n.params.filterMap fun p => if p.kind = .image then p.path.map (p.name, ·) else none

/-- The settings of a record, put into a node. -/
def restore (r : NodeRecord) (n : Node Builtin) : Except GraphError (Node Builtin) := do
  let placed := { n with position := r.position }
  let valued ← r.params.foldlM (fun n (name, value) => n.setParam name value) placed
  r.images.foldlM (fun n (name, path) => n.setImage name none (some path)) valued

end NodeRecord

namespace Document

def ofGraph (g : Graph Builtin) : Document where
  nodes := g.nodes.map .ofNode
  connections := g.connections

/-- The ids of the records and of the nodes made from them, in the order of the records. -/
abbrev Ids : Type := List (Nat × Nat)

def Ids.get? (ids : Ids) (recorded : Nat) : Option Nat :=
  (ids.find? (·.1 = recorded)).map (·.2)

/-- Makes the node of a record. -/
def addRecord (built : Graph Builtin × Ids) (r : NodeRecord) :
    Except Failure (Graph Builtin × Ids) := do
  let (g, ids) := built
  let id := g.size
  let created := g.create r.builtin
  if (ids.get? r.id).isSome then
    throw (.repeatedId r.id)
  let restored := (Graph.edit id r.restore).run created
  match restored.result with
  | .ok () => return (restored.state, ids ++ [(r.id, id)])
  | .error e => throw (.graph e)

/-- Makes a recorded connection. -/
def addConnection (ids : Ids) (g : Graph Builtin) (c : Connection) :
    Except Failure (Graph Builtin) :=
  match ids.get? c.source, ids.get? c.destination with
  | some source, some destination =>
    let connected := (Graph.connect { c with source, destination }).run g
    match connected.result with
    | .ok () => .ok connected.state
    | .error e => .error (.graph e)
  | _, _ => .error (.danglingConnection c)

/-- The graph of a document, with the ids of its records. Image files are noted, not opened. -/
def build (d : Document) : Except Failure (Graph Builtin × Ids) := do
  let (g, ids) ← d.nodes.foldlM addRecord ({}, [])
  let connected ← d.connections.foldlM (addConnection ids) g
  return (connected.clearChanges, ids)

end Document
end Texel
