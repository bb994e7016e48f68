import Texel.Graph.Basic

/-!
# Ancestors

The nodes from which connections lead to a given node, directly or through others.
-/

namespace Texel.Graph

variable {β : Type}

/-- The nodes that feed a node, one for each connection. -/
def sources (g : Graph β) (id : Nat) : List Nat :=
  (g.connections.filter (·.destination = id)).map (·.source)

/-- Visits pending nodes and what feeds them, in at most `n` steps. The start is never visited. -/
def visit (g : Graph β) (start : Nat) : Nat → List Nat → List Nat → List Nat
  | 0, _, visited => visited
  | _ + 1, [], visited => visited
  | n + 1, id :: pending, visited =>
    if id = start ∨ id ∈ visited then g.visit start n pending visited
    else g.visit start n (g.sources id ++ pending) (id :: visited)

/-- The ancestors of a node other than the node itself, ascending. Every connection becomes pending
at most once, so there are no more steps than connections. -/
def ancestors (g : Graph β) (start : Nat) : List Nat :=
  let visited := g.visit start g.connections.length (g.sources start) []
  (List.range g.size).filter (· ∈ visited)

end Texel.Graph
