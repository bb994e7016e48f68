import Texel.Graph.Basic

/-!
# Evaluation order

Nodes come after everything that feeds them. Nodes that wait for nothing are taken first, in the
order of their ids, then each node as the last connection into it is released; releases happen in
the order of the connections.
-/

namespace Texel.Graph

variable {β : Type}

/-- How many connections enter each node. -/
def inDegrees (g : Graph β) : List Nat :=
  (List.range g.size).map fun id => g.connections.countP (·.destination = id)

/-- The nodes that a node's connections lead to, one for each connection. -/
def successors (g : Graph β) (id : Nat) : List Nat :=
  (g.connections.filter (·.source = id)).map (·.destination)

/-- Connections still to be released, by node, and the nodes that wait for none. -/
structure Waiting where
  degrees : List Nat
  ready : List Nat
deriving DecidableEq, Repr

/-- One connection into `id` is released. -/
def Waiting.release (w : Waiting) (id : Nat) : Waiting :=
  let degree := w.degrees.getD id 0 - 1
  { degrees := w.degrees.set id degree
    ready := if degree = 0 then w.ready ++ [id] else w.ready }

/-- Takes ready nodes, at most `n` of them, and releases what they feed. -/
def take (g : Graph β) : Nat → Waiting → List Nat × Waiting
  | 0, w => ([], w)
  | n + 1, w =>
    match w.ready with
    | [] => ([], w)
    | id :: ready =>
      let (rest, final) := g.take n ((g.successors id).foldl .release { w with ready })
      (id :: rest, final)

def initialWaiting (g : Graph β) : Waiting :=
  { degrees := g.inDegrees
    ready := (List.range g.size).filter fun id => g.inDegrees.getD id 0 = 0 }

/-- The evaluation order of all nodes, or the nodes that lie on a cycle or behind one. -/
def schedule (g : Graph β) : Except GraphError (List Nat) :=
  let (order, final) := g.take g.size g.initialWaiting
  if order.length = g.size then .ok order
  else .error (.cycle ((List.range g.size).filter fun id => 0 < final.degrees.getD id 0))

/-- The evaluation order, computed at most once between two edits. -/
def evaluationOrder : Action (Graph β) GraphError (List Nat) := do
  match (← .state).order with
  | some order => return order
  | none =>
    let order ← .ofExcept (← .state).schedule
    .report (.orderRebuilt order.length)
    .update fun g => { g with order := some order }
    return order

end Texel.Graph
