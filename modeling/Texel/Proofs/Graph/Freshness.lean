import Texel.Builtin
import Texel.Proofs.Graph.History

/-!
# Texel — kept evaluation orders are up to date

The evaluation order is computed when it is asked for and kept until an edit forgets it. Which edits
have to forget it follows from what it is computed of: the number of nodes and the connections.
Nothing else that can be done to a graph matters, not even a node that is turned into any other
node.

* **`Change`**, **`ofChanges`** — operations, and changes of single nodes that no operation would
  make.
* **`Unmoved`** — what an order is computed of has stayed, and so has the order.
* **`Operation.touches`** — the three things that an operation can do about the order.
* **`Fresh.apply`**, **`fresh_ofChanges`** — an order that is kept is the one that would be found,
  after every step and after every history.
-/

namespace Texel.Graph

variable {β : Type}

/-- A step in the life of a graph: an operation, or any change of a single node whatever. -/
inductive Change (β : Type)
  | operation (op : Operation β)
  | alter (id : Nat) (f : Node β → Node β)

def Change.apply [Operable β] (g : Graph β) : Change β → Graph β
  | .operation op => op.apply g
  | .alter id f => g.mapNode id f

/-- The graph that a history of changes makes of the empty graph. -/
def ofChanges [Operable β] (changes : List (Change β)) : Graph β := changes.foldl Change.apply {}

/-! ## What happens to the order -/

/-- The order is the same as before, and so is everything that it is computed of. -/
structure Unmoved (g g' : Graph β) : Prop where
  size : g'.size = g.size
  connections : g'.connections = g.connections
  order : g'.order = g.order

theorem Unmoved.refl (g : Graph β) : Unmoved g g := ⟨rfl, rfl, rfl⟩

theorem Unmoved.mapNode (g : Graph β) (id : Nat) (f : Node β → Node β) :
    Unmoved g (g.mapNode id f) :=
  ⟨List.length_modify .., rfl, rfl⟩

theorem Unmoved.edit (g : Graph β) (id : Nat) (f : Node β → Except GraphError (Node β)) :
    Unmoved g ((Graph.edit id f).run g).state := by
  rcases run_edit g id f with hsame | ⟨_, n', _, _, hstate⟩
  · rw [hsame]
    exact .refl g
  · rw [hstate]
    exact .mapNode g id _

theorem Steady.unmoved {g g' : Graph β} (h : Steady g g') : Unmoved g g' :=
  ⟨h.nodes.length, h.connections, h.order⟩

/-- What can be done about the order: it is forgotten, left alone, or asked for. -/
inductive Touches (g : Graph β) : (g' : Graph β) → Prop
  | forgets {g' : Graph β} (h : g'.order = none) : Touches g g'
  | leaves {g' : Graph β} (h : Unmoved g g') : Touches g g'
  | asks {g' : Graph β} (h : Unmoved (evaluationOrder.run g).state g') : Touches g g'

theorem touches_connect (g : Graph β) (c : Connection) :
    Touches g ((Graph.connect c).run g).state := by
  rw [run_connect]
  split
  · exact .leaves (.refl g)
  · exact .forgets rfl

theorem touches_disconnect (g : Graph β) (c : Connection) :
    Touches g ((Graph.disconnect c).run g).state := by
  rw [run_disconnect]
  split
  · exact .forgets rfl
  · exact .leaves (.refl g)

theorem touches_solve [Operable β] (g : Graph β) : Touches g (Graph.solve.run g).state :=
  .asks (steady_solve g).unmoved

theorem Edit.touches [Operable β] (g : Graph β) (e : Edit β) : Touches g (e.apply g) := by
  cases e with
  | create behavior => exact .forgets rfl
  | connect c => exact touches_connect g c
  | disconnect c => exact touches_disconnect g c
  | setParam id name value => exact .leaves (.edit g id _)
  | setImage id name image path => exact .leaves (.edit g id _)

/-- **What an operation does about the order.** -/
theorem Operation.touches [Operable β] (g : Graph β) (op : Operation β) :
    Touches g (op.apply g) := by
  cases op with
  | edit e => exact e.touches g
  | addInput id name kind => exact .leaves (.mapNode g id _)
  | addOutput id name kind => exact .leaves (.mapNode g id _)
  | addParam id name kind value => exact .leaves (.mapNode g id _)
  | setBehavior id behavior => exact .leaves (.mapNode g id _)
  | setPosition id position => exact .leaves (.mapNode g id _)
  | setInputValue id index value => exact .leaves (.mapNode g id _)
  | setOutputValue id index value => exact .leaves (.mapNode g id _)
  | clearChanged id => exact .leaves (.mapNode g id _)
  | clearChanges => exact .leaves ⟨List.length_map .., rfl, rfl⟩
  | evaluationOrder => exact .asks (.refl _)
  | solve => exact touches_solve g

/-! ## The invariant -/

theorem Fresh.unmoved {g g' : Graph β} (h : g.Fresh) (hg : Unmoved g g') : g'.Fresh := by
  intro order horder
  rw [schedule_congr hg.size hg.connections]
  exact h order (hg.order ▸ horder)

theorem Fresh.touches {g g' : Graph β} (h : g.Fresh) (hg : Touches g g') : g'.Fresh := by
  cases hg with
  | forgets hnone =>
    intro order horder
    rw [hnone] at horder
    cases horder
  | leaves hsame => exact h.unmoved hsame
  | asks hsame => exact h.evaluationOrder.unmoved hsame

/-- **The step.** -/
theorem Fresh.apply [Operable β] {g : Graph β} (h : g.Fresh) (change : Change β) :
    (change.apply g).Fresh := by
  cases change with
  | operation op => exact h.touches (op.touches g)
  | alter id f => exact h.unmoved (.mapNode g id f)

/-- **The run.** -/
theorem fresh_ofChanges [Operable β] (changes : List (Change β)) : (ofChanges changes).Fresh := by
  refine List.foldlRecOn changes Change.apply ?_ fun _ h change _ => h.apply change
  intro order horder
  cases horder

/-- **Kept orders never show.** After any history, the answer to a question for the evaluation order
is what would be computed then, be it an order or a cycle. An order is kept from then on; a failure
leaves the graph as it is, with nothing kept. -/
theorem evaluationOrder_eq_schedule [Operable β] (changes : List (Change β)) :
    let g := ofChanges changes
    let asked := evaluationOrder.run g
    asked.result = g.schedule ∧ asked.state = { g with order := g.schedule.toOption } ∧
      ∀ e, asked.result = .error e → asked.state = g ∧ asked.state.order = none := by
  intro g asked
  obtain ⟨hresult, hstate⟩ := (fresh_ofChanges changes).asked
  refine ⟨hresult, hstate, fun e herror => ?_⟩
  have hschedule : g.schedule = .error e := hresult.symm.trans herror
  -- a kept order would be what is found now, and nothing is found
  have hnone : g.order = none := by
    rw [Option.eq_none_iff_forall_ne_some]
    intro order horder
    cases (fresh_ofChanges changes order horder).symm.trans hschedule
  have hsame : asked.state = g := by
    rw [hstate, hschedule,
      ← show g.order = (Except.error e : Except GraphError (List Nat)).toOption from hnone]
  exact ⟨hsame, hsame ▸ hnone⟩

/-- Two outputs, the second of which feeds the first. A connection back is made, asked about and
removed again, and one that does not exist is removed as well. In between, the first output loses
its sockets. -/
def loosened : List (Change Builtin) :=
  [.operation (.edit (.create .output)), .operation (.edit (.create .output)),
    .operation .evaluationOrder, .operation (.edit (.connect ⟨1, 0, 0, 0⟩)),
    .operation .evaluationOrder, .operation (.edit (.connect ⟨0, 0, 1, 0⟩)),
    .operation .evaluationOrder, .alter 0 fun n => { n with inputs := [], outputs := [] },
    .operation .solve, .operation (.edit (.disconnect ⟨0, 0, 1, 0⟩)), .operation .evaluationOrder,
    .operation (.edit (.disconnect ⟨0, 0, 1, 0⟩))]

/-- The order before the connection back, the cycle while it is there, and the order afterwards. -/
theorem loosened_asked :
    (evaluationOrder.run (ofChanges (loosened.take 5))).result = .ok [1, 0] ∧
      (evaluationOrder.run (ofChanges (loosened.take 9))).result = .error (.cycle [0, 1]) ∧
      (evaluationOrder.run (ofChanges (loosened.take 9))).state.order = none ∧
      (evaluationOrder.run (ofChanges loosened)).result = .ok [1, 0] := by
  have hcycle :
      (evaluationOrder.run (ofChanges (loosened.take 9))).result = .error (.cycle [0, 1]) := by
    rw [(evaluationOrder_eq_schedule _).1]
    decide +kernel
  refine ⟨?_, hcycle, ((evaluationOrder_eq_schedule _).2.2 _ hcycle).2, ?_⟩
  · rw [(evaluationOrder_eq_schedule _).1]
    decide +kernel
  · rw [(evaluationOrder_eq_schedule _).1]
    decide +kernel

end Texel.Graph
