import Texel.Proofs.Graph.Standard

/-!
# Texel — graphs without their values

The values, images and marks of a graph change all the time; what a program is made of does not. The
**bare** form of a node keeps its id, its behavior and its outline, and resets everything else. The
**plan** of a graph has the bare forms of its nodes and its connections.

* **`Lasting.solve`** — the value pass shows in no view of nodes that leaves out what it writes.
* **`Alike`** — graphs with the same plan that are visited in the same order. Edits of values
  (`alike_edit`), evaluation orders and value passes (`alike_solve`) lead to such graphs.
* **`Standard.alike`** — the ports of an operator can be told from the plan.
-/

namespace Texel

def SocketOutline.socket (o : SocketOutline) : Socket :=
  { index := o.index, name := o.name, kind := o.kind }

/-- A parameter without its value. -/
def Param.bare (p : Param) : Param := { name := p.name, kind := p.kind, value := .zero }

def Socket.bare (s : Socket) : Socket := s.outline.socket

def Ports.bare (p : Ports) : Ports :=
  ⟨p.inputs.map (·.bare), p.outputs.map (·.bare), p.params.map (·.bare)⟩

/-- The bare form can be told from the outline. -/
theorem Ports.bare_congr {p p' : Ports} (h : p'.outline = p.outline) : p'.bare = p.bare := by
  have hsockets : ∀ {xs ys : List Socket}, ys.map (·.outline) = xs.map (·.outline) →
      ys.map (·.bare) = xs.map (·.bare) := by
    intro xs ys hxs
    have hmap := congrArg (List.map SocketOutline.socket) hxs
    rwa [List.map_map, List.map_map] at hmap
  have hparams : p'.params.map (·.bare) = p.params.map (·.bare) := by
    have hpairs :
        p'.params.map (fun q => (q.name, q.kind)) = p.params.map fun q => (q.name, q.kind) :=
      congrArg PortsOutline.params h
    have hmap := congrArg (List.map fun q : String × Kind =>
      ({ name := q.1, kind := q.2, value := .zero } : Param)) hpairs
    rwa [List.map_map, List.map_map] at hmap
  have hinputs := hsockets (congrArg PortsOutline.inputs h)
  have houtputs := hsockets (congrArg PortsOutline.outputs h)
  rw [Ports.bare, Ports.bare, hinputs, houtputs, hparams]

theorem Ports.outline_bare (p : Ports) : p.bare.outline = p.outline := by
  simp [Ports.bare, Ports.outline, Function.comp_def, Socket.bare, Socket.outline,
    SocketOutline.socket, Param.bare]

namespace Node

variable {β : Type}

def bare (n : Node β) : Node β := { n.toPorts.bare with id := n.id, behavior := n.behavior }

theorem bare_congr {n n' : Node β} (hid : n'.id = n.id) (hbehavior : n'.behavior = n.behavior)
    (houtline : n'.toPorts.outline = n.toPorts.outline) : n'.bare = n.bare := by
  unfold bare
  rw [hid, hbehavior, Ports.bare_congr houtline]

end Node

namespace Graph

variable {β γ : Type}

/-! ## Views of nodes -/

/-- A view of nodes that a change of one node does not show in. -/
theorem map_mapNode {g : Graph β} {id : Nat} {f : Node β → Node β} {view : Node β → γ}
    (hf : ∀ n, g.node? id = some n → view (f n) = view n) :
    (g.mapNode id f).nodes.map view = g.nodes.map view := by
  show (g.nodes.modify id f).map view = _
  apply List.ext_getElem?
  intro i
  rw [List.getElem?_map, List.getElem?_map, List.getElem?_modify]
  cases hn : g.nodes[i]? with
  | none => rfl
  | some n =>
    by_cases hi : id = i
    · subst hi
      simp [hf n hn]
    · simp [hi]

theorem map_foldl {α : Type} {view : Node β → γ} {f : Graph β → α → Graph β}
    (hf : ∀ g a, (f g a).nodes.map view = g.nodes.map view) (xs : List α) (g : Graph β) :
    (xs.foldl f g).nodes.map view = g.nodes.map view :=
  List.foldlRecOn (motive := fun h => h.nodes.map view = g.nodes.map view) xs f rfl
    fun h hh a _ => (hf h a).trans hh

/-- A view that leaves out what the value pass writes. -/
structure Lasting [Operable β] (view : Node β → γ) : Prop where
  evaluated : ∀ n, view (evaluated n) = view n
  withInput : ∀ index value n, view (withInput index value n) = view n
  solved : ∀ n, view { n with solved := false } = view n

section Lasting

variable [Operable β] {view : Node β → γ}

theorem Lasting.transfer (h : Lasting view) (outputs : List Socket) (g : Graph β) (c : Connection) :
    (transfer outputs g c).nodes.map view = g.nodes.map view := by
  unfold Graph.transfer
  split
  · exact map_mapNode fun n _ => h.withInput _ _ n
  · rfl

theorem Lasting.solveNode (h : Lasting view) (g : Graph β) (id : Nat) :
    (solveNode g id).nodes.map view = g.nodes.map view :=
  (map_foldl (h.transfer _) _ _).trans (map_mapNode fun n _ => h.evaluated n)

/-- **The value pass** does not show in such a view. -/
theorem Lasting.solve (h : Lasting view) (g : Graph β) :
    (Graph.solve.run g).state.nodes.map view = g.nodes.map view := by
  have horder : (evaluationOrder.run g).state.nodes = g.nodes := by rw [(run_evaluationOrder g).1]
  rcases run_solve g with hs | ⟨order, hs⟩
  · rw [hs, horder]
  · have hunsolved : (evaluationOrder.run g).state.unsolved.nodes.map view =
        (evaluationOrder.run g).state.nodes.map view := by
      simp [unsolved, Function.comp_def, h.solved]
    rw [hs, map_foldl h.solveNode, hunsolved, horder]

theorem lasting_bare : Lasting (Node.bare : Node β → Node β) where
  evaluated n := Node.bare_congr rfl rfl (outline_evaluated n)
  withInput _ _ n := Node.bare_congr rfl rfl (outline_withInput _ _ n)
  solved _ := rfl

end Lasting

/-! ## Plans -/

/-- The bare nodes and the connections. -/
def plan (g : Graph β) : Graph β := { nodes := g.nodes.map Node.bare, connections := g.connections }

theorem node?_plan (g : Graph β) (id : Nat) : g.plan.node? id = (g.node? id).map Node.bare :=
  List.getElem?_map ..

theorem size_plan (g : Graph β) : g.plan.size = g.size := List.length_map ..

theorem schedule_plan (g : Graph β) : g.plan.schedule = g.schedule := schedule_congr g.size_plan rfl

/-- The order in which the nodes are visited: the one that is kept, or else the one to be found. -/
def ordering (g : Graph β) : Except GraphError (List Nat) :=
  match g.order with
  | some order => .ok order
  | none => g.schedule

theorem WellFormed.ordering_eq {g : Graph β} (h : g.WellFormed) : g.ordering = g.schedule := by
  rw [ordering]
  cases horder : g.order with
  | none => rfl
  | some kept => exact (h.cache kept horder).symm

/-- Graphs that only values can tell apart. -/
structure Alike (g' g : Graph β) : Prop where
  plan : g'.plan = g.plan
  ordering : g'.ordering = g.ordering

theorem Alike.trans {g g' g'' : Graph β} (h : Alike g'' g') (h' : Alike g' g) : Alike g'' g :=
  ⟨h.plan.trans h'.plan, h.ordering.trans h'.ordering⟩

theorem Alike.connections {g g' : Graph β} (h : Alike g' g) : g'.connections = g.connections :=
  show g'.plan.connections = g.plan.connections from congrArg _ h.plan

theorem Alike.size {g g' : Graph β} (h : Alike g' g) : g'.size = g.size := by
  rw [← g'.size_plan, h.plan, g.size_plan]

theorem alike_of_bare {g g' : Graph β} (hnodes : g'.nodes.map Node.bare = g.nodes.map Node.bare)
    (hconnections : g'.connections = g.connections) (horder : g'.order = g.order) : Alike g' g := by
  have hplan : g'.plan = g.plan := by rw [plan, plan, hnodes, hconnections]
  have hschedule : g'.schedule = g.schedule := by
    rw [← schedule_plan g', ← schedule_plan g, hplan]
  exact ⟨hplan, by rw [ordering, ordering, horder, hschedule]⟩

theorem Alike.refl (g : Graph β) : Alike g g := alike_of_bare rfl rfl rfl

theorem alike_edit {g : Graph β} {id : Nat} {f : Node β → Except GraphError (Node β)}
    (hf : ∀ n n', f n = .ok n' → n'.id = n.id ∧ n'.behavior = n.behavior ∧
      n'.toPorts.outline = n.toPorts.outline) :
    Alike ((Graph.edit id f).run g).state g := by
  rcases run_edit g id f with hsame | ⟨n, n', hn, hedit, hstate⟩
  · rw [hsame]
    exact .refl g
  · rw [hstate]
    refine alike_of_bare (map_mapNode fun m hm => ?_) rfl rfl
    have hmn : m = n := Option.some.inj (hm.symm.trans hn)
    obtain ⟨hid, hbehavior, houtline⟩ := hf n n' hedit
    exact hmn ▸ Node.bare_congr hid hbehavior houtline

theorem alike_clearChanges (g : Graph β) : Alike g.clearChanges g := by
  refine alike_of_bare ?_ rfl rfl
  simp [clearChanges, Function.comp_def, Node.bare]

theorem result_evaluationOrder (g : Graph β) : (evaluationOrder.run g).result = g.ordering :=
  (run_evaluationOrder g).2

/-- An order that has been found is the order to be found. -/
theorem alike_evaluationOrder (g : Graph β) : Alike (evaluationOrder.run g).state g := by
  rw [(run_evaluationOrder g).1]
  refine ⟨rfl, ?_⟩
  have hschedule : ∀ order, ({ g with order } : Graph β).schedule = g.schedule :=
    fun _ => schedule_congr rfl rfl
  cases hkept : g.order with
  | some order => simp [ordering, hkept]
  | none =>
    cases hfound : g.schedule with
    | ok order => simp [ordering, hkept, hfound, Except.toOption]
    | error e => simp [ordering, hkept, hfound, hschedule, Except.toOption]

theorem alike_solve [Operable β] (g : Graph β) : Alike (solve.run g).state g := by
  -- the pass works on nodes only, from where the evaluation order has left the graph
  have hsteady := steady_solve g
  have hnodes : (solve.run g).state.nodes.map Node.bare =
      (evaluationOrder.run g).state.nodes.map Node.bare := by
    rw [lasting_bare.solve, (run_evaluationOrder g).1]
  exact (alike_of_bare hnodes hsteady.connections hsteady.order).trans (alike_evaluationOrder g)

/-- The ports of an operator show in the plan. -/
theorem Standard.alike [Operable β] {g g' : Graph β} (h : g.Standard) (hg : Alike g' g) :
    g'.Standard := by
  have hbare : g'.nodes.map Node.bare = g.nodes.map Node.bare := congrArg Graph.nodes hg.plan
  intro n' hn'
  have hmem : n'.bare ∈ g.nodes.map Node.bare := hbare ▸ List.mem_map_of_mem hn'
  obtain ⟨n, hn, hsame⟩ := List.mem_map.mp hmem
  have houtline : n.toPorts.outline = n'.toPorts.outline := by
    rw [← Ports.outline_bare n.toPorts, ← Ports.outline_bare n'.toPorts]
    exact congrArg (fun m : Node β => m.toPorts.outline) hsame
  have hbehavior : n.bare.behavior = n'.bare.behavior := congrArg Node.behavior hsame
  rw [← houtline, ← show n.behavior = n'.behavior from hbehavior]
  exact h n hn

end Graph
end Texel
