import Texel.Graph.Edit
import Texel.Graph.Propagate
import Mathlib

/-!
# Texel — histories of graphs

A graph comes from the empty graph by a history of operations. This module lists the operations and
proves what every graph with a history has in common.

* **`Edit`** and **`Operation`** — what can be done to a graph. An edit leaves the sockets and the
  parameters of a node as its operator declares them; an operation may also add some.
* **`Ports.outline`** — indices, names and kinds, without values and marks. All edits of values
  keep it, so what is proved of outlines need not look at them.
* **`WellFormed`** — ids and indices count up, connections end at sockets, an input takes at most
  one connection, and a kept evaluation order is the one that would be computed now.
* **`wellFormed_ofOperations`** — every history leads to a well-formed graph: one lemma for each
  operation, then induction on the history.
-/

namespace Texel

/-! ## Outlines -/

/-- What identifies a socket. -/
structure SocketOutline where
  index : Nat
  name : String
  kind : Kind
deriving DecidableEq, Repr

/-- What identifies the sockets and the parameters of a node. -/
structure PortsOutline where
  inputs : List SocketOutline
  outputs : List SocketOutline
  params : List (String × Kind)
deriving DecidableEq, Repr

def Socket.outline (s : Socket) : SocketOutline := ⟨s.index, s.name, s.kind⟩

def Ports.outline (p : Ports) : PortsOutline :=
  ⟨p.inputs.map (·.outline), p.outputs.map (·.outline), p.params.map fun q => (q.name, q.kind)⟩

/-- The sockets are numbered by their place. -/
def Numbered (sockets : List Socket) : Prop :=
  sockets.map (·.index) = List.range sockets.length

theorem Numbered.of_outline {xs ys : List Socket}
    (h : ys.map (·.outline) = xs.map (·.outline)) (hx : Numbered xs) : Numbered ys := by
  have hlen : ys.length = xs.length := by simpa using congrArg List.length h
  have hindex : ys.map (·.index) = xs.map (·.index) := by
    have := congrArg (List.map SocketOutline.index) h
    simpa [Function.comp_def, Socket.outline] using this
  rw [Numbered, hindex, hlen]
  exact hx

theorem Numbered.concat {xs : List Socket} (hx : Numbered xs) {s : Socket}
    (hs : s.index = xs.length) : Numbered (xs ++ [s]) := by
  rw [Numbered, List.map_append, hx, List.length_append]
  simp [List.range_succ, hs]

namespace Node

variable {β : Type}

/-- Sockets may be added to a node, its id stays. -/
structure GrowsTo (n n' : Node β) : Prop where
  id : n'.id = n.id
  inputs_le : n.inputs.length ≤ n'.inputs.length
  outputs_le : n.outputs.length ≤ n'.outputs.length
  inputs_numbered : Numbered n.inputs → Numbered n'.inputs
  outputs_numbered : Numbered n.outputs → Numbered n'.outputs

/-- A node with the same id and the same outline has grown by nothing. -/
theorem GrowsTo.of_outline {n n' : Node β} (hid : n'.id = n.id)
    (h : n'.toPorts.outline = n.toPorts.outline) : n.GrowsTo n' := by
  have hin : n'.inputs.map (·.outline) = n.inputs.map (·.outline) :=
    congrArg PortsOutline.inputs h
  have hout : n'.outputs.map (·.outline) = n.outputs.map (·.outline) :=
    congrArg PortsOutline.outputs h
  have hilen : n'.inputs.length = n.inputs.length := by simpa using congrArg List.length hin
  have holen : n'.outputs.length = n.outputs.length := by simpa using congrArg List.length hout
  exact ⟨hid, hilen.ge, holen.ge, .of_outline hin, .of_outline hout⟩

theorem GrowsTo.refl (n : Node β) : n.GrowsTo n := .of_outline rfl rfl

theorem GrowsTo.trans {a b c : Node β} (hab : a.GrowsTo b) (hbc : b.GrowsTo c) : a.GrowsTo c where
  id := hbc.id.trans hab.id
  inputs_le := hab.inputs_le.trans hbc.inputs_le
  outputs_le := hab.outputs_le.trans hbc.outputs_le
  inputs_numbered h := hbc.inputs_numbered (hab.inputs_numbered h)
  outputs_numbered h := hbc.outputs_numbered (hab.outputs_numbered h)

end Node

/-! ## Operations -/

namespace Graph

variable {β : Type}

/-- An edit of a graph that keeps to the sockets and parameters of its operators. -/
inductive Edit (β : Type)
  | create (behavior : β)
  | connect (c : Connection)
  | disconnect (c : Connection)
  | setParam (id : Nat) (name : String) (value : Value)
  | setImage (id : Nat) (name : String) (image : Option Image) (path : Option String)

/-- Anything that can be done to a graph. -/
inductive Operation (β : Type)
  | edit (e : Edit β)
  | addInput (id : Nat) (name : String) (kind : Kind)
  | addOutput (id : Nat) (name : String) (kind : Kind)
  | addParam (id : Nat) (name : String) (kind : Kind) (value : Value)
  | setBehavior (id : Nat) (behavior : β)
  | setPosition (id : Nat) (position : Single × Single)
  | setInputValue (id index : Nat) (value : Value)
  | setOutputValue (id index : Nat) (value : Value)
  | clearChanged (id : Nat)
  | clearChanges
  | evaluationOrder
  | solve

/-- The graph after an edit. A refused edit leaves what it has done until then, which is nothing. -/
def Edit.apply [Operable β] (g : Graph β) : Edit β → Graph β
  | .create behavior => g.create behavior
  | .connect c => ((Graph.connect c).run g).state
  | .disconnect c => ((Graph.disconnect c).run g).state
  | .setParam id name value => ((Graph.setParam id name value).run g).state
  | .setImage id name image path => ((Graph.setImage id name image path).run g).state

def Operation.apply [Operable β] (g : Graph β) : Operation β → Graph β
  | .edit e => e.apply g
  | .addInput id name kind => g.addInput id name kind
  | .addOutput id name kind => g.addOutput id name kind
  | .addParam id name kind value => g.addParam id name kind value
  | .setBehavior id behavior => g.setBehavior id behavior
  | .setPosition id position => g.setPosition id position
  | .setInputValue id index value => g.setInputValue id index value
  | .setOutputValue id index value => g.setOutputValue id index value
  | .clearChanged id => g.clearChanged id
  | .clearChanges => g.clearChanges
  | .evaluationOrder => (Graph.evaluationOrder.run g).state
  | .solve => (Graph.solve.run g).state

/-- The graph that a list of edits makes of the empty graph. -/
def ofEdits [Operable β] (edits : List (Edit β)) : Graph β := edits.foldl Edit.apply {}

/-- The graph that a history of operations makes of the empty graph. -/
def ofOperations [Operable β] (operations : List (Operation β)) : Graph β :=
  operations.foldl Operation.apply {}

/-- Edits are operations. -/
theorem ofEdits_eq_ofOperations [Operable β] (edits : List (Edit β)) :
    ofEdits edits = ofOperations (edits.map .edit) := by
  rw [ofEdits, ofOperations, List.foldl_map]
  rfl

/-! ## What each operation does -/

section Runs

theorem run_connect (g : Graph β) (c : Connection) :
    ((connect c).run g).state =
      if (g.refusal? c).isSome then g else g.withConnections (g.connections ++ [c]) c := by
  cases h : g.refusal? c with
  | none =>
    simp only [connect, Action.run, bind, Action.bind, Action.state, h]
    rfl
  | some e =>
    simp only [connect, Action.run, bind, Action.bind, Action.state, h]
    rfl

theorem run_disconnect (g : Graph β) (c : Connection) :
    ((disconnect c).run g).state =
      if c ∈ g.connections then g.withConnections (g.connections.erase c) c else g := by
  by_cases h : c ∈ g.connections
  · have hc : g.connections.contains c = true := by simpa using h
    simp only [disconnect, Action.run, bind, Action.bind, Action.state, hc, if_true, h]
    rfl
  · have hc : g.connections.contains c = false := by simpa using h
    simp only [disconnect, Action.run, bind, Action.bind, Action.state, hc, h, if_false]
    rfl

/-- An edit of a node changes that node only, and only if it succeeds. -/
theorem run_edit (g : Graph β) (id : Nat) (f : Node β → Except GraphError (Node β)) :
    ((edit id f).run g).state = g ∨
      ∃ n n', g.node? id = some n ∧ f n = .ok n' ∧
        ((edit id f).run g).state = g.mapNode id fun _ => n' := by
  cases hn : g.node? id with
  | none =>
    left
    simp only [edit, Action.run, bind, Action.bind, Action.state, hn]
    rfl
  | some n =>
    cases hf : f n with
    | error e =>
      left
      simp only [edit, Action.run, bind, Action.bind, Action.state, hn, Action.ofOption,
        Action.ofExcept, hf]
    | ok n' =>
      right
      refine ⟨n, n', rfl, hf, ?_⟩
      simp only [edit, Action.run, bind, Action.bind, Action.state, hn, Action.ofOption,
        Action.ofExcept, hf]
      rfl

/-- Asking for the evaluation order may keep it, and does nothing else. -/
theorem run_evaluationOrder (g : Graph β) :
    (evaluationOrder.run g).state =
      { g with order := g.order.or g.schedule.toOption } ∧
    (evaluationOrder.run g).result = (match g.order with
      | some order => .ok order
      | none => g.schedule) := by
  cases ho : g.order with
  | some order =>
    constructor
    · simp only [evaluationOrder, Action.run, bind, Action.bind, Action.state, ho]
      cases g
      simp_all [pure, Action.pure]
    · simp only [evaluationOrder, Action.run, bind, Action.bind, Action.state, ho]
      rfl
  | none =>
    cases hs : g.schedule with
    | error e =>
      constructor
      · simp only [evaluationOrder, Action.run, bind, Action.bind, Action.state, ho, hs,
          Action.ofExcept]
        cases g
        simp_all [Except.toOption]
      · simp only [evaluationOrder, Action.run, bind, Action.bind, Action.state, ho, hs,
          Action.ofExcept]
    | ok order =>
      constructor
      · simp only [evaluationOrder, Action.run, bind, Action.bind, Action.state, ho, hs,
          Action.ofExcept]
        rfl
      · simp only [evaluationOrder, Action.run, bind, Action.bind, Action.state, ho, hs,
          Action.ofExcept]
        rfl

end Runs

/-! ## The evaluation order depends on the connections alone -/

theorem schedule_congr {g g' : Graph β} (hsize : g'.size = g.size)
    (hconn : g'.connections = g.connections) : g'.schedule = g.schedule := by
  have hin : g'.inDegrees = g.inDegrees := by rw [inDegrees, inDegrees, hsize, hconn]
  have hsucc : g'.successors = g.successors := by
    funext id
    rw [successors, successors, hconn]
  have htake : ∀ n w, g'.take n w = g.take n w := by
    intro n
    induction n with
    | zero => intro w; rfl
    | succ n ih =>
      intro w
      unfold take
      rw [hsucc]
      cases w.ready with
      | nil => rfl
      | cons id ready => simp only [ih]
  have hinit : g'.initialWaiting = g.initialWaiting := by
    rw [initialWaiting, initialWaiting, hin, hsize]
  rw [schedule, schedule, hinit, hsize, htake]

/-! ## Well-formed graphs -/

/-- What every graph with a history satisfies. -/
structure WellFormed (g : Graph β) : Prop where
  /-- The id of a node is its place. -/
  ids : ∀ (i : Nat) (n : Node β), g.nodes[i]? = some n → n.id = i
  inputs_numbered : ∀ (i : Nat) (n : Node β), g.nodes[i]? = some n → Numbered n.inputs
  outputs_numbered : ∀ (i : Nat) (n : Node β), g.nodes[i]? = some n → Numbered n.outputs
  /-- Every connection leaves an output. -/
  leaves : ∀ c ∈ g.connections, ∃ n, g.nodes[c.source]? = some n ∧ c.output < n.outputs.length
  /-- Every connection enters an input. -/
  enters : ∀ c ∈ g.connections, ∃ n, g.nodes[c.destination]? = some n ∧ c.input < n.inputs.length
  /-- No two connections enter the same input. -/
  single : g.connections.Pairwise fun c d => ¬ (c.destination = d.destination ∧ c.input = d.input)
  /-- An evaluation order that is kept is up to date. -/
  cache : ∀ order, g.order = some order → g.schedule = .ok order

theorem wellFormed_empty : WellFormed ({} : Graph β) where
  ids := by simp
  inputs_numbered := by simp
  outputs_numbered := by simp
  leaves := by simp
  enters := by simp
  single := by simp
  cache := by simp

/-- Nodes may grow, and none comes or goes. -/
structure NodesGrow (ns ns' : List (Node β)) : Prop where
  length : ns'.length = ns.length
  grows : ∀ (i : Nat) (n' : Node β), ns'[i]? = some n' → ∃ n, ns[i]? = some n ∧ n.GrowsTo n'

theorem NodesGrow.refl (ns : List (Node β)) : NodesGrow ns ns :=
  ⟨rfl, fun _ n' h => ⟨n', h, .refl n'⟩⟩

theorem NodesGrow.trans {a b c : List (Node β)} (hab : NodesGrow a b) (hbc : NodesGrow b c) :
    NodesGrow a c where
  length := hbc.length.trans hab.length
  grows := by
    intro i n'' h
    obtain ⟨n', hn', hgrow'⟩ := hbc.grows i n'' h
    obtain ⟨n, hn, hgrow⟩ := hab.grows i n' hn'
    exact ⟨n, hn, hgrow.trans hgrow'⟩

theorem NodesGrow.modify {ns : List (Node β)} {id : Nat} {f : Node β → Node β}
    (hf : ∀ n, ns[id]? = some n → n.GrowsTo (f n)) : NodesGrow ns (ns.modify id f) where
  length := List.length_modify ..
  grows := by
    intro i n' h
    rw [List.getElem?_modify] at h
    obtain ⟨n, hn, hn'⟩ := Option.map_eq_some_iff.mp h
    refine ⟨n, hn, ?_⟩
    by_cases hi : id = i
    · subst hi
      rw [if_pos rfl] at hn'
      exact hn' ▸ hf n hn
    · rw [if_neg hi] at hn'
      exact hn' ▸ .refl n

theorem NodesGrow.map {ns : List (Node β)} {f : Node β → Node β}
    (hf : ∀ n : Node β, n.GrowsTo (f n)) :
    NodesGrow ns (ns.map f) where
  length := List.length_map ..
  grows := by
    intro i n' h
    rw [List.getElem?_map] at h
    obtain ⟨n, hn, rfl⟩ := Option.map_eq_some_iff.mp h
    exact ⟨n, hn, hf n⟩

/-- In the other direction: a node is still there after growing. -/
theorem NodesGrow.exists_of_getElem? {ns ns' : List (Node β)} (h : NodesGrow ns ns') {i : Nat}
    {n : Node β} (hn : ns[i]? = some n) : ∃ n', ns'[i]? = some n' ∧ n.GrowsTo n' := by
  have hi : i < ns'.length := by
    rw [h.length]
    exact (List.getElem?_eq_some_iff.mp hn).1
  obtain ⟨m, hm, hgrow⟩ := h.grows i ns'[i] (List.getElem?_eq_getElem hi)
  rw [hn] at hm
  cases hm
  exact ⟨ns'[i], List.getElem?_eq_getElem hi, hgrow⟩

/-- Growing nodes keep a graph well formed, as long as its connections do. -/
theorem WellFormed.of_nodesGrow {g g' : Graph β} (h : g.WellFormed)
    (hgrow : NodesGrow g.nodes g'.nodes)
    (hleaves : ∀ c ∈ g'.connections, ∃ n, g.nodes[c.source]? = some n ∧ c.output < n.outputs.length)
    (henters : ∀ c ∈ g'.connections,
      ∃ n, g.nodes[c.destination]? = some n ∧ c.input < n.inputs.length)
    (hsingle : g'.connections.Pairwise fun c d =>
      ¬ (c.destination = d.destination ∧ c.input = d.input))
    (hcache : ∀ order, g'.order = some order → g'.schedule = .ok order) : g'.WellFormed where
  ids := by
    intro i n' hn'
    obtain ⟨n, hn, hg⟩ := hgrow.grows i n' hn'
    rw [hg.id, h.ids i n hn]
  inputs_numbered := by
    intro i n' hn'
    obtain ⟨n, hn, hg⟩ := hgrow.grows i n' hn'
    exact hg.inputs_numbered (h.inputs_numbered i n hn)
  outputs_numbered := by
    intro i n' hn'
    obtain ⟨n, hn, hg⟩ := hgrow.grows i n' hn'
    exact hg.outputs_numbered (h.outputs_numbered i n hn)
  leaves := by
    intro c hc
    obtain ⟨n, hn, hlt⟩ := hleaves c hc
    obtain ⟨n', hn', hg⟩ := hgrow.exists_of_getElem? hn
    exact ⟨n', hn', lt_of_lt_of_le hlt hg.outputs_le⟩
  enters := by
    intro c hc
    obtain ⟨n, hn, hlt⟩ := henters c hc
    obtain ⟨n', hn', hg⟩ := hgrow.exists_of_getElem? hn
    exact ⟨n', hn', lt_of_lt_of_le hlt hg.inputs_le⟩
  single := hsingle
  cache := hcache

/-- Growing nodes alone keep a graph well formed. -/
theorem WellFormed.grow {g g' : Graph β} (h : g.WellFormed) (hgrow : NodesGrow g.nodes g'.nodes)
    (hconn : g'.connections = g.connections)
    (horder : ∀ order, g'.order = some order → g.schedule = .ok order) : g'.WellFormed := by
  refine h.of_nodesGrow hgrow (hconn ▸ h.leaves) (hconn ▸ h.enters) (hconn ▸ h.single) ?_
  intro order ho
  rw [schedule_congr hgrow.length hconn]
  exact horder order ho

/-! ## What keeps an outline -/

theorem outline_mapIdx {xs : List Socket} {f : Nat → Socket → Socket}
    (hf : ∀ i s, (f i s).outline = s.outline) :
    (xs.mapIdx f).map (·.outline) = xs.map (·.outline) := by
  apply List.ext_getElem?
  intro i
  simp only [List.getElem?_map, List.getElem?_mapIdx, Option.map_map]
  cases xs[i]? with
  | none => rfl
  | some s => exact congrArg some (hf i s)

theorem outline_modify {xs : List Socket} (index : Nat) {f : Socket → Socket}
    (hf : ∀ s, (f s).outline = s.outline) :
    (xs.modify index f).map (·.outline) = xs.map (·.outline) := by
  apply List.ext_getElem?
  intro i
  simp only [List.getElem?_map, List.getElem?_modify]
  cases xs[i]? with
  | none => rfl
  | some s =>
    by_cases hi : index = i
    · simp [hi, hf]
    · simp [hi]

theorem outline_marked (connections : List Connection) (n : Node β) :
    (marked connections n).toPorts.outline = n.toPorts.outline := by
  have hin : (marked connections n).inputs.map (·.outline) = n.inputs.map (·.outline) :=
    outline_mapIdx fun _ _ => rfl
  have hout : (marked connections n).outputs.map (·.outline) = n.outputs.map (·.outline) :=
    outline_mapIdx fun _ _ => rfl
  rw [Ports.outline, hin, hout]
  rfl

theorem outline_evaluated [Operable β] (n : Node β) :
    (evaluated n).toPorts.outline = n.toPorts.outline := by
  have hout : (evaluated n).outputs.map (·.outline) = n.outputs.map (·.outline) := by
    refine outline_mapIdx fun i s => ?_
    cases (Operable.operator n.behavior).evaluate n.toPorts i with
    | none => rfl
    | some value => rfl
  rw [Ports.outline, hout]
  rfl

theorem outline_withOutput (index : Nat) (value : Value) (n : Node β) :
    ({ n with
        outputs := n.outputs.modify index fun s => { s with value } } : Node β).toPorts.outline =
      n.toPorts.outline := by
  have hout : (n.outputs.modify index fun s => { s with value }).map (·.outline)
      = n.outputs.map (·.outline) := outline_modify index fun _ => rfl
  rw [Ports.outline, hout]
  rfl

theorem outline_withInput (index : Nat) (value : Value) (n : Node β) :
    (withInput index value n).toPorts.outline = n.toPorts.outline := by
  have hin : (withInput index value n).inputs.map (·.outline) = n.inputs.map (·.outline) :=
    outline_modify index fun _ => rfl
  rw [Ports.outline, hin]
  rfl

/-- A parameter may take another value, not another name or kind. -/
theorem outline_mapParam (p : Ports) (name : String) {f : Param → Param}
    (hf : ∀ q, (f q).name = q.name ∧ (f q).kind = q.kind) :
    (p.mapParam name f).outline = p.outline := by
  have hparams : ((p.mapParam name f).params.map fun q => (q.name, q.kind))
      = p.params.map fun q => (q.name, q.kind) := by
    rw [Ports.mapParam, List.map_map]
    apply List.map_congr_left
    intro q _
    by_cases hq : q.name = name
    · simp [hq, (hf q).1, (hf q).2]
    · simp [hq]
  rw [Ports.outline, hparams]
  rfl

/-- What a successful edit of a parameter does to a node. -/
theorem editParam_keeps {n n' : Node β} {name : String} {f : Param → Param}
    (hf : ∀ q, (f q).name = q.name ∧ (f q).kind = q.kind) (h : n.editParam name f = .ok n') :
    n'.id = n.id ∧ n'.behavior = n.behavior ∧ n'.toPorts.outline = n.toPorts.outline := by
  unfold Node.editParam at h
  split at h
  · cases h
    exact ⟨rfl, rfl, outline_mapParam n.toPorts name hf⟩
  · cases h

theorem setParam_keeps {n n' : Node β} {name : String} {value : Value}
    (h : n.setParam name value = .ok n') :
    n'.id = n.id ∧ n'.behavior = n.behavior ∧ n'.toPorts.outline = n.toPorts.outline :=
  editParam_keeps (f := fun p => { p with value }) (fun _ => ⟨rfl, rfl⟩) h

theorem setImage_keeps {n n' : Node β} {name : String} {image : Option Image}
    {path : Option String} (h : n.setImage name image path = .ok n') :
    n'.id = n.id ∧ n'.behavior = n.behavior ∧ n'.toPorts.outline = n.toPorts.outline :=
  editParam_keeps (f := fun p => { p with image, path }) (fun _ => ⟨rfl, rfl⟩) h

/-! ## Every operation keeps a graph well formed -/

theorem numbered_ports (op : Operator) :
    Numbered op.ports.inputs ∧ Numbered op.ports.outputs := by
  have hfold : ∀ {α : Type} (f : Ports → α → Ports) (xs : List α) (p : Ports),
      (∀ p a, Numbered p.inputs ∧ Numbered p.outputs →
        Numbered (f p a).inputs ∧ Numbered (f p a).outputs) →
      Numbered p.inputs ∧ Numbered p.outputs →
      Numbered (xs.foldl f p).inputs ∧ Numbered (xs.foldl f p).outputs := by
    intro α f xs p hf hp
    exact List.foldlRecOn xs f hp fun p hp a _ => hf p a hp
  refine hfold _ op.params _ (fun _ _ h => h) ?_
  refine hfold _ op.outputs _ (fun _ _ h => ⟨h.1, h.2.concat rfl⟩) ?_
  exact hfold _ op.inputs _ (fun _ _ h => ⟨h.1.concat rfl, h.2⟩) ⟨rfl, rfl⟩

/-- A new node comes behind the others, and its id is their number. -/
theorem node_of_create [Operable β] {g : Graph β} {behavior : β} {i : Nat} {n : Node β}
    (hn : (g.create behavior).nodes[i]? = some n) :
    g.nodes[i]? = some n ∨
      (i = g.size ∧ n.id = i ∧ n.toPorts = (Operable.operator behavior).ports) := by
  simp only [Graph.create] at hn
  rcases Nat.lt_trichotomy i g.nodes.length with hi | hi | hi
  · rw [List.getElem?_append_left hi] at hn
    exact Or.inl hn
  · subst hi
    rw [List.getElem?_concat_length] at hn
    cases hn
    exact Or.inr ⟨rfl, rfl, rfl⟩
  · rw [List.getElem?_eq_none (by simp; omega)] at hn
    cases hn

theorem node_create [Operable β] {g : Graph β} {i : Nat} {n : Node β} (hn : g.nodes[i]? = some n)
    (behavior : β) : (g.create behavior).nodes[i]? = some n := by
  have hi : i < g.nodes.length := (List.getElem?_eq_some_iff.mp hn).1
  simp only [Graph.create]
  rw [List.getElem?_append_left hi]
  exact hn

theorem WellFormed.create [Operable β] {g : Graph β} (h : g.WellFormed) (behavior : β) :
    (g.create behavior).WellFormed := by
  refine ⟨?_, ?_, ?_, ?_, ?_, h.single, ?_⟩
  · intro i n hn
    rcases node_of_create hn with hn | ⟨_, hid, _⟩
    · exact h.ids i n hn
    · exact hid
  · intro i n hn
    rcases node_of_create hn with hn | ⟨_, _, hports⟩
    · exact h.inputs_numbered i n hn
    · rw [hports]
      exact (numbered_ports _).1
  · intro i n hn
    rcases node_of_create hn with hn | ⟨_, _, hports⟩
    · exact h.outputs_numbered i n hn
    · rw [hports]
      exact (numbered_ports _).2
  · intro c hc
    obtain ⟨n, hn, hlt⟩ := h.leaves c hc
    exact ⟨n, node_create hn behavior, hlt⟩
  · intro c hc
    obtain ⟨n, hn, hlt⟩ := h.enters c hc
    exact ⟨n, node_create hn behavior, hlt⟩
  · intro order ho
    simp [Graph.create] at ho

/-- What holds when a connection is not refused. -/
theorem accepts_of_refusal? {g : Graph β} {c : Connection} (h : g.refusal? c = none) :
    (∃ n, g.nodes[c.source]? = some n ∧ c.output < n.outputs.length) ∧
    (∃ n, g.nodes[c.destination]? = some n ∧ c.input < n.inputs.length) ∧
    g.feeding? c.destination c.input = none := by
  unfold refusal? at h
  split_ifs at h with h1 h2 h3 h4 h5
  obtain ⟨src, hsrc⟩ :=
    Option.isSome_iff_exists.mp (Option.isSome_iff_ne_none.mpr (by simpa using h1))
  obtain ⟨dst, hdst⟩ :=
    Option.isSome_iff_exists.mp (Option.isSome_iff_ne_none.mpr (by simpa using h3))
  refine ⟨⟨src, hsrc, ?_⟩, ⟨dst, hdst, ?_⟩, by simpa using h5⟩
  · simpa [output?, hsrc] using h2
  · simpa [input?, hdst] using h4

theorem nodesGrow_withConnections (g : Graph β) (cs : List Connection) (c : Connection) :
    NodesGrow g.nodes (g.withConnections cs c).nodes := by
  have hmark : ∀ n : Node β, n.GrowsTo (marked cs n) := fun n =>
    .of_outline rfl (outline_marked cs n)
  exact (NodesGrow.modify fun n _ => hmark n).trans (.modify fun n _ => hmark n)

theorem WellFormed.withConnections {g : Graph β} (h : g.WellFormed) (cs : List Connection)
    (c : Connection)
    (hleaves : ∀ d ∈ cs, ∃ n, g.nodes[d.source]? = some n ∧ d.output < n.outputs.length)
    (henters : ∀ d ∈ cs, ∃ n, g.nodes[d.destination]? = some n ∧ d.input < n.inputs.length)
    (hsingle : cs.Pairwise fun c d => ¬ (c.destination = d.destination ∧ c.input = d.input)) :
    (g.withConnections cs c).WellFormed := by
  refine h.of_nodesGrow (nodesGrow_withConnections g cs c) hleaves henters hsingle ?_
  intro order ho
  simp [Graph.withConnections] at ho

theorem WellFormed.connect {g : Graph β} (h : g.WellFormed) (c : Connection) :
    ((Graph.connect c).run g).state.WellFormed := by
  rw [run_connect]
  cases hr : g.refusal? c with
  | some e => simpa using h
  | none =>
    obtain ⟨hleaves, henters, hfree⟩ := accepts_of_refusal? hr
    rw [if_neg (by simp)]
    refine h.withConnections _ c ?_ ?_ ?_
    · intro d hd
      rcases List.mem_append.mp hd with hd | hd
      · exact h.leaves d hd
      · rw [List.mem_singleton.mp hd]
        exact hleaves
    · intro d hd
      rcases List.mem_append.mp hd with hd | hd
      · exact h.enters d hd
      · rw [List.mem_singleton.mp hd]
        exact henters
    · -- the new connection shares its input with none of the others
      refine List.pairwise_append.mpr ⟨h.single, List.pairwise_singleton .., ?_⟩
      intro a ha b hb
      rw [List.mem_singleton.mp hb]
      have := List.find?_eq_none.mp hfree a ha
      simpa using this

theorem WellFormed.disconnect {g : Graph β} (h : g.WellFormed) (c : Connection) :
    ((Graph.disconnect c).run g).state.WellFormed := by
  rw [run_disconnect]
  split
  · have hsub : List.Sublist (g.connections.erase c) g.connections := List.erase_sublist
    exact h.withConnections _ c (fun d hd => h.leaves d (hsub.subset hd))
      (fun d hd => h.enters d (hsub.subset hd)) (h.single.sublist hsub)
  · exact h

/-- An edit of one node keeps a graph well formed if the node grows. -/
theorem WellFormed.mapNode {g : Graph β} (h : g.WellFormed) {id : Nat} {f : Node β → Node β}
    (hf : ∀ n, g.nodes[id]? = some n → n.GrowsTo (f n)) : (g.mapNode id f).WellFormed :=
  h.grow (.modify hf) rfl h.cache

/-- An order that is kept is the one that would be found now. -/
def Fresh (g : Graph β) : Prop := ∀ order, g.order = some order → g.schedule = .ok order

/-- With a fresh order, asking for it comes down to computing it: the answer is the same, and what
is kept afterwards is the answer, if it is an order. -/
theorem Fresh.asked {g : Graph β} (h : g.Fresh) :
    (evaluationOrder.run g).result = g.schedule ∧
      (evaluationOrder.run g).state = { g with order := g.schedule.toOption } := by
  obtain ⟨hstate, hresult⟩ := run_evaluationOrder g
  rw [hstate, hresult]
  cases hkept : g.order with
  | none => exact ⟨rfl, rfl⟩
  | some order =>
    rw [h order hkept]
    exact ⟨rfl, rfl⟩

theorem Fresh.evaluationOrder {g : Graph β} (h : g.Fresh) :
    (Graph.evaluationOrder.run g).state.Fresh := by
  rw [h.asked.2]
  intro order horder
  have hschedule : ({ g with order := g.schedule.toOption } : Graph β).schedule = g.schedule :=
    schedule_congr rfl rfl
  rw [hschedule]
  cases hfound : g.schedule with
  | error e => rw [hfound] at horder; cases horder
  | ok found =>
    rw [hfound] at horder
    exact congrArg Except.ok (Option.some.inj horder)

theorem WellFormed.evaluationOrder {g : Graph β} (h : g.WellFormed) :
    (Graph.evaluationOrder.run g).state.WellFormed := by
  have hfresh : (Graph.evaluationOrder.run g).state.Fresh := Fresh.evaluationOrder h.cache
  rw [(run_evaluationOrder g).1] at hfresh ⊢
  have hschedule : ({ g with order := g.order.or g.schedule.toOption } : Graph β).schedule =
      g.schedule := schedule_congr rfl rfl
  exact h.grow (.refl _) rfl fun order ho => hschedule.symm.trans (hfresh order ho)

/-- Only nodes have changed, and they have at most grown. -/
structure Steady (g g' : Graph β) : Prop where
  nodes : NodesGrow g.nodes g'.nodes
  connections : g'.connections = g.connections
  order : g'.order = g.order

theorem Steady.refl (g : Graph β) : Steady g g := ⟨.refl _, rfl, rfl⟩

theorem Steady.trans {a b c : Graph β} (hab : Steady a b) (hbc : Steady b c) : Steady a c :=
  ⟨hab.nodes.trans hbc.nodes, hbc.connections.trans hab.connections, hbc.order.trans hab.order⟩

theorem Steady.foldl {α : Type} {f : Graph β → α → Graph β} (hf : ∀ g a, Steady g (f g a))
    (xs : List α) (g : Graph β) : Steady g (xs.foldl f g) := by
  induction xs generalizing g with
  | nil => exact .refl g
  | cons x xs ih => exact (hf g x).trans (ih (f g x))

theorem Steady.mapNode {g : Graph β} {id : Nat} {f : Node β → Node β}
    (hf : ∀ n : Node β, n.GrowsTo (f n)) : Steady g (g.mapNode id f) :=
  ⟨.modify fun n _ => hf n, rfl, rfl⟩

theorem steady_edit {g : Graph β} {id : Nat} {f : Node β → Except GraphError (Node β)}
    (hf : ∀ n n', f n = .ok n' →
      n'.id = n.id ∧ n'.behavior = n.behavior ∧ n'.toPorts.outline = n.toPorts.outline) :
    Steady g ((Graph.edit id f).run g).state := by
  rcases run_edit g id f with hsame | ⟨n, n', hn, hfn, hstate⟩
  · rw [hsame]
    exact .refl g
  · rw [hstate]
    refine ⟨.modify fun m hm => ?_, rfl, rfl⟩
    have hmn : m = n := Option.some.inj (hm.symm.trans hn)
    obtain ⟨hid, _, hout⟩ := hf n n' hfn
    exact hmn ▸ .of_outline hid hout

theorem steady_transfer (outputs : List Socket) (g : Graph β) (c : Connection) :
    Steady g (transfer outputs g c) := by
  unfold transfer
  split
  · exact .mapNode fun n => .of_outline rfl (outline_withInput _ _ n)
  · exact .refl g

theorem steady_solveNode [Operable β] (g : Graph β) (id : Nat) : Steady g (solveNode g id) := by
  have hevaluated : Steady g (g.mapNode id evaluated) :=
    .mapNode fun n => .of_outline rfl (outline_evaluated n)
  exact hevaluated.trans (.foldl (steady_transfer _) _ _)

theorem WellFormed.steady {g g' : Graph β} (h : g.WellFormed) (hs : Steady g g') :
    g'.WellFormed :=
  h.grow hs.nodes hs.connections fun order ho => h.cache order (hs.order ▸ ho)

theorem WellFormed.edit {g : Graph β} (h : g.WellFormed) {id : Nat}
    {f : Node β → Except GraphError (Node β)}
    (hf : ∀ n n', f n = .ok n' →
      n'.id = n.id ∧ n'.behavior = n.behavior ∧ n'.toPorts.outline = n.toPorts.outline) :
    ((Graph.edit id f).run g).state.WellFormed :=
  h.steady (steady_edit hf)

theorem run_solve [Operable β] (g : Graph β) :
    (Graph.solve.run g).state = (Graph.evaluationOrder.run g).state ∨
      ∃ order : List Nat, (Graph.solve.run g).state
        = order.foldl solveNode (Graph.evaluationOrder.run g).state.unsolved := by
  simp only [Graph.solve, Action.run, bind, Action.bind]
  split
  · next order s events hrun =>
    right
    rw [hrun]
    exact ⟨order, rfl⟩
  · next e s events hrun =>
    left
    rw [hrun]

/-- The value pass asks for the order, and then works on nodes only. -/
theorem steady_solve [Operable β] (g : Graph β) :
    Steady (Graph.evaluationOrder.run g).state (Graph.solve.run g).state := by
  rcases run_solve g with hs | ⟨order, hs⟩
  · rw [hs]
    exact .refl _
  · rw [hs]
    have hunsolved : Steady (Graph.evaluationOrder.run g).state
        (Graph.evaluationOrder.run g).state.unsolved :=
      ⟨.map fun n => .of_outline rfl rfl, rfl, rfl⟩
    exact hunsolved.trans (.foldl steady_solveNode _ _)

theorem WellFormed.solve [Operable β] {g : Graph β} (h : g.WellFormed) :
    (Graph.solve.run g).state.WellFormed :=
  h.evaluationOrder.steady (steady_solve g)

/-- Most operations let nodes grow and do nothing else. -/
theorem Operation.steady [Operable β] (g : Graph β) (op : Operation β) :
    Steady g (op.apply g) ∨ op = .evaluationOrder ∨ op = .solve ∨ ∃ e, op = .edit e := by
  cases op with
  | edit e => exact Or.inr (Or.inr (Or.inr ⟨e, rfl⟩))
  | evaluationOrder => exact Or.inr (Or.inl rfl)
  | solve => exact Or.inr (Or.inr (Or.inl rfl))
  | addInput id name kind =>
    left
    refine .mapNode fun n => ?_
    exact ⟨rfl, by simp [Ports.addInput], le_rfl, fun hn => hn.concat rfl, fun hn => hn⟩
  | addOutput id name kind =>
    left
    refine .mapNode fun n => ?_
    exact ⟨rfl, le_rfl, by simp [Ports.addOutput], fun hn => hn, fun hn => hn.concat rfl⟩
  | addParam id name kind value =>
    left
    exact .mapNode fun n => ⟨rfl, le_rfl, le_rfl, fun hn => hn, fun hn => hn⟩
  | setInputValue id index value =>
    left
    exact .mapNode fun n => .of_outline rfl (outline_withInput index value n)
  | setOutputValue id index value =>
    left
    exact .mapNode fun n => .of_outline rfl (outline_withOutput index value n)
  | setBehavior id behavior => exact Or.inl (.mapNode fun n => .of_outline rfl rfl)
  | setPosition id position => exact Or.inl (.mapNode fun n => .of_outline rfl rfl)
  | clearChanged id => exact Or.inl (.mapNode fun n => .of_outline rfl rfl)
  | clearChanges => exact Or.inl ⟨.map fun n => .of_outline rfl rfl, rfl, rfl⟩

theorem WellFormed.applyEdit [Operable β] {g : Graph β} (h : g.WellFormed) (e : Edit β) :
    (e.apply g).WellFormed := by
  cases e with
  | create behavior => exact h.create behavior
  | connect c => exact h.connect c
  | disconnect c => exact h.disconnect c
  | setParam id name value => exact h.edit fun _ _ => setParam_keeps
  | setImage id name image path => exact h.edit fun _ _ => setImage_keeps

/-- **The step.** Whatever is done to a well-formed graph leaves it well formed. -/
theorem WellFormed.apply [Operable β] {g : Graph β} (h : g.WellFormed) (op : Operation β) :
    (op.apply g).WellFormed := by
  rcases op.steady g with hsteady | rfl | rfl | ⟨e, rfl⟩
  · exact h.steady hsteady
  · exact h.evaluationOrder
  · exact h.solve
  · exact h.applyEdit e

/-- An edit makes a new node, or else nodes grow. -/
theorem Edit.nodesGrow [Operable β] (g : Graph β) (e : Edit β) :
    (∃ behavior, e = .create behavior) ∨ NodesGrow g.nodes (e.apply g).nodes := by
  cases e with
  | create behavior => exact Or.inl ⟨behavior, rfl⟩
  | connect c =>
    right
    show NodesGrow g.nodes ((Graph.connect c).run g).state.nodes
    rw [run_connect]
    split_ifs
    · exact .refl _
    · exact nodesGrow_withConnections g _ c
  | disconnect c =>
    right
    show NodesGrow g.nodes ((Graph.disconnect c).run g).state.nodes
    rw [run_disconnect]
    split_ifs
    · exact nodesGrow_withConnections g _ c
    · exact .refl _
  | setParam id name value => exact Or.inr (steady_edit fun _ _ => setParam_keeps).nodes
  | setImage id name image path => exact Or.inr (steady_edit fun _ _ => setImage_keeps).nodes

theorem Operation.nodesGrow [Operable β] (g : Graph β) (op : Operation β) :
    (∃ behavior, op = .edit (.create behavior)) ∨ NodesGrow g.nodes (op.apply g).nodes := by
  rcases op.steady g with hsteady | rfl | rfl | ⟨e, rfl⟩
  · exact Or.inr hsteady.nodes
  · right
    show NodesGrow g.nodes (Graph.evaluationOrder.run g).state.nodes
    rw [(run_evaluationOrder g).1]
    exact .refl _
  · right
    have hsolve := (steady_solve g).nodes
    rw [(run_evaluationOrder g).1] at hsolve
    exact hsolve
  · rcases e.nodesGrow g with ⟨behavior, rfl⟩ | hgrow
    · exact Or.inl ⟨behavior, rfl⟩
    · exact Or.inr hgrow

/-- **The run.** Every history leads to a well-formed graph. -/
theorem wellFormed_ofOperations [Operable β] (operations : List (Operation β)) :
    (ofOperations operations).WellFormed :=
  List.foldlRecOn operations Operation.apply wellFormed_empty fun _ h op _ => h.apply op

theorem wellFormed_ofEdits [Operable β] (edits : List (Edit β)) : (ofEdits edits).WellFormed := by
  rw [ofEdits_eq_ofOperations]
  exact wellFormed_ofOperations _

end Graph
end Texel
