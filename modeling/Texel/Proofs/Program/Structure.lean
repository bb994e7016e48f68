import Texel.Builtin
import Texel.Proofs.Graph.Marks
import Texel.Proofs.Program.Values

/-!
# Texel — programs come from structure

What a user builds is the **structure** of a graph: which operators there are, the names and kinds
of their ports, and the connections. Everything else about a graph is either determined by its
structure, such as ids, indices and the evaluation order, or does not enter programs, such as
values, images, positions and marks.

* **`Graph.SameStructure`** — two graphs that were built alike.
* **`Graph.SameStructure.alike`** — graphs with histories that were built alike are alike.
* **`Graph.Operation.KeepsStructure`** — the operations that build nothing.
* **`Program.generate_of_structure`** — the program of a graph is determined by its structure, and
  no sequence of operations that build nothing changes it.
-/

namespace Texel

/-! ## What is built -/

def Socket.port (s : Socket) : String × Kind := (s.name, s.kind)

/-- The structure of a node: its behavior, and the names and kinds of its ports. The parameters
stand in the order of their names. -/
structure Skeleton (β : Type) where
  behavior : β
  inputs : List (String × Kind)
  outputs : List (String × Kind)
  params : List (String × Kind)
deriving DecidableEq, Repr

def Node.skeleton {β : Type} (n : Node β) : Skeleton β where
  behavior := n.behavior
  inputs := n.inputs.map (·.port)
  outputs := n.outputs.map (·.port)
  params := n.params.map fun p => (p.name, p.kind)

/-- Names, kinds and places give the outlines of sockets. -/
theorem Numbered.outline_of_port {xs ys : List Socket} (hx : Numbered xs) (hy : Numbered ys)
    (h : ys.map (·.port) = xs.map (·.port)) : ys.map (·.outline) = xs.map (·.outline) := by
  apply List.ext_getElem?
  intro i
  have hport : (ys.map (·.port))[i]? = (xs.map (·.port))[i]? := by rw [h]
  rw [List.getElem?_map, List.getElem?_map] at hport ⊢
  cases hxs : xs[i]? with
  | none =>
    rw [hxs] at hport
    rw [Option.map_eq_none_iff.mp hport]
  | some x =>
    rw [hxs] at hport
    obtain ⟨y, hys, hyx⟩ := Option.map_eq_some_iff.mp hport
    -- both stand at the same place, so they have the same index
    have hindex : y.index = x.index :=
      (Graph.index_of_numbered hy hys).trans (Graph.index_of_numbered hx hxs).symm
    have hname : y.name = x.name := congrArg Prod.fst hyx
    have hkind : y.kind = x.kind := congrArg Prod.snd hyx
    rw [hys]
    show some y.outline = some x.outline
    rw [Socket.outline, Socket.outline, hindex, hname, hkind]

namespace Graph

variable {β : Type}

/-- The two graphs were built alike. -/
structure SameStructure (g' g : Graph β) : Prop where
  nodes : g'.nodes.map Node.skeleton = g.nodes.map Node.skeleton
  connections : g'.connections = g.connections

instance [DecidableEq β] (g' g : Graph β) : Decidable (SameStructure g' g) :=
  decidable_of_iff (g'.nodes.map Node.skeleton = g.nodes.map Node.skeleton ∧
    g'.connections = g.connections) ⟨fun h => ⟨h.1, h.2⟩, fun h => ⟨h.nodes, h.connections⟩⟩

theorem SameStructure.bare {g g' : Graph β} (h : SameStructure g' g) (hg : g.WellFormed)
    (hg' : g'.WellFormed) : g'.nodes.map Node.bare = g.nodes.map Node.bare := by
  apply List.ext_getElem?
  intro i
  have hskeleton : (g'.nodes.map Node.skeleton)[i]? = (g.nodes.map Node.skeleton)[i]? := by
    rw [h.nodes]
  rw [List.getElem?_map, List.getElem?_map] at hskeleton ⊢
  cases hn : g.nodes[i]? with
  | none =>
    rw [hn] at hskeleton
    rw [Option.map_eq_none_iff.mp hskeleton]
  | some n =>
    rw [hn] at hskeleton
    obtain ⟨n', hn', hsame⟩ := Option.map_eq_some_iff.mp hskeleton
    -- ids and indices are places, and the rest of the outline is in the skeleton
    have hid : n'.id = n.id := (hg'.ids i n' hn').trans (hg.ids i n hn).symm
    have hinputs : n'.inputs.map (·.outline) = n.inputs.map (·.outline) :=
      (hg.inputs_numbered i n hn).outline_of_port (hg'.inputs_numbered i n' hn')
        (congrArg Skeleton.inputs hsame)
    have houtputs : n'.outputs.map (·.outline) = n.outputs.map (·.outline) :=
      (hg.outputs_numbered i n hn).outline_of_port (hg'.outputs_numbered i n' hn')
        (congrArg Skeleton.outputs hsame)
    have hparams :
        (n'.params.map fun p => (p.name, p.kind)) = n.params.map fun p => (p.name, p.kind) :=
      congrArg Skeleton.params hsame
    have houtline : n'.toPorts.outline = n.toPorts.outline := by
      rw [Ports.outline, Ports.outline, hinputs, houtputs, hparams]
    rw [hn', Option.map_some, Option.map_some,
      Node.bare_congr hid (congrArg Skeleton.behavior hsame) houtline]

/-- **Built alike is alike.** Only a graph without a history could tell them apart, by ids that are
no places or by a kept order that is out of date. -/
theorem SameStructure.alike {g g' : Graph β} (h : SameStructure g' g) (hg : g.WellFormed)
    (hg' : g'.WellFormed) : Alike g' g := by
  have hplan : g'.plan = g.plan := by rw [plan, plan, h.bare hg hg', h.connections]
  have hschedule : g'.schedule = g.schedule := by
    rw [← schedule_plan g', ← schedule_plan g, hplan]
  exact ⟨hplan, by rw [hg.ordering_eq, hg'.ordering_eq, hschedule]⟩

/-! ## Operations that build nothing -/

/-- The operation sets values, images, positions or marks, or visits the nodes. -/
inductive Operation.KeepsStructure : (op : Operation β) → Prop
  | setParam (id : Nat) (name : String) (value : Value) :
    KeepsStructure (.edit (.setParam id name value))
  | setImage (id : Nat) (name : String) (image : Option Image) (path : Option String) :
    KeepsStructure (.edit (.setImage id name image path))
  | setPosition (id : Nat) (position : Single × Single) : KeepsStructure (.setPosition id position)
  | setInputValue (id index : Nat) (value : Value) : KeepsStructure (.setInputValue id index value)
  | setOutputValue (id index : Nat) (value : Value) :
    KeepsStructure (.setOutputValue id index value)
  | clearChanged (id : Nat) : KeepsStructure (.clearChanged id)
  | clearChanges : KeepsStructure .clearChanges
  | evaluationOrder : KeepsStructure .evaluationOrder
  | solve : KeepsStructure .solve

variable [Operable β]

/-- **The step.** -/
theorem Operation.KeepsStructure.alike {op : Operation β} (h : op.KeepsStructure) (g : Graph β) :
    Alike (op.apply g) g := by
  cases h with
  | setParam id name value => exact alike_edit fun _ _ => setParam_keeps
  | setImage id name image path => exact alike_edit fun _ _ => setImage_keeps
  | setPosition id position =>
    exact alike_of_bare (map_mapNode fun n _ => Node.bare_congr rfl rfl rfl) rfl rfl
  | setInputValue id index value =>
    exact alike_of_bare
      (map_mapNode fun n _ => Node.bare_congr rfl rfl (outline_withInput index value n)) rfl rfl
  | setOutputValue id index value =>
    exact alike_of_bare
      (map_mapNode fun n _ => Node.bare_congr rfl rfl (outline_withOutput index value n)) rfl rfl
  | clearChanged id =>
    exact alike_of_bare (map_mapNode fun n _ => Node.bare_congr rfl rfl rfl) rfl rfl
  | clearChanges => exact alike_clearChanges g
  | evaluationOrder => exact alike_evaluationOrder g
  | solve => exact alike_solve g

/-- **The run.** -/
theorem alike_ofOperations_append (operations : List (Operation β)) {more : List (Operation β)}
    (h : ∀ op ∈ more, op.KeepsStructure) :
    Alike (ofOperations (operations ++ more)) (ofOperations operations) := by
  rw [ofOperations, List.foldl_append]
  refine List.foldlRecOn (motive := fun g => Alike g (ofOperations operations)) more _
    (.refl _) fun g hg op hop => ?_
  exact ((h op hop).alike g).trans hg

end Graph

/-! ## Programs -/

namespace Program

variable {β : Type} [Operable β]

/-- **Programs come from structure.** Whatever two graphs have been through, if they are built
alike, generation answers alike, be it with a program or with an error. Operations that build
nothing may follow in any number. -/
theorem generate_of_structure (operations operations' : List (Graph.Operation β)) :
    (Graph.SameStructure (.ofOperations operations') (.ofOperations operations) →
      (generate.run (.ofOperations operations')).result =
        (generate.run (.ofOperations operations)).result) ∧
    ∀ more : List (Graph.Operation β), (∀ op ∈ more, op.KeepsStructure) →
      (generate.run (.ofOperations (operations ++ more))).result =
        (generate.run (.ofOperations operations)).result := by
  constructor
  · intro h
    exact generate_congr (h.alike (Graph.wellFormed_ofOperations operations)
      (Graph.wellFormed_ofOperations operations'))
  · intro more hmore
    exact generate_congr (Graph.alike_ofOperations_append operations hmore)

/-- The slope of an image. -/
def mural : List (Graph.Operation Builtin) :=
  [.edit (.create .imageInput), .edit (.create .heightGradient), .edit (.create .output),
    .edit (.connect ⟨0, 0, 1, 0⟩), .edit (.connect ⟨1, 0, 2, 0⟩)]

/-- The same, with a detour, a value pass, a kept order, an image, a position and other marks. -/
def rehungMural : List (Graph.Operation Builtin) :=
  [.edit (.create .imageInput), .edit (.create .heightGradient), .edit (.create .output),
    .edit (.connect ⟨0, 0, 2, 0⟩), .solve, .edit (.disconnect ⟨0, 0, 2, 0⟩),
    .edit (.connect ⟨0, 0, 1, 0⟩), .edit (.connect ⟨1, 0, 2, 0⟩), .evaluationOrder,
    .edit (.setImage 0 "Image" none (some "mural.png")), .setPosition 1 (0, 1), .clearChanges]

theorem generate_rehungMural :
    Graph.SameStructure (.ofOperations rehungMural) (.ofOperations mural) ∧
    (generate.run (.ofOperations rehungMural)).result =
      (generate.run (.ofOperations mural)).result ∧
    (generate.run (.ofOperations (mural ++ [.edit (.setImage 0 "Image" none none), .solve,
      .clearChanges]))).result = (generate.run (.ofOperations mural)).result := by
  have hsame : Graph.SameStructure (.ofOperations rehungMural) (.ofOperations mural) := by
    decide +kernel
  have hmore : ∀ op ∈ [.edit (.setImage 0 "Image" none none), .solve, .clearChanges],
      (op : Graph.Operation Builtin).KeepsStructure := by
    intro op hop
    simp only [List.mem_cons, List.not_mem_nil, or_false] at hop
    rcases hop with rfl | rfl | rfl
    · exact .setImage 0 "Image" none none
    · exact .solve
    · exact .clearChanges
  have hprogram := generate_of_structure mural rehungMural
  exact ⟨hsame, hprogram.1 hsame, hprogram.2 _ hmore⟩

end Program
end Texel
