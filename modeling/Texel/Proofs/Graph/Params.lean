import Texel.Proofs.Graph.Bare

/-!
# Texel — parameters have their names to themselves

A node keeps its parameters in the order of their names, and one that is declared again takes the
place of its predecessor. So no two parameters of a node ever share a name, whatever has been done
to a graph.

* **`Param.pairwise_insert`** — putting a parameter in its place.
* **`InNameOrder`** — said of a graph; only new nodes and declarations can matter to it, since
  nothing else shows in the names (**`InNameOrder.of_view`**).
* **`inNameOrder_ofOperations`** — one lemma for each operation, then induction on the history.
-/

namespace Texel

theorem Param.mem_map_name_insert {p : Param} {ps : List Param} {name : String} :
    name ∈ (insert p ps).map (·.name) ↔ name = p.name ∨ name ∈ ps.map (·.name) := by
  induction ps with
  | nil => simp [insert]
  | cons q ps ih =>
    rw [insert]
    split_ifs with hsame hless
    · rw [List.map_cons, List.map_cons, List.mem_cons, List.mem_cons, hsame, or_self_left]
    · rw [List.map_cons, List.mem_cons]
    · rw [List.map_cons, List.mem_cons, ih, List.map_cons, List.mem_cons, or_left_comm]

theorem Param.pairwise_insert {ps : List Param} (h : (ps.map (·.name)).Pairwise (· < ·))
    (p : Param) :
    ((insert p ps).map (·.name)).Pairwise (· < ·) := by
  induction ps with
  | nil => exact List.pairwise_singleton _ _
  | cons q ps ih =>
    rw [List.map_cons, List.pairwise_cons] at h
    rw [insert]
    split_ifs with hsame hless
    · -- it takes the place of the one with its name
      rw [List.map_cons, hsame]
      exact List.pairwise_cons.mpr h
    · -- it goes before all others
      refine List.pairwise_cons.mpr ⟨fun name hname => ?_, List.pairwise_cons.mpr h⟩
      rcases List.mem_cons.mp hname with rfl | hname
      · exact hless
      · exact hless.trans (h.1 name hname)
    · -- it goes somewhere behind the first
      refine List.pairwise_cons.mpr ⟨fun name hname => ?_, ih h.2⟩
      rcases mem_map_name_insert.mp hname with rfl | hname
      · exact lt_of_le_of_ne (not_lt.mp hless) (Ne.symm hsame)
      · exact h.1 name hname

/-- The names of the parameters. -/
def Ports.paramNames (p : Ports) : List String := p.params.map (·.name)

theorem Ports.paramNames_congr {p p' : Ports} (h : p'.outline = p.outline) :
    p'.paramNames = p.paramNames := by
  have hnames := congrArg (fun o : PortsOutline => o.params.map Prod.fst) h
  simpa [Ports.outline, Ports.paramNames, Function.comp_def] using hnames

/-- A new node has the parameters of its operator in order. -/
theorem Operator.pairwise_paramNames (op : Operator) : op.ports.paramNames.Pairwise (· < ·) := by
  have hfold : ∀ {α : Type} (f : Ports → α → Ports) (xs : List α) (p : Ports),
      (∀ p a, p.paramNames.Pairwise (· < ·) → (f p a).paramNames.Pairwise (· < ·)) →
      p.paramNames.Pairwise (· < ·) → (xs.foldl f p).paramNames.Pairwise (· < ·) := by
    intro α f xs p hf hp
    exact List.foldlRecOn xs f hp fun p hp a _ => hf p a hp
  refine hfold _ op.params _ (fun _ _ h => Param.pairwise_insert h _) ?_
  refine hfold _ op.outputs _ (fun _ _ h => h) ?_
  exact hfold _ op.inputs _ (fun _ _ h => h) .nil

namespace Graph

variable {β : Type} {g g' : Graph β}

/-- The parameters of every node are in the order of their names, and no two have the same. -/
def InNameOrder (g : Graph β) : Prop := ∀ n ∈ g.nodes, n.paramNames.Pairwise (· < ·)

theorem InNameOrder.of_view (h : g.InNameOrder)
    (hview : (g'.nodes.map fun n => n.paramNames) = g.nodes.map fun n => n.paramNames) :
    g'.InNameOrder := by
  intro n hn
  have hmem : n.paramNames ∈ g.nodes.map fun n => n.paramNames :=
    hview ▸ List.mem_map_of_mem (f := fun n : Node β => n.paramNames) hn
  obtain ⟨m, hm, hnames⟩ := List.mem_map.mp hmem
  exact hnames ▸ h m hm

/-! ## Single nodes -/

theorem InNameOrder.mapNode (h : g.InNameOrder) {id : Nat} {f : Node β → Node β}
    (hf : ∀ n, g.node? id = some n → (f n).paramNames = n.paramNames) :
    (g.mapNode id f).InNameOrder :=
  h.of_view (map_mapNode hf)

theorem InNameOrder.withConnections (h : g.InNameOrder) (connections : List Connection)
    (c : Connection) : (g.withConnections connections c).InNameOrder := by
  have hsource : (g.mapNode c.source (marked connections)).InNameOrder :=
    h.mapNode fun n _ => Ports.paramNames_congr (outline_marked connections n)
  exact hsource.mapNode fun n _ => Ports.paramNames_congr (outline_marked connections n)

theorem InNameOrder.edit (h : g.InNameOrder) {id : Nat} {f : Node β → Except GraphError (Node β)}
    (hf : ∀ n n', f n = .ok n' → n'.toPorts.outline = n.toPorts.outline) :
    ((Graph.edit id f).run g).state.InNameOrder := by
  rcases run_edit g id f with hrun | ⟨n, n', hn, hedit, hrun⟩
  · rw [hrun]
    exact h
  · rw [hrun]
    refine h.mapNode fun m hm => ?_
    rw [hn, Option.some_inj] at hm
    exact hm ▸ Ports.paramNames_congr (hf n n' hedit)

theorem InNameOrder.addParam (h : g.InNameOrder) (id : Nat) (name : String) (kind : Kind)
    (value : Value) : (g.addParam id name kind value).InNameOrder := by
  intro m hm
  obtain ⟨i, hi⟩ := List.getElem?_of_mem hm
  change (g.nodes.modify id _)[i]? = some m at hi
  rw [List.getElem?_modify] at hi
  obtain ⟨n, hn, rfl⟩ := Option.map_eq_some_iff.mp hi
  have hbefore := h n (List.mem_of_getElem? hn)
  split_ifs
  · exact Param.pairwise_insert hbefore _
  · exact hbefore

variable [Operable β]

theorem lasting_paramNames : Lasting (fun n : Node β => n.paramNames) where
  evaluated n := Ports.paramNames_congr (outline_evaluated n)
  withInput index value n := Ports.paramNames_congr (outline_withInput index value n)
  solved _ := rfl

/-! ## Histories -/

theorem InNameOrder.create (h : g.InNameOrder) (behavior : β) :
    (g.create behavior).InNameOrder := by
  intro m hm
  change m ∈ g.nodes ++ [_] at hm
  rcases List.mem_append.mp hm with hm | hm
  · exact h m hm
  · rw [List.mem_singleton.mp hm]
    exact (Operable.operator behavior).pairwise_paramNames

theorem InNameOrder.applyEdit (h : g.InNameOrder) (e : Edit β) : (e.apply g).InNameOrder := by
  cases e with
  | create behavior => exact h.create behavior
  | connect c =>
    show ((Graph.connect c).run g).state.InNameOrder
    rw [run_connect]
    split_ifs
    · exact h
    · exact h.withConnections _ c
  | disconnect c =>
    show ((Graph.disconnect c).run g).state.InNameOrder
    rw [run_disconnect]
    split_ifs
    · exact h.withConnections _ c
    · exact h
  | setParam id name value => exact h.edit fun _ _ hedit => (setParam_keeps hedit).2.2
  | setImage id name image path => exact h.edit fun _ _ hedit => (setImage_keeps hedit).2.2

/-- **The step.** -/
theorem InNameOrder.apply (h : g.InNameOrder) (op : Operation β) : (op.apply g).InNameOrder := by
  cases op with
  | edit e => exact h.applyEdit e
  | addInput id name kind => exact h.mapNode fun n _ => rfl
  | addOutput id name kind => exact h.mapNode fun n _ => rfl
  | addParam id name kind value => exact h.addParam id name kind value
  | setBehavior id behavior => exact h.mapNode fun n _ => rfl
  | setPosition id position => exact h.mapNode fun n _ => rfl
  | setInputValue id index value => exact h.mapNode fun n _ => rfl
  | setOutputValue id index value => exact h.mapNode fun n _ => rfl
  | clearChanged id => exact h.mapNode fun n _ => rfl
  | clearChanges => exact h.of_view (by simp [Operation.apply, clearChanges, Function.comp_def])
  | evaluationOrder =>
    show (Graph.evaluationOrder.run g).state.InNameOrder
    rw [(run_evaluationOrder g).1]
    exact h
  | solve => exact h.of_view (lasting_paramNames.solve g)

/-- **The run.** -/
theorem inNameOrder_ofOperations (operations : List (Operation β)) :
    (ofOperations operations).InNameOrder :=
  List.foldlRecOn operations Operation.apply (fun _ hn => absurd hn List.not_mem_nil)
    fun _ h op _ => h.apply op

end Graph
end Texel
