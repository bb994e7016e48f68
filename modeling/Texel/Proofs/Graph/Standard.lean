import Texel.Proofs.Graph.Schedule

/-!
# Texel — graphs with the ports of their operators

Edits never add a socket or a parameter to a node. In a graph that was made by edits alone, every
node has the ports that its operator declares, up to the values in them.

* **`Standard`** — said of a graph.
* **`standard_ofEdits`** — one lemma for each edit, then induction on the history.

Other operations may add sockets and parameters of any kind, the kind without values included, and
none is ever taken away.

* **`Valued`** — every output and every parameter of a graph has a value.
* **`hasOutputs_ofOperations`** — if operators have outputs, so have the nodes of every history.
-/

namespace Texel.Graph

variable {β : Type} [Operable β]

/-- Every node has the sockets and parameters of its operator. -/
def Standard (g : Graph β) : Prop :=
  ∀ n ∈ g.nodes, n.toPorts.outline = (Operable.operator n.behavior).ports.outline

theorem Standard.node? {g : Graph β} (h : g.Standard) {id : Nat} {n : Node β}
    (hn : g.node? id = some n) :
    n.toPorts.outline = (Operable.operator n.behavior).ports.outline :=
  h n (List.mem_of_getElem? hn)

/-- A node may be replaced by one with the same behavior and outline. -/
theorem Standard.mapNode {g : Graph β} (h : g.Standard) {id : Nat} {f : Node β → Node β}
    (hf : ∀ n, g.node? id = some n →
      (f n).behavior = n.behavior ∧ (f n).toPorts.outline = n.toPorts.outline) :
    (g.mapNode id f).Standard := by
  intro m hm
  obtain ⟨i, hi⟩ := List.getElem?_of_mem hm
  change (g.nodes.modify id f)[i]? = some m at hi
  rw [List.getElem?_modify] at hi
  obtain ⟨n, hn, hm⟩ := Option.map_eq_some_iff.mp hi
  by_cases hid : id = i
  · subst hid
    rw [if_pos rfl] at hm
    obtain ⟨hbehavior, houtline⟩ := hf n hn
    rw [← hm, houtline, hbehavior]
    exact h n (List.mem_of_getElem? hn)
  · rw [if_neg hid] at hm
    exact hm ▸ h n (List.mem_of_getElem? hn)

theorem Standard.create {g : Graph β} (h : g.Standard) (behavior : β) :
    (g.create behavior).Standard := by
  intro m hm
  change m ∈ g.nodes ++ [_] at hm
  rcases List.mem_append.mp hm with hm | hm
  · exact h m hm
  · rw [List.mem_singleton.mp hm]

theorem Standard.withConnections {g : Graph β} (h : g.Standard) (connections : List Connection)
    (c : Connection) : (g.withConnections connections c).Standard := by
  have hmarked : ∀ n : Node β, (marked connections n).behavior = n.behavior ∧
      (marked connections n).toPorts.outline = n.toPorts.outline :=
    fun n => ⟨rfl, outline_marked connections n⟩
  have hsource : (g.mapNode c.source (marked connections)).Standard :=
    h.mapNode fun n _ => hmarked n
  exact hsource.mapNode fun n _ => hmarked n

theorem Standard.edit {g : Graph β} (h : g.Standard) {id : Nat}
    {f : Node β → Except GraphError (Node β)}
    (hf : ∀ n n', f n = .ok n' → n'.id = n.id ∧ n'.behavior = n.behavior ∧
      n'.toPorts.outline = n.toPorts.outline) :
    ((Graph.edit id f).run g).state.Standard := by
  rcases run_edit g id f with hrun | ⟨n, n', hn, hedit, hrun⟩
  · rw [hrun]
    exact h
  · rw [hrun]
    refine h.mapNode fun m hm => ?_
    rw [hn, Option.some_inj] at hm
    exact hm ▸ (hf n n' hedit).2

/-- **The step.** -/
theorem Standard.apply {g : Graph β} (h : g.Standard) (e : Edit β) : (e.apply g).Standard := by
  cases e with
  | create behavior => exact h.create behavior
  | connect c =>
    show ((Graph.connect c).run g).state.Standard
    rw [run_connect]
    split_ifs
    · exact h
    · exact h.withConnections _ c
  | disconnect c =>
    show ((Graph.disconnect c).run g).state.Standard
    rw [run_disconnect]
    split_ifs
    · exact h.withConnections _ c
    · exact h
  | setParam id name value => exact h.edit fun _ _ => setParam_keeps
  | setImage id name image path => exact h.edit fun _ _ => setImage_keeps

/-- **The run.** Edits keep to the ports of the operators. -/
theorem standard_ofEdits (edits : List (Edit β)) : (ofEdits edits).Standard :=
  List.foldlRecOn edits Edit.apply (fun _ hn => nomatch hn) fun _ h e _ => h.apply e

/-! ## Outputs and their values -/

/-- Every output and every parameter is of a kind that has values. -/
def Valued (g : Graph β) : Prop :=
  ∀ n ∈ g.nodes, (∀ s ∈ n.outputs, s.kind ≠ .none) ∧ ∀ p ∈ n.params, p.kind ≠ .none

/-- Every node has an output. -/
def HasOutputs (g : Graph β) : Prop := ∀ n ∈ g.nodes, n.outputs ≠ []

omit [Operable β] in
theorem HasOutputs.grow {g g' : Graph β} (h : g.HasOutputs) (hgrow : NodesGrow g.nodes g'.nodes) :
    g'.HasOutputs := by
  intro n' hn'
  obtain ⟨i, hi⟩ := List.getElem?_of_mem hn'
  obtain ⟨n, hn, hgrows⟩ := hgrow.grows i n' hi
  have hlength : 0 < n.outputs.length := List.length_pos_of_ne_nil (h n (List.mem_of_getElem? hn))
  exact List.ne_nil_of_length_pos (hlength.trans_le hgrows.outputs_le)

theorem HasOutputs.apply {g : Graph β} (h : g.HasOutputs)
    (hoperators : ∀ b : β, (Operable.operator b).ports.outputs ≠ []) (op : Operation β) :
    (op.apply g).HasOutputs := by
  rcases op.nodesGrow g with ⟨behavior, rfl⟩ | hgrow
  · intro n hn
    obtain ⟨i, hi⟩ := List.getElem?_of_mem hn
    rcases node_of_create hi with hold | ⟨_, _, hports⟩
    · exact h n (List.mem_of_getElem? hold)
    · rw [hports]
      exact hoperators behavior
  · exact h.grow hgrow

/-- Sockets are never taken away. -/
theorem hasOutputs_ofOperations (hoperators : ∀ b : β, (Operable.operator b).ports.outputs ≠ [])
    (operations : List (Operation β)) : (ofOperations operations).HasOutputs :=
  List.foldlRecOn operations Operation.apply (fun _ hn => absurd hn List.not_mem_nil)
    fun _ h op _ => h.apply hoperators op

end Texel.Graph
