import Texel.Proofs.Graph.History

/-!
# Texel — marks of connected sockets

A socket carries a mark that says whether a connection is attached to it. Edits of connections set
the marks of two nodes only, and sockets may be added to a node that is connected already, so that
the marks are right everywhere is a fact about whole histories.

* **`isMarked`** — the mark at a place of a list of sockets; places behind the end count as
  unmarked, so a new socket changes nothing.
* **`Marked`** — a place is marked exactly if a connection is attached there.
* **`marked_ofOperations`** — the marks are right after every history: a lemma for edits of nodes,
  one for edits of connections, then induction.
* **`consistent_ofOperations`** — ids, indices, ends of connections and marks together.
-/

namespace Texel

/-! ## Marks of a list of sockets -/

def isMarked (sockets : List Socket) (k : Nat) : Bool := (sockets[k]?.map (·.connected)).getD false

theorem isMarked_of_getElem? {sockets : List Socket} {k : Nat} {s : Socket}
    (h : sockets[k]? = some s) : isMarked sockets k = s.connected := by
  rw [isMarked, h]
  rfl

/-- A socket starts without a mark, where there was none before. -/
theorem isMarked_concat {sockets : List Socket} {s : Socket} (hs : s.connected = false) :
    isMarked (sockets ++ [s]) = isMarked sockets := by
  funext k
  unfold isMarked
  rcases Nat.lt_trichotomy k sockets.length with hk | hk | hk
  · rw [List.getElem?_append_left hk]
  · subst hk
    rw [List.getElem?_concat_length, List.getElem?_eq_none (Nat.le_refl _)]
    exact hs
  · rw [List.getElem?_eq_none (by simp; omega), List.getElem?_eq_none (by omega)]

theorem isMarked_modify {sockets : List Socket} (index : Nat) {f : Socket → Socket}
    (hf : ∀ s, (f s).connected = s.connected) :
    isMarked (sockets.modify index f) = isMarked sockets := by
  funext k
  unfold isMarked
  rw [List.getElem?_modify, Option.map_eq_map, Option.map_map]
  congr 2
  funext s
  by_cases hk : index = k
  · simp [hk, hf]
  · simp [hk]

theorem isMarked_mapIdx {sockets : List Socket} {f : Nat → Socket → Socket}
    (hf : ∀ i s, (f i s).connected = s.connected) :
    isMarked (sockets.mapIdx f) = isMarked sockets := by
  funext k
  unfold isMarked
  rw [List.getElem?_mapIdx, Option.map_map]
  congr 2
  funext s
  exact hf k s

/-- Marks that are set anew reach as far as there are sockets. -/
theorem isMarked_mapIdx_set {sockets : List Socket} (mark : Nat → Bool) (k : Nat) :
    isMarked (sockets.mapIdx fun i s => { s with connected := mark i }) k = true ↔
      k < sockets.length ∧ mark k = true := by
  unfold isMarked
  rw [List.getElem?_mapIdx]
  by_cases hk : k < sockets.length
  · simp [hk]
  · simp [hk]

namespace Graph

variable {β : Type}

/-! ## Marks of a graph -/

/-- The places of a node are marked exactly where connections are attached. -/
structure NodeMarked (connections : List Connection) (i : Nat) (n : Node β) : Prop where
  inputs : ∀ k, isMarked n.inputs k = true ↔ ∃ c ∈ connections, c.destination = i ∧ c.input = k
  outputs : ∀ k, isMarked n.outputs k = true ↔ ∃ c ∈ connections, c.source = i ∧ c.output = k

def Marked (g : Graph β) : Prop :=
  ∀ (i : Nat) (n : Node β), g.nodes[i]? = some n → NodeMarked g.connections i n

theorem marked_empty : Marked ({} : Graph β) := by
  intro i n hn
  simp at hn

/-! ## Edits of nodes -/

/-- Whatever else may have changed, the marks have not. -/
def SameMarks (n n' : Node β) : Prop :=
  isMarked n'.inputs = isMarked n.inputs ∧ isMarked n'.outputs = isMarked n.outputs

theorem NodeMarked.of_sameMarks {connections : List Connection} {i : Nat} {n n' : Node β}
    (h : NodeMarked connections i n) (hsame : SameMarks n n') : NodeMarked connections i n' where
  inputs k := by rw [hsame.1, h.inputs k]
  outputs k := by rw [hsame.2, h.outputs k]

theorem Marked.mapNode {g : Graph β} (h : g.Marked) {id : Nat} {f : Node β → Node β}
    (hf : ∀ n, g.nodes[id]? = some n → SameMarks n (f n)) : (g.mapNode id f).Marked := by
  intro i n' hn'
  change (g.nodes.modify id f)[i]? = some n' at hn'
  rw [List.getElem?_modify] at hn'
  obtain ⟨n, hn, hn'⟩ := Option.map_eq_some_iff.mp hn'
  by_cases hid : id = i
  · subst hid
    rw [if_pos rfl] at hn'
    exact (h id n hn).of_sameMarks (hn' ▸ hf n hn)
  · rw [if_neg hid] at hn'
    exact hn' ▸ h i n hn

/-- An edit of every node at once. -/
theorem Marked.mapAll {g : Graph β} (h : g.Marked) {f : Node β → Node β}
    (hf : ∀ n, SameMarks n (f n)) : ({ g with nodes := g.nodes.map f } : Graph β).Marked := by
  intro i n' hn'
  change (g.nodes.map f)[i]? = some n' at hn'
  rw [List.getElem?_map] at hn'
  obtain ⟨n, hn, rfl⟩ := Option.map_eq_some_iff.mp hn'
  exact (h i n hn).of_sameMarks (hf n)

theorem editParam_sameMarks {n n' : Node β} {name : String} {f : Param → Param}
    (h : n.editParam name f = .ok n') : SameMarks n n' := by
  unfold Node.editParam at h
  split at h
  · cases h
    exact ⟨rfl, rfl⟩
  · cases h

theorem Marked.edit {g : Graph β} (h : g.Marked) {id : Nat}
    {f : Node β → Except GraphError (Node β)} (hf : ∀ n n', f n = .ok n' → SameMarks n n') :
    ((Graph.edit id f).run g).state.Marked := by
  rcases run_edit g id f with hsame | ⟨n, n', hn, hedit, hstate⟩
  · rwa [hsame]
  · rw [hstate]
    refine h.mapNode fun m hm => ?_
    have hmn : m = n := Option.some.inj (hm.symm.trans hn)
    exact hmn ▸ hf n n' hedit

/-- No socket is marked. -/
def Unmarked (p : Ports) : Prop :=
  (∀ k, isMarked p.inputs k = false) ∧ ∀ k, isMarked p.outputs k = false

theorem unmarked_ports (op : Operator) : Unmarked op.ports := by
  refine List.foldlRecOn (motive := Unmarked) op.params _
    (List.foldlRecOn (motive := Unmarked) op.outputs _
      (List.foldlRecOn (motive := Unmarked) op.inputs _ ⟨fun _ => rfl, fun _ => rfl⟩ ?inputs)
        ?outputs)
    fun _ hp _ _ => hp
  case inputs =>
    intro p hp s _
    exact ⟨fun k => (congrFun (isMarked_concat rfl) k).trans (hp.1 k), hp.2⟩
  case outputs =>
    intro p hp s _
    exact ⟨hp.1, fun k => (congrFun (isMarked_concat rfl) k).trans (hp.2 k)⟩

theorem Marked.create [Operable β] {g : Graph β} (h : g.Marked) (hwell : g.WellFormed)
    (behavior : β) : (g.create behavior).Marked := by
  intro i n hn
  rcases node_of_create hn with hn | ⟨hi, _, hports⟩
  · exact h i n hn
  · -- connections end at older nodes
    have hnone : ∀ c ∈ g.connections, c.source ≠ i ∧ c.destination ≠ i := by
      intro c hc
      obtain ⟨_, hsource, _⟩ := hwell.leaves c hc
      obtain ⟨_, hdestination, _⟩ := hwell.enters c hc
      have hs := (List.getElem?_eq_some_iff.mp hsource).1
      have hd := (List.getElem?_eq_some_iff.mp hdestination).1
      have hsize : i = g.nodes.length := hi
      constructor <;> omega
    have hunmarked := unmarked_ports (Operable.operator behavior)
    rw [← hports] at hunmarked
    refine ⟨fun k => ?_, fun k => ?_⟩
    · rw [hunmarked.1 k]
      simp only [Bool.false_eq_true, false_iff, not_exists, not_and]
      exact fun c hc hd _ => (hnone c hc).2 hd
    · rw [hunmarked.2 k]
      simp only [Bool.false_eq_true, false_iff, not_exists, not_and]
      exact fun c hc hs _ => (hnone c hc).1 hs

/-! ## Edits of connections -/

/-- Setting the marks of a node anew makes them right, as long as connections end at sockets. -/
theorem nodeMarked_marked {connections : List Connection} {i : Nat} {n : Node β} (hid : n.id = i)
    (hinputs : ∀ c ∈ connections, c.destination = i → c.input < n.inputs.length)
    (houtputs : ∀ c ∈ connections, c.source = i → c.output < n.outputs.length) :
    NodeMarked connections i (marked connections n) where
  inputs k := by
    simp only [marked, isMarked_mapIdx_set, hid, List.any_eq_true, decide_eq_true_eq]
    constructor
    · exact fun h => h.2
    · rintro ⟨c, hc, hd, rfl⟩
      exact ⟨hinputs c hc hd, c, hc, hd, rfl⟩
  outputs k := by
    simp only [marked, isMarked_mapIdx_set, hid, List.any_eq_true, decide_eq_true_eq]
    constructor
    · exact fun h => h.2
    · rintro ⟨c, hc, hs, rfl⟩
      exact ⟨houtputs c hc hs, c, hc, hs, rfl⟩

/-- A node keeps its marks when the connections at it stay the same. -/
theorem NodeMarked.of_attached {connections connections' : List Connection} {i : Nat} {n : Node β}
    (h : NodeMarked connections i n)
    (hsame : ∀ c, c.source = i ∨ c.destination = i → (c ∈ connections' ↔ c ∈ connections)) :
    NodeMarked connections' i n where
  inputs k := by
    rw [h.inputs k]
    refine exists_congr fun c => and_congr_left fun hc => ?_
    exact (hsame c (Or.inr hc.1)).symm
  outputs k := by
    rw [h.outputs k]
    refine exists_congr fun c => and_congr_left fun hc => ?_
    exact (hsame c (Or.inl hc.1)).symm

/-- Marks that are set anew do not depend on those from before. -/
theorem marked_marked (connections connections' : List Connection) (n : Node β) :
    marked connections (marked connections' n) = marked connections n := by
  simp [marked, List.mapIdx_mapIdx, Function.comp_def]

/-- The nodes after an edit of the connections: both ends of `c` have new marks. -/
theorem node_withConnections {g : Graph β} {cs : List Connection} {c : Connection} {i : Nat}
    {n' : Node β} (hn' : (g.withConnections cs c).nodes[i]? = some n') :
    ∃ n, g.nodes[i]? = some n ∧
      n' = if c.source = i ∨ c.destination = i then marked cs n else n := by
  change ((g.nodes.modify c.source (marked cs)).modify c.destination (marked cs))[i]? =
    some n' at hn'
  rw [List.getElem?_modify, List.getElem?_modify, Option.map_eq_map, Option.map_eq_map,
    Option.map_map] at hn'
  obtain ⟨n, hn, rfl⟩ := Option.map_eq_some_iff.mp hn'
  refine ⟨n, hn, ?_⟩
  by_cases hs : c.source = i <;> by_cases hd : c.destination = i
  · simp [hs, hd, marked_marked]
  · simp [hs, hd]
  · simp [hs, hd]
  · simp [hs, hd]

theorem Marked.withConnections {g : Graph β} (h : g.Marked) (hwell : g.WellFormed)
    {cs : List Connection} {c : Connection}
    (hleaves : ∀ d ∈ cs, ∃ n, g.nodes[d.source]? = some n ∧ d.output < n.outputs.length)
    (henters : ∀ d ∈ cs, ∃ n, g.nodes[d.destination]? = some n ∧ d.input < n.inputs.length)
    (hother : ∀ d, d ≠ c → (d ∈ cs ↔ d ∈ g.connections)) : (g.withConnections cs c).Marked := by
  intro i n' hn'
  obtain ⟨n, hn, rfl⟩ := node_withConnections hn'
  show NodeMarked cs i _
  split_ifs with hend
  · refine nodeMarked_marked (hwell.ids i n hn) (fun d hd hdi => ?_) fun d hd hdi => ?_
    · obtain ⟨m, hm, hlt⟩ := henters d hd
      rw [hdi, hn] at hm
      cases hm
      exact hlt
    · obtain ⟨m, hm, hlt⟩ := hleaves d hd
      rw [hdi, hn] at hm
      cases hm
      exact hlt
  · -- `c` is not attached here, and it is the only connection that came or went
    refine (h i n hn).of_attached fun d hd => hother d ?_
    rintro rfl
    exact hend hd

theorem Marked.connect {g : Graph β} (h : g.Marked) (hwell : g.WellFormed) (c : Connection) :
    ((Graph.connect c).run g).state.Marked := by
  rw [run_connect]
  cases hr : g.refusal? c with
  | some e => simpa using h
  | none =>
    obtain ⟨hleaves, henters, _⟩ := accepts_of_refusal? hr
    rw [if_neg (by simp)]
    refine h.withConnections hwell ?_ ?_ fun d hd => by simp [hd]
    · intro d hd
      rcases List.mem_append.mp hd with hd | hd
      · exact hwell.leaves d hd
      · exact List.mem_singleton.mp hd ▸ hleaves
    · intro d hd
      rcases List.mem_append.mp hd with hd | hd
      · exact hwell.enters d hd
      · exact List.mem_singleton.mp hd ▸ henters

theorem Marked.disconnect {g : Graph β} (h : g.Marked) (hwell : g.WellFormed) (c : Connection) :
    ((Graph.disconnect c).run g).state.Marked := by
  rw [run_disconnect]
  split
  · exact h.withConnections hwell (fun d hd => hwell.leaves d (List.mem_of_mem_erase hd))
      (fun d hd => hwell.enters d (List.mem_of_mem_erase hd)) fun d hd => List.mem_erase_of_ne hd
  · exact h

/-! ## The value pass -/

theorem marked_transfer {g : Graph β} (h : g.Marked) (outputs : List Socket) (c : Connection) :
    (transfer outputs g c).Marked := by
  unfold transfer
  split
  · exact h.mapNode fun n _ => ⟨isMarked_modify _ fun _ => rfl, rfl⟩
  · exact h

theorem evaluated_sameMarks [Operable β] (n : Node β) : SameMarks n (evaluated n) := by
  refine ⟨rfl, isMarked_mapIdx fun i s => ?_⟩
  cases (Operable.operator n.behavior).evaluate n.toPorts i with
  | none => rfl
  | some value => rfl

theorem marked_solveNode [Operable β] {g : Graph β} (h : g.Marked) (id : Nat) :
    (solveNode g id).Marked := by
  have hevaluated : (g.mapNode id evaluated).Marked := h.mapNode fun n _ => evaluated_sameMarks n
  exact List.foldlRecOn _ _ hevaluated fun g hg c _ => marked_transfer hg _ c

theorem Marked.evaluationOrder {g : Graph β} (h : g.Marked) :
    (Graph.evaluationOrder.run g).state.Marked := by
  rw [(run_evaluationOrder g).1]
  exact h

theorem Marked.solve [Operable β] {g : Graph β} (h : g.Marked) :
    (Graph.solve.run g).state.Marked := by
  rcases run_solve g with hs | ⟨order, hs⟩
  · rw [hs]
    exact h.evaluationOrder
  · rw [hs]
    have hunsolved : (Graph.evaluationOrder.run g).state.unsolved.Marked :=
      h.evaluationOrder.mapAll fun _ => ⟨rfl, rfl⟩
    exact List.foldlRecOn order solveNode hunsolved fun _ hg id _ => marked_solveNode hg id

/-! ## Histories -/

theorem Marked.applyEdit [Operable β] {g : Graph β} (h : g.Marked) (hwell : g.WellFormed)
    (e : Edit β) : (e.apply g).Marked := by
  cases e with
  | create behavior => exact h.create hwell behavior
  | connect c => exact h.connect hwell c
  | disconnect c => exact h.disconnect hwell c
  | setParam id name value => exact h.edit fun _ _ => editParam_sameMarks
  | setImage id name image path => exact h.edit fun _ _ => editParam_sameMarks

/-- **The step.** -/
theorem Marked.apply [Operable β] {g : Graph β} (h : g.Marked) (hwell : g.WellFormed)
    (op : Operation β) : (op.apply g).Marked := by
  cases op with
  | edit e => exact h.applyEdit hwell e
  | addInput id name kind => exact h.mapNode fun n _ => ⟨isMarked_concat rfl, rfl⟩
  | addOutput id name kind => exact h.mapNode fun n _ => ⟨rfl, isMarked_concat rfl⟩
  | addParam id name kind value => exact h.mapNode fun n _ => ⟨rfl, rfl⟩
  | setBehavior id behavior => exact h.mapNode fun n _ => ⟨rfl, rfl⟩
  | setPosition id position => exact h.mapNode fun n _ => ⟨rfl, rfl⟩
  | setInputValue id index value =>
    exact h.mapNode fun n _ => ⟨isMarked_modify _ fun _ => rfl, rfl⟩
  | setOutputValue id index value =>
    exact h.mapNode fun n _ => ⟨rfl, isMarked_modify _ fun _ => rfl⟩
  | clearChanged id => exact h.mapNode fun n _ => ⟨rfl, rfl⟩
  | clearChanges => exact h.mapAll fun n => ⟨rfl, rfl⟩
  | evaluationOrder => exact h.evaluationOrder
  | solve => exact h.solve

/-- **The run.** The marks need a well-formed graph at every step, so both are kept together. -/
theorem marked_ofOperations [Operable β] (operations : List (Operation β)) :
    (ofOperations operations).Marked := by
  have hboth : (ofOperations operations).WellFormed ∧ (ofOperations operations).Marked := by
    refine List.foldlRecOn (motive := fun g => g.WellFormed ∧ g.Marked) operations Operation.apply
      ⟨wellFormed_empty, marked_empty⟩ ?_
    exact fun g h op _ => ⟨h.1.apply op, h.2.apply h.1 op⟩
  exact hboth.2

/-! ## Consistency -/

/-- What can be relied on in the data of a graph. -/
structure Consistent (g : Graph β) : Prop where
  id_eq : ∀ (i : Nat) (n : Node β), g.nodes[i]? = some n → n.id = i
  input_index : ∀ (i : Nat) (n : Node β), g.nodes[i]? = some n →
    ∀ (k : Nat) (s : Socket), n.inputs[k]? = some s → s.index = k
  output_index : ∀ (i : Nat) (n : Node β), g.nodes[i]? = some n →
    ∀ (k : Nat) (s : Socket), n.outputs[k]? = some s → s.index = k
  leaves : ∀ c ∈ g.connections, ∃ n, g.nodes[c.source]? = some n ∧ c.output < n.outputs.length
  enters : ∀ c ∈ g.connections, ∃ n, g.nodes[c.destination]? = some n ∧ c.input < n.inputs.length
  /-- No two connections enter the same input. -/
  single : g.connections.Pairwise fun c d => ¬ (c.destination = d.destination ∧ c.input = d.input)
  input_connected : ∀ (i : Nat) (n : Node β), g.nodes[i]? = some n →
    ∀ (k : Nat) (s : Socket), n.inputs[k]? = some s →
      (s.connected = true ↔ ∃ c ∈ g.connections, c.destination = i ∧ c.input = k)
  output_connected : ∀ (i : Nat) (n : Node β), g.nodes[i]? = some n →
    ∀ (k : Nat) (s : Socket), n.outputs[k]? = some s →
      (s.connected = true ↔ ∃ c ∈ g.connections, c.source = i ∧ c.output = k)

theorem index_of_numbered {sockets : List Socket} (h : Numbered sockets) {k : Nat} {s : Socket}
    (hs : sockets[k]? = some s) : s.index = k := by
  have hk : k < sockets.length := (List.getElem?_eq_some_iff.mp hs).1
  have hindex : (sockets.map (·.index))[k]? = some s.index := by rw [List.getElem?_map, hs]; rfl
  rw [h, List.getElem?_range hk] at hindex
  exact (Option.some.inj hindex).symm

/-- **Consistency.** After every history, whatever has been created, connected, refused, added,
replaced, evaluated or cleared in it. -/
theorem consistent_ofOperations [Operable β] (operations : List (Operation β)) :
    (ofOperations operations).Consistent := by
  have hwell := wellFormed_ofOperations operations
  have hmarked := marked_ofOperations operations
  refine ⟨hwell.ids, ?_, ?_, hwell.leaves, hwell.enters, hwell.single, ?_, ?_⟩
  · exact fun i n hn k s hs => index_of_numbered (hwell.inputs_numbered i n hn) hs
  · exact fun i n hn k s hs => index_of_numbered (hwell.outputs_numbered i n hn) hs
  · intro i n hn k s hs
    rw [← isMarked_of_getElem? hs]
    exact (hmarked i n hn).inputs k
  · intro i n hn k s hs
    rw [← isMarked_of_getElem? hs]
    exact (hmarked i n hn).outputs k

end Graph
end Texel
