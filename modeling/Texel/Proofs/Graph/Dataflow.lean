import Texel.Builtin
import Texel.Proofs.Action
import Texel.Proofs.Graph.Bare
import Texel.Proofs.Graph.Marks

/-!
# Texel — what the value pass computes

The connections and the operators of a graph set up equations: an input holds what the output that
feeds it holds, and the outputs of a node are what its operator makes of its inputs. The value pass
takes the nodes one after another and copies values as it goes; the equations know no order.

* **`Solution`** — the equations, and that nothing else has changed.
* **`Solution.unique`** — without a cycle, at most one solution: where two of them differ, they
  differ first at a node whose sources agree.
* **`HandsOn`** — what one step of the pass does: `solveNode` computes a node and hands its outputs
  on to the inputs they feed.
* **`Passed`** — how far the pass has come. **`Passed.step`** is the step,
  **`WellFormed.solve_cases`** the run.
* **`solve_unique_solution`** — the pass finds the solution; the order of the connections does not
  show in it, and for the built-in operators a second pass changes nothing.
-/

namespace Texel

/-- The socket without its value. -/
def Socket.emptied (s : Socket) : Socket := { s with value := .zero }

theorem Socket.eq_of_emptied {s t : Socket} (h : s.emptied = t.emptied)
    (hvalue : s.value = t.value) :
    s = t := by
  cases s
  cases t
  simp only [emptied, Socket.mk.injEq] at h
  simp_all

namespace Graph

variable {β : Type}

theorem node?_mapNode (g : Graph β) (id i : Nat) (f : Node β → Node β) :
    (g.mapNode id f).node? i = if id = i then (g.node? i).map f else g.node? i := by
  show (g.nodes.modify id f)[i]? = _
  rw [List.getElem?_modify]
  by_cases hi : id = i
  · rw [if_pos hi]
    simp only [hi, if_true]
    rfl
  · rw [if_neg hi]
    simp only [hi, if_false]
    exact Option.map_id'

theorem node?_isSome {g : Graph β} {i : Nat} : (g.node? i).isSome ↔ i < g.size := by
  unfold node? size
  rw [isSome_getElem?]

/-- An input takes one connection. -/
theorem WellFormed.eq_of_target {g : Graph β} (hwell : g.WellFormed) {c d : Connection}
    (hc : c ∈ g.connections) (hd : d ∈ g.connections) (hdestination : d.destination = c.destination)
    (hinput : d.input = c.input) : d = c := by
  have hnodup : (g.connections.map fun c => (c.destination, c.input)).Nodup := by
    rw [List.Nodup, List.pairwise_map]
    refine hwell.single.imp fun hne heq => hne ?_
    exact Prod.mk.inj heq
  exact List.inj_on_of_nodup_map hnodup hd hc (by rw [hdestination, hinput])

/-! ## Equations -/

/-- The connection leads to the input `k` of the node `i`. -/
def Targets (c : Connection) (i k : Nat) : Prop := c.destination = i ∧ c.input = k

section Solution

variable [Operable β]

/-- The graph `g'` solves the equations that the connections and the operators of `g` set up. -/
structure Solution (g g' : Graph β) : Prop where
  size : g'.size = g.size
  connections : g'.connections = g.connections
  /-- The outputs of a node are computed once, from what its inputs hold in the end, its parameters
  and its earlier outputs. The node is solved, and otherwise as it was. -/
  computed : ∀ (i : Nat) (n n' : Node β), g.node? i = some n → g'.node? i = some n' →
    n' = evaluated { n with inputs := n'.inputs }
  /-- Inputs change in their value only. -/
  kept : ∀ i k, (g'.input? i k).map Socket.emptied = (g.input? i k).map Socket.emptied
  /-- An input holds what the output that feeds it holds. -/
  fed : ∀ c ∈ g.connections, ∃ s t, g'.output? c.source c.output = some s ∧
    g'.input? c.destination c.input = some t ∧ t.value = s.value
  /-- An input that nothing feeds is left alone. -/
  unfed : ∀ i k, (∀ c ∈ g.connections, ¬ Targets c i k) → g'.input? i k = g.input? i k

variable {g a b : Graph β}

theorem Solution.exists_node (h : Solution g a) {i : Nat} {n : Node β} (hn : g.node? i = some n) :
    ∃ n', a.node? i = some n' := by
  rw [← Option.isSome_iff_exists, node?_isSome, h.size, ← node?_isSome, hn]
  rfl

/-- Inputs agree in two solutions if the nodes that feed them do. -/
theorem Solution.input?_eq (ha : Solution g a) (hb : Solution g b) {i : Nat}
    (hsources : ∀ j, g.Feeds j i → a.node? j = b.node? j) (k : Nat) :
    a.input? i k = b.input? i k := by
  by_cases hfed : ∃ c ∈ g.connections, Targets c i k
  · obtain ⟨c, hc, rfl, rfl⟩ := hfed
    obtain ⟨s, t, hs, ht, hvalue⟩ := ha.fed c hc
    obtain ⟨s', t', hs', ht', hvalue'⟩ := hb.fed c hc
    have hsource : s = s' := by
      rw [output?, hsources c.source ⟨c, hc, rfl, rfl⟩] at hs
      exact Option.some.inj (hs.symm.trans hs')
    have hkept := (ha.kept c.destination c.input).trans (hb.kept c.destination c.input).symm
    rw [ht, ht', Option.map_some, Option.map_some, Option.some.injEq] at hkept
    rw [ht, ht', Socket.eq_of_emptied hkept (by rw [hvalue, hvalue', hsource])]
  · have hfree : ∀ c ∈ g.connections, ¬ Targets c i k := fun c hc htarget => hfed ⟨c, hc, htarget⟩
    rw [ha.unfed i k hfree, hb.unfed i k hfree]

/-- **Uniqueness.** -/
theorem Solution.unique (hacyclic : g.Acyclic) (ha : Solution g a) (hb : Solution g b) :
    a.nodes = b.nodes := by
  suffices hnodes : ∀ i, a.node? i = b.node? i from List.ext_getElem? hnodes
  by_contra hdiffer
  rw [not_forall] at hdiffer
  have hlt : ∀ i, a.node? i ≠ b.node? i → i < g.size := by
    intro i hi
    by_contra hge
    have hnone : ∀ x : Graph β, x.size = g.size → x.node? i = none := by
      intro x hx
      rw [← Option.not_isSome_iff_eq_none, node?_isSome, hx]
      exact hge
    exact hi ((hnone a ha.size).trans (hnone b hb.size).symm)
  -- the first node where they differ has sources that agree
  obtain ⟨i, hi, hsources⟩ := hacyclic.exists_source hlt hdiffer
  obtain ⟨n, hn⟩ := Option.isSome_iff_exists.mp (node?_isSome.mpr (hlt i hi))
  obtain ⟨m, hm⟩ := ha.exists_node hn
  obtain ⟨m', hm'⟩ := hb.exists_node hn
  have hinputs : m.inputs = m'.inputs := by
    apply List.ext_getElem?
    intro k
    have hk := ha.input?_eq hb (fun j hj => not_not.mp (hsources j hj)) k
    rw [input?, input?, hm, hm'] at hk
    exact hk
  apply hi
  rw [hm, hm', ha.computed i n m hn hm, hb.computed i n m' hn hm', hinputs]

/-- The equations do not depend on the order of the connections. -/
theorem Solution.of_perm {g' : Graph β} (h : Solution g a) (hnodes : g'.nodes = g.nodes)
    (hperm : g'.connections.Perm g.connections) :
    Solution g' { a with connections := g'.connections } := by
  have hnode : g'.node? = g.node? := by
    funext i
    show g'.nodes[i]? = g.nodes[i]?
    rw [hnodes]
  have hinput : g'.input? = g.input? := by
    funext i k
    rw [input?, input?, hnode]
  refine ⟨?_, rfl, ?_, ?_, ?_, ?_⟩
  · show a.size = g'.nodes.length
    rw [hnodes]
    exact h.size
  · rw [hnode]
    exact h.computed
  · rw [hinput]
    exact h.kept
  · exact fun c hc => h.fed c (hperm.subset hc)
  · rw [hinput]
    exact fun i k hfree => h.unfed i k fun c hc => hfree c (hperm.symm.subset hc)

end Solution

/-! ## Handing values on -/

section Transfer

variable {outputs : List Socket} {g : Graph β} {c : Connection} {cs : List Connection} {i k : Nat}

theorem node?_transfer (hi : c.destination ≠ i) : (transfer outputs g c).node? i = g.node? i := by
  unfold transfer
  split
  · rw [node?_mapNode, if_neg hi]
  · rfl

theorem input?_transfer (hc : ¬ Targets c i k) :
    (transfer outputs g c).input? i k = g.input? i k := by
  unfold transfer
  split
  · next s _ =>
    unfold input?
    rw [node?_mapNode]
    split_ifs with hi
    · have hk : c.input ≠ k := fun hk => hc ⟨hi, hk⟩
      cases g.node? i with
      | none => rfl
      | some n =>
        show (n.inputs.modify c.input _)[k]? = n.inputs[k]?
        rw [List.getElem?_modify]
        simp only [hk, if_false]
        exact Option.map_id'
    · rfl
  · rfl

theorem input?_transfer_target {s t : Socket} (hs : outputs[c.output]? = some s)
    (ht : g.input? c.destination c.input = some t) :
    (transfer outputs g c).input? c.destination c.input = some { t with value := s.value } := by
  obtain ⟨n, hn, ht⟩ := Option.bind_eq_some_iff.mp ht
  simp only [transfer, hs]
  unfold input?
  rw [node?_mapNode, if_pos rfl, hn]
  show (n.inputs.modify c.input _)[c.input]? = _
  rw [List.getElem?_modify, ht]
  simp

/-- The node without its inputs. -/
def withoutInputs (n : Node β) : Node β := { n with inputs := [] }

/-- Only inputs change. -/
theorem map_withoutInputs_transfer (outputs : List Socket) (g : Graph β) (c : Connection) :
    (transfer outputs g c).nodes.map withoutInputs = g.nodes.map withoutInputs := by
  unfold transfer
  split
  · exact map_mapNode fun n _ => rfl
  · rfl

theorem node?_foldl_transfer (hi : ∀ c ∈ cs, c.destination ≠ i) :
    (cs.foldl (transfer outputs) g).node? i = g.node? i :=
  List.foldlRecOn (motive := fun h : Graph β => h.node? i = g.node? i) cs _ rfl
    fun _ hh c hc => (node?_transfer (hi c hc)).trans hh

theorem input?_foldl_transfer (hfree : ∀ c ∈ cs, ¬ Targets c i k) :
    (cs.foldl (transfer outputs) g).input? i k = g.input? i k :=
  List.foldlRecOn (motive := fun h : Graph β => h.input? i k = g.input? i k) cs _ rfl
    fun _ hh c hc => (input?_transfer (hfree c hc)).trans hh

/-- Where no two connections enter one input, each brings its value and none is overwritten. -/
theorem input?_foldl_transfer_target
    (hsingle : cs.Pairwise fun c d => ¬ (c.destination = d.destination ∧ c.input = d.input))
    (hc : c ∈ cs) {s t : Socket} (hs : outputs[c.output]? = some s)
    (ht : g.input? c.destination c.input = some t) :
    (cs.foldl (transfer outputs) g).input? c.destination c.input =
      some { t with value := s.value } := by
  obtain ⟨before, after, rfl⟩ := List.append_of_mem hc
  obtain ⟨_, hlater, hearlier⟩ := List.pairwise_append.mp hsingle
  have hbefore : ∀ d ∈ before, ¬ Targets d c.destination c.input := fun d hd htarget =>
    hearlier d hd c List.mem_cons_self htarget
  have hafter : ∀ d ∈ after, ¬ Targets d c.destination c.input := fun d hd htarget =>
    (List.pairwise_cons.mp hlater).1 d hd ⟨htarget.1.symm, htarget.2.symm⟩
  rw [List.foldl_append, List.foldl_cons, input?_foldl_transfer hafter]
  refine input?_transfer_target hs ?_
  rw [input?_foldl_transfer hbefore, ht]

end Transfer

/-! ## One step of the pass -/

section HandsOn

variable [Operable β] {g : Graph β} {id : Nat}

/-- The node `id` of `g` has been computed and has handed its outputs on. -/
structure HandsOn (g : Graph β) (id : Nat) (g' : Graph β) : Prop where
  steady : Steady g g'
  /-- A node that the outputs do not lead to. -/
  away : ∀ i, (∀ c ∈ g.connections, c.source = id → c.destination ≠ i) →
    g'.node? i = if id = i then (g.node? i).map evaluated else g.node? i
  /-- Elsewhere, inputs change and nothing else. -/
  elsewhere : ∀ i, i ≠ id → (g'.node? i).map withoutInputs = (g.node? i).map withoutInputs
  fed : ∀ c ∈ g.connections, c.source = id → ∀ s t,
    ((g.node? id).map evaluated).bind (·.outputs[c.output]?) = some s →
    g.input? c.destination c.input = some t →
    g'.input? c.destination c.input = some { t with value := s.value }
  unfed : ∀ i k, (∀ c ∈ g.connections, c.source = id → ¬ Targets c i k) →
    g'.input? i k = g.input? i k

theorem input?_mapNode_evaluated (g : Graph β) (id i k : Nat) :
    (g.mapNode id evaluated).input? i k = g.input? i k := by
  unfold input?
  rw [node?_mapNode]
  split_ifs
  · cases g.node? i <;> rfl
  · rfl

theorem solveNode_eq (g : Graph β) (id : Nat) :
    solveNode g id = (g.connections.filter (·.source = id)).foldl
      (transfer ((((g.node? id).map evaluated).map (·.outputs)).getD []))
        (g.mapNode id evaluated) := by
  have hsource : (g.mapNode id evaluated).node? id = (g.node? id).map evaluated := by
    rw [node?_mapNode, if_pos rfl]
  rw [← hsource]
  rfl

theorem handsOn_solveNode (hsingle : g.connections.Pairwise fun c d =>
    ¬ (c.destination = d.destination ∧ c.input = d.input)) (id : Nat) :
    HandsOn g id (solveNode g id) := by
  have hmem : ∀ c ∈ g.connections.filter (·.source = id), c ∈ g.connections ∧ c.source = id := by
    intro c hc
    rw [List.mem_filter] at hc
    exact ⟨hc.1, of_decide_eq_true hc.2⟩
  refine ⟨steady_solveNode g id, ?_, ?_, ?_, ?_⟩
  · intro i hi
    rw [solveNode_eq, node?_foldl_transfer fun c hc => hi c (hmem c hc).1 (hmem c hc).2,
      node?_mapNode]
  · intro i hi
    have hview : (solveNode g id).nodes.map withoutInputs =
        (g.mapNode id evaluated).nodes.map withoutInputs := by
      rw [solveNode_eq]
      exact map_foldl (map_withoutInputs_transfer _) _ _
    have hplace : ((solveNode g id).node? i).map withoutInputs =
        ((g.mapNode id evaluated).node? i).map withoutInputs := by
      unfold node?
      rw [← List.getElem?_map, hview, List.getElem?_map]
    rw [hplace, node?_mapNode, if_neg (Ne.symm hi)]
  · intro c hc hcid s t hs ht
    have hs' : ((((g.node? id).map evaluated).map (·.outputs)).getD [])[c.output]? = some s := by
      cases hn : (g.node? id).map evaluated with
      | none => rw [hn] at hs; cases hs
      | some n => rw [hn] at hs; exact hs
    have hfiltered : c ∈ g.connections.filter (·.source = id) :=
      List.mem_filter.mpr ⟨hc, decide_eq_true hcid⟩
    rw [solveNode_eq]
    refine input?_foldl_transfer_target (hsingle.filter _) hfiltered hs' ?_
    rw [input?_mapNode_evaluated, ht]
  · intro i k hfree
    rw [solveNode_eq, input?_foldl_transfer fun c hc => hfree c (hmem c hc).1 (hmem c hc).2,
      input?_mapNode_evaluated]

end HandsOn

/-! ## The whole pass -/

/-- In an evaluation order, connections lead on to nodes that come later. -/
theorem IsEvaluationOrder.later {g : Graph β} {order done rest : List Nat} {id : Nat}
    (horder : g.IsEvaluationOrder order) (hsplit : done ++ id :: rest = order) :
    id ∉ done ∧ ∀ c ∈ g.connections, c.source = id → c.destination ∉ done ∧ c.destination ≠ id := by
  have hnew := horder.notMem_done hsplit
  refine ⟨hnew, fun c hc hsource => ?_⟩
  have hlt := horder.forward c hc
  rw [hsource, ← hsplit, List.idxOf_append_of_notMem hnew, List.idxOf_cons_self] at hlt
  constructor
  · intro hdone
    rw [List.idxOf_append_of_mem hdone] at hlt
    have := List.idxOf_lt_length_of_mem hdone
    omega
  · intro hself
    rw [hself, List.idxOf_append_of_notMem hnew, List.idxOf_cons_self] at hlt
    omega

theorem WellFormed.evaluationOrder_returns {g : Graph β} {order : List Nat} (hwell : g.WellFormed)
    (hschedule : g.schedule = .ok order) :
    Graph.evaluationOrder.Returns g order { g with order := some order } := by
  constructor
  · rw [result_evaluationOrder, hwell.ordering_eq, hschedule]
  · rw [(run_evaluationOrder g).1, hschedule]
    cases hkept : g.order with
    | none => rfl
    | some kept =>
      have hsame : kept = order := Except.ok.inj ((hwell.cache kept hkept).symm.trans hschedule)
      rw [hsame]
      rfl

section Passed

variable [Operable β] {g h : Graph β} {done : List Nat} {id : Nat}

/-- The pass over `g` has come to `h`: the nodes `done` are solved and have handed their outputs on,
the others wait. -/
structure Passed (g : Graph β) (done : List Nat) (h : Graph β) : Prop where
  size : h.size = g.size
  connections : h.connections = g.connections
  computed : ∀ (i : Nat) (n m : Node β), g.node? i = some n → h.node? i = some m → i ∈ done →
    m = evaluated { n with inputs := m.inputs }
  waiting : ∀ (i : Nat) (n m : Node β), g.node? i = some n → h.node? i = some m → i ∉ done →
    m = { n with inputs := m.inputs, solved := false }
  kept : ∀ i k, (h.input? i k).map Socket.emptied = (g.input? i k).map Socket.emptied
  fed : ∀ c ∈ g.connections, c.source ∈ done → ∃ s t, h.output? c.source c.output = some s ∧
    h.input? c.destination c.input = some t ∧ t.value = s.value
  unfed : ∀ i k, (∀ c ∈ g.connections, c.source ∈ done → ¬ Targets c i k) →
    h.input? i k = g.input? i k

theorem passed_unsolved (g : Graph β) (order : Option (List Nat)) :
    Passed g [] ({ g with order }).unsolved := by
  have hnode : ∀ i, ({ g with order }).unsolved.node? i =
      (g.node? i).map fun n => { n with solved := false } := fun i => List.getElem?_map ..
  have hinput : ∀ i k, ({ g with order }).unsolved.input? i k = g.input? i k := by
    intro i k
    rw [input?, input?, hnode]
    cases g.node? i <;> rfl
  refine ⟨List.length_map .., rfl, ?_, ?_, ?_, ?_, ?_⟩
  · exact fun i n m _ _ hi => absurd hi List.not_mem_nil
  · intro i n m hn hm _
    rw [hnode, hn] at hm
    cases hm
    rfl
  · intro i k
    rw [hinput]
  · exact fun c _ hc => absurd hc List.not_mem_nil
  · exact fun i k _ => hinput i k

theorem Passed.solution (hp : Passed g done h) (hall : ∀ i, i < g.size → i ∈ done)
    (hwell : g.WellFormed) : Solution g h := by
  have hsource : ∀ c ∈ g.connections, c.source ∈ done := fun c hc =>
    hall c.source (hwell.feeds_lt ⟨c, hc, rfl, rfl⟩).1
  refine ⟨hp.size, hp.connections, ?_, hp.kept, ?_, ?_⟩
  · intro i n n' hn hn'
    refine hp.computed i n n' hn hn' (hall i ?_)
    rw [← node?_isSome, hn]
    rfl
  · exact fun c hc => hp.fed c hc (hsource c hc)
  · exact fun i k hfree => hp.unfed i k fun c hc _ => hfree c hc

/-- The sockets at the ends of a connection. -/
theorem Passed.exists_sockets (hp : Passed g done h) (hwell : g.WellFormed) {c : Connection}
    (hc : c ∈ g.connections) :
    ∃ m s t, h.node? c.source = some m ∧ (evaluated m).outputs[c.output]? = some s ∧
      h.input? c.destination c.input = some t := by
  obtain ⟨n, hn, houtput⟩ := hwell.leaves c hc
  obtain ⟨d, hd, hinput⟩ := hwell.enters c hc
  obtain ⟨m, hm⟩ : ∃ m, h.node? c.source = some m := by
    rw [← Option.isSome_iff_exists, node?_isSome, hp.size]
    exact (hwell.feeds_lt ⟨c, hc, rfl, rfl⟩).1
  have houtputs : m.outputs.length = n.outputs.length := by
    by_cases hdone : c.source ∈ done
    · rw [hp.computed c.source n m hn hm hdone]
      exact List.length_mapIdx
    · rw [hp.waiting c.source n m hn hm hdone]
  have ht : (h.input? c.destination c.input).isSome := by
    rw [← Option.isSome_map (f := Socket.emptied), hp.kept, Option.isSome_map]
    show ((g.node? c.destination).bind _).isSome
    rw [show g.node? c.destination = some d from hd]
    simpa using hinput
  obtain ⟨t, ht⟩ := Option.isSome_iff_exists.mp ht
  have hlt : c.output < (evaluated m).outputs.length := by
    rw [show (evaluated m).outputs.length = m.outputs.length from List.length_mapIdx, houtputs]
    exact houtput
  exact ⟨m, _, t, hm, List.getElem?_eq_getElem hlt, ht⟩

section Step

variable (hwell : g.WellFormed) (hp : Passed g done h)

include hwell hp

theorem Passed.handsOn (id : Nat) : HandsOn h id (solveNode h id) :=
  handsOn_solveNode (hp.connections ▸ hwell.single) id

theorem Passed.waiting_step {i : Nat} {n m : Node β} (hn : g.node? i = some n)
    (hm : (solveNode h id).node? i = some m) (hi : i ∉ done ++ [id]) :
    m = { n with inputs := m.inputs, solved := false } := by
  rw [List.mem_append, List.mem_singleton, not_or] at hi
  have hview := (hp.handsOn hwell id).elsewhere i hi.2
  rw [hm, Option.map_some] at hview
  obtain ⟨m₀, hm₀, hsame⟩ := Option.map_eq_some_iff.mp hview.symm
  have hwaiting := hp.waiting i n m₀ hn hm₀ hi.1
  calc m = { withoutInputs m with inputs := m.inputs } := rfl
    _ = { withoutInputs m₀ with inputs := m.inputs } := by rw [hsame]
    _ = { n with inputs := m.inputs, solved := false } := by rw [hwaiting]; rfl

theorem Passed.input?_solveNode {i k : Nat}
    (hfree : ∀ c ∈ g.connections, c.source = id → ¬ Targets c i k) :
    (solveNode h id).input? i k = h.input? i k :=
  (hp.handsOn hwell id).unfed i k (hp.connections ▸ hfree)

variable (hforward : ∀ c ∈ g.connections, c.source = id → c.destination ∉ done ∧ c.destination ≠ id)

include hforward

/-- Solved nodes have all their inputs, so nothing is handed on to them. -/
theorem Passed.node?_solveNode {i : Nat} (hi : i ∈ done ∨ i = id) :
    (solveNode h id).node? i = if id = i then (h.node? i).map evaluated else h.node? i := by
  refine (hp.handsOn hwell id).away i fun c hc hsource hdestination => ?_
  rw [hp.connections] at hc
  obtain ⟨hdone, hid⟩ := hforward c hc hsource
  subst hdestination
  exact hi.elim hdone hid

/-- What the inputs hold that the node feeds. -/
theorem Passed.fed_new {c : Connection} (hc : c ∈ g.connections) (hsource : c.source = id) :
    ∃ s t, (solveNode h id).output? c.source c.output = some s ∧
      h.input? c.destination c.input = some t ∧
      (solveNode h id).input? c.destination c.input = some { t with value := s.value } := by
  obtain ⟨m, s, t, hm, hs, ht⟩ := hp.exists_sockets hwell hc
  subst hsource
  refine ⟨s, t, ?_, ht, ?_⟩
  · rw [output?, hp.node?_solveNode hwell hforward (Or.inr rfl), if_pos rfl, hm]
    exact hs
  · refine (hp.handsOn hwell _).fed c (hp.connections ▸ hc) rfl s t ?_ ht
    rw [hm]
    exact hs

variable (hnew : id ∉ done)

include hnew

theorem Passed.computed_step {i : Nat} {n m : Node β} (hn : g.node? i = some n)
    (hm : (solveNode h id).node? i = some m) (hi : i ∈ done ++ [id]) :
    m = evaluated { n with inputs := m.inputs } := by
  rw [List.mem_append, List.mem_singleton] at hi
  rw [hp.node?_solveNode hwell hforward hi] at hm
  split_ifs at hm with hid
  · subst hid
    obtain ⟨m₀, hm₀, rfl⟩ := Option.map_eq_some_iff.mp hm
    have hwaiting := hp.waiting _ n m₀ hn hm₀ hnew
    show evaluated m₀ = evaluated { n with inputs := m₀.inputs }
    rw [hwaiting]
    rfl
  · have hdone : i ∈ done := hi.resolve_right (Ne.symm hid)
    exact hp.computed i n m hn hm hdone

/-- **The step.** -/
theorem Passed.step : Passed g (done ++ [id]) (solveNode h id) := by
  have hsteady := (hp.handsOn hwell id).steady
  refine ⟨hsteady.nodes.length.trans hp.size, hsteady.connections.trans hp.connections,
    fun i n m hn hm => hp.computed_step hwell hforward hnew hn hm,
    fun i n m hn hm => hp.waiting_step hwell hn hm, ?_, ?_, ?_⟩
  · intro i k
    rw [← hp.kept]
    by_cases hfed : ∃ c ∈ g.connections, c.source = id ∧ Targets c i k
    · obtain ⟨c, hc, hsource, rfl, rfl⟩ := hfed
      obtain ⟨s, t, _, ht, ht'⟩ := hp.fed_new hwell hforward hc hsource
      rw [ht, ht']
      rfl
    · rw [hp.input?_solveNode hwell fun c hc hsource htarget => hfed ⟨c, hc, hsource, htarget⟩]
  · intro c hc hsource
    rw [List.mem_append, List.mem_singleton] at hsource
    rcases hsource with hdone | hid
    · -- what a solved node has handed on stays: no other connection enters that input
      obtain ⟨s, t, hs, ht, hvalue⟩ := hp.fed c hc hdone
      have hother : id ≠ c.source := fun hid => hnew (hid ▸ hdone)
      refine ⟨s, t, ?_, ?_, hvalue⟩
      · rw [output?, hp.node?_solveNode hwell hforward (Or.inl hdone), if_neg hother]
        exact hs
      · rw [hp.input?_solveNode hwell, ht]
        intro d hd hdsource htarget
        rw [hwell.eq_of_target hc hd htarget.1 htarget.2] at hdsource
        exact hother hdsource.symm
    · obtain ⟨s, t, hs, _, ht⟩ := hp.fed_new hwell hforward hc hid
      exact ⟨s, _, hs, ht, rfl⟩
  · intro i k hfree
    rw [hp.input?_solveNode hwell fun c hc hsource => hfree c hc (by simp [hsource])]
    exact hp.unfed i k fun c hc hdone => hfree c hc (List.mem_append_left _ hdone)

end Step

/-- **The run.** -/
theorem Passed.run {order : List Nat} (hwell : g.WellFormed) (horder : g.IsEvaluationOrder order) :
    ∀ {rest done : List Nat}, done ++ rest = order → ∀ {h : Graph β}, Passed g done h →
      Passed g order (rest.foldl solveNode h) := by
  intro rest
  induction rest with
  | nil =>
    intro done hsplit h hp
    rwa [List.append_nil, ← hsplit] at *
  | cons id rest ih =>
    intro done hsplit h hp
    obtain ⟨hnew, hforward⟩ := horder.later hsplit
    refine ih ?_ (hp.step hwell hforward hnew)
    rw [← hsplit, List.append_assoc, List.singleton_append]

/-- **The value pass** finds a solution, or finds a cycle and does nothing. -/
theorem WellFormed.solve_cases (hwell : g.WellFormed) :
    (g.Acyclic ∧ ∃ order g', g.schedule = .ok order ∧ Graph.solve.Returns g () g' ∧
      Solution g g' ∧ g'.order = some order) ∨
    (¬ g.Acyclic ∧ ∃ nodes, (Graph.solve.run g).result = .error (.cycle nodes) ∧
      (Graph.solve.run g).state = g) := by
  rcases hwell.schedule with ⟨hacyclic, order, hschedule, horder⟩ | ⟨hcyclic, nodes, hschedule⟩
  · left
    have hpassed :
        Passed g order (order.foldl solveNode ({ g with order := some order }).unsolved) :=
      .run hwell horder rfl (passed_unsolved g _)
    refine ⟨hacyclic, order, _, hschedule, ?_,
      hpassed.solution (fun i => (horder.mem_iff i).mpr) hwell, ?_⟩
    · exact (hwell.evaluationOrder_returns hschedule).bind (.update _ _)
    · exact (Steady.foldl steady_solveNode order _).order
  · right
    have hresult : (Graph.evaluationOrder.run g).result = .error (.cycle nodes) := by
      rw [result_evaluationOrder, hwell.ordering_eq, hschedule]
    have hstate : (Graph.evaluationOrder.run g).state = g := by
      rw [(run_evaluationOrder g).1, hschedule]
      cases hkept : g.order with
      | none => exact congrArg (fun order => ({ g with order } : Graph β)) hkept.symm
      | some kept => cases (hwell.cache kept hkept).symm.trans hschedule
    refine ⟨hcyclic, nodes, Action.result_bind_of_error hresult, ?_⟩
    rw [Graph.solve, Action.state_bind_of_error hresult, hstate]

end Passed

/-! ## Consequences -/

section Consequences

variable [Operable β] {g : Graph β}

theorem WellFormed.solved_of_acyclic (hwell : g.WellFormed) (hacyclic : g.Acyclic) :
    (∀ n ∈ (Graph.solve.run g).state.nodes, n.solved = true) ∧
    Solution g (Graph.solve.run g).state := by
  rcases hwell.solve_cases with ⟨_, _, g', _, hreturns, hsolution, _⟩ | ⟨hcyclic, _⟩
  · rw [hreturns.2]
    refine ⟨fun n hn => ?_, hsolution⟩
    obtain ⟨i, hi⟩ := List.getElem?_of_mem hn
    obtain ⟨n₀, hn₀⟩ : ∃ n₀, g.node? i = some n₀ := by
      rw [← Option.isSome_iff_exists, node?_isSome, ← hsolution.size, ← node?_isSome]
      exact Option.isSome_of_mem hi
    rw [hsolution.computed i n₀ n hn₀ hi]
    rfl
  · exact absurd hacyclic hcyclic

theorem WellFormed.solve_of_cyclic (hwell : g.WellFormed) (hcyclic : ¬ g.Acyclic) :
    (Graph.solve.run g).state = g := by
  rcases hwell.solve_cases with ⟨hacyclic, _⟩ | ⟨_, _, _, hstate⟩
  · exact absurd hacyclic hcyclic
  · exact hstate

end Consequences

/-! ### Orders of connections -/

theorem sockets_eq {xs ys : List Socket}
    (h : xs.mapIdx (fun _ s => { s with connected := false }) =
      ys.mapIdx fun _ s => { s with connected := false })
    (hmarks : isMarked xs = isMarked ys) : xs = ys := by
  apply List.ext_getElem?
  intro k
  have hk := congrArg (·[k]?) h
  have hmark := congrFun hmarks k
  simp only [List.getElem?_mapIdx] at hk
  unfold isMarked at hmark
  cases hx : xs[k]? with
  | none =>
    rw [hx] at hk
    exact (Option.map_eq_none_iff.mp hk.symm).symm
  | some s =>
    rw [hx, Option.map_some] at hk
    obtain ⟨t, ht, hsame⟩ := Option.map_eq_some_iff.mp hk.symm
    rw [hx, ht] at hmark
    rw [ht]
    cases s
    cases t
    simp_all

/-- Marks can be told from the connections, so nodes that differ in them at most are equal. -/
theorem Marked.nodes_eq {g g' : Graph β} (h : g.Marked) (h' : g'.Marked)
    (hconnections : ∀ c, c ∈ g'.connections ↔ c ∈ g.connections)
    (hnodes : g'.nodes.map (marked []) = g.nodes.map (marked [])) : g'.nodes = g.nodes := by
  apply List.ext_getElem?
  intro i
  have hi := congrArg (·[i]?) hnodes
  simp only [List.getElem?_map] at hi
  cases hn : g.nodes[i]? with
  | none =>
    rw [hn] at hi
    exact Option.map_eq_none_iff.mp hi
  | some n =>
    rw [hn, Option.map_some] at hi
    obtain ⟨n', hn', hsame⟩ := Option.map_eq_some_iff.mp hi
    have hmarks := h i n hn
    have hmarks' := h' i n' hn'
    have hinputs : n'.inputs = n.inputs := by
      refine sockets_eq (congrArg (fun m : Node β => m.inputs) hsame) (funext fun k => ?_)
      rw [Bool.eq_iff_iff, hmarks'.inputs, hmarks.inputs]
      simp only [hconnections]
    have houtputs : n'.outputs = n.outputs := by
      refine sockets_eq (congrArg (fun m : Node β => m.outputs) hsame) (funext fun k => ?_)
      rw [Bool.eq_iff_iff, hmarks'.outputs, hmarks.outputs]
      simp only [hconnections]
    have hrest :=
      congrArg (fun m : Node β => { m with inputs := n.inputs, outputs := n.outputs }) hsame
    rw [hn', Option.some.injEq]
    calc n' = { n' with inputs := n.inputs, outputs := n.outputs } := by rw [← hinputs, ← houtputs]
      _ = n := hrest

theorem acyclic_congr {g g' : Graph β} (h : ∀ c, c ∈ g'.connections ↔ c ∈ g.connections) :
    g'.Acyclic ↔ g.Acyclic := by
  have hfeeds : g'.Feeds = g.Feeds := by
    funext a b
    simp only [Feeds, h]
  rw [Acyclic, hfeeds, Acyclic]

theorem WellFormed.solve_perm [Operable β] {g g' : Graph β} (hwell : g.WellFormed)
    (hwell' : g'.WellFormed) (hnodes : g'.nodes = g.nodes)
    (hperm : g'.connections.Perm g.connections) :
    (Graph.solve.run g').state.nodes = (Graph.solve.run g).state.nodes := by
  have hcongr : g'.Acyclic ↔ g.Acyclic := acyclic_congr fun c => hperm.mem_iff
  by_cases hacyclic : g.Acyclic
  · have hsolution := (hwell.solved_of_acyclic hacyclic).2
    have hsolution' := (hwell'.solved_of_acyclic (hcongr.mpr hacyclic)).2
    have hunique := hsolution'.unique (hcongr.mpr hacyclic) (hsolution.of_perm hnodes hperm)
    exact hunique
  · rw [hwell.solve_of_cyclic hacyclic, hwell'.solve_of_cyclic (mt hcongr.mp hacyclic), hnodes]

/-! ### A second pass -/

section Again

variable [Operable β]

/-- What the operator computes does not depend on what the outputs held before. -/
def IgnoresOutputs (op : Operator) : Prop :=
  ∀ (p : Ports) (outputs : List Socket), op.evaluate { p with outputs } = op.evaluate p

theorem evaluated_evaluated {n : Node β} (h : IgnoresOutputs (Operable.operator n.behavior)) :
    evaluated (evaluated n) = evaluated n := by
  have hsame : (Operable.operator n.behavior).evaluate (evaluated n).toPorts =
      (Operable.operator n.behavior).evaluate n.toPorts := h n.toPorts _
  have houtputs : (evaluated (evaluated n)).outputs = (evaluated n).outputs := by
    unfold evaluated at hsame ⊢
    simp only [hsame, List.mapIdx_mapIdx]
    congr 1
    funext i s
    simp only [Function.comp]
    cases (Operable.operator n.behavior).evaluate n.toPorts i <;> rfl
  show { evaluated n with outputs := (evaluated (evaluated n)).outputs } = evaluated n
  rw [houtputs]

/-- A solution solves its own equations, where operators forget what they have computed before. -/
theorem Solution.again {g g' : Graph β} (h : Solution g g')
    (hignores : ∀ b : β, IgnoresOutputs (Operable.operator b)) : Solution g' g' := by
  refine ⟨rfl, rfl, ?_, fun _ _ => rfl, ?_, fun _ _ _ => rfl⟩
  · intro i n n' hn hn'
    obtain rfl := Option.some.inj (hn.symm.trans hn')
    obtain ⟨n₀, hn₀⟩ : ∃ n₀, g.node? i = some n₀ := by
      rw [← Option.isSome_iff_exists, node?_isSome, ← h.size, ← node?_isSome, hn]
      rfl
    have hcomputed := h.computed i n₀ n hn₀ hn
    calc n = evaluated { n₀ with inputs := n.inputs } := hcomputed
      _ = evaluated (evaluated { n₀ with inputs := n.inputs }) :=
        (evaluated_evaluated (hignores _)).symm
      _ = evaluated n := by rw [← hcomputed]
  · rw [h.connections]
    exact h.fed

/-- **A second pass** changes nothing, then. -/
theorem WellFormed.solve_solve {g : Graph β} (hwell : g.WellFormed)
    (hignores : ∀ b : β, IgnoresOutputs (Operable.operator b)) :
    (Graph.solve.run (Graph.solve.run g).state).state = (Graph.solve.run g).state := by
  rcases hwell.solve_cases with ⟨hacyclic, order, g', hschedule, hreturns, hsolution, horder⟩ |
    ⟨_, _, _, hstate⟩
  · have hwell' : g'.WellFormed := hreturns.2 ▸ hwell.solve
    have hacyclic' : g'.Acyclic :=
      (acyclic_congr fun c => by rw [hsolution.connections]).mpr hacyclic
    rw [hreturns.2]
    rcases hwell'.solve_cases with ⟨_, order', g'', hschedule', hreturns', hsolution', horder'⟩ |
      ⟨hcyclic, _⟩
    · rw [hreturns'.2]
      have hnodes : g''.nodes = g'.nodes := hsolution'.unique hacyclic' (hsolution.again hignores)
      have hkept : order' = order :=
        Except.ok.inj (hschedule'.symm.trans (hwell'.cache order horder))
      calc g'' = ⟨g''.nodes, g''.connections, g''.order⟩ := rfl
        _ = ⟨g'.nodes, g'.connections, g'.order⟩ := by
          rw [hnodes, hsolution'.connections, horder', horder, hkept]
    · exact absurd hacyclic' hcyclic
  · rw [hstate, hstate]

end Again

theorem ignoresOutputs_builtin (b : Builtin) : IgnoresOutputs (Operable.operator b) := by
  intro p outputs
  cases b <;> rfl

/-- **The value pass solves the equations of the graph**, as nothing else does, exactly if there is
no cycle; a graph with a cycle stays as it is. Graphs that differ in the order of their connections,
and in the marks of sockets at most, get the same nodes. Built-in nodes are left alone by a second
pass. -/
theorem solve_unique_solution :
    (∀ {β : Type} [Operable β] (operations : List (Operation β)),
      let g := ofOperations operations
      let g' := (solve.run g).state
      ((solve.run g).result = .ok () ↔ g.Acyclic) ∧
      (g.Acyclic → (∀ n ∈ g'.nodes, n.solved = true) ∧ Solution g g' ∧
        ∀ other, Solution g other → other.nodes = g'.nodes) ∧
      (¬ g.Acyclic → g' = g) ∧
      ∀ operations' : List (Operation β),
        (ofOperations operations').nodes.map (marked []) = g.nodes.map (marked []) →
        (ofOperations operations').connections.Perm g.connections →
        (solve.run (ofOperations operations')).state.nodes = g'.nodes) ∧
    ∀ operations : List (Operation Builtin),
      let g' := (solve.run (ofOperations operations)).state
      (solve.run g').state = g' := by
  constructor
  · intro β _ operations g g'
    have hwell : g.WellFormed := wellFormed_ofOperations operations
    refine ⟨?_, ?_, ?_, ?_⟩
    · rcases hwell.solve_cases with ⟨hacyclic, _, _, _, hreturns, _⟩ | ⟨hcyclic, nodes, hresult, _⟩
      · exact iff_of_true hreturns.1 hacyclic
      · refine iff_of_false (fun hok => ?_) hcyclic
        cases hresult.symm.trans hok
    · intro hacyclic
      obtain ⟨hsolved, hsolution⟩ := hwell.solved_of_acyclic hacyclic
      exact ⟨hsolved, hsolution, fun other hother => hother.unique hacyclic hsolution⟩
    · exact hwell.solve_of_cyclic
    · intro operations' hunmarked hperm
      exact hwell.solve_perm (wellFormed_ofOperations operations')
        ((marked_ofOperations operations).nodes_eq (marked_ofOperations operations')
          (fun c => hperm.mem_iff) hunmarked) hperm
  · intro operations g'
    exact (wellFormed_ofOperations operations).solve_solve ignoresOutputs_builtin

/-- A color that two outputs pass on, one to the other; the ids run against the connections. -/
def relay (cs : List Connection) : List (Operation Builtin) :=
  [.edit (.create .output), .edit (.create .output), .edit (.create .color)] ++
    cs.map fun c => .edit (.connect c)

theorem relay_solved :
    let g := ofOperations (relay [⟨1, 0, 0, 0⟩, ⟨2, 0, 1, 0⟩])
    let g' := (solve.run g).state
    g.Acyclic ∧ Solution g g' ∧ (g'.output? 0 0).map (·.value) = some Builtin.white ∧
      (solve.run (ofOperations (relay [⟨2, 0, 1, 0⟩, ⟨1, 0, 0, 0⟩]))).state.nodes = g'.nodes ∧
      (solve.run g').state = g' := by
  obtain ⟨hiff, hsolution, _, hperm⟩ :=
    solve_unique_solution.1 (relay [⟨1, 0, 0, 0⟩, ⟨2, 0, 1, 0⟩])
  have hacyclic := hiff.mp (by decide +kernel)
  exact ⟨hacyclic, (hsolution hacyclic).2.1, by decide +kernel,
    hperm _ (by decide +kernel) (by decide +kernel), solve_unique_solution.2 _⟩

end Graph
end Texel
