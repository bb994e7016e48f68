import Texel.Proofs.Program.Generation
import Texel.Proofs.Program.Values

/-!
# Texel — when there is a program

A graph that has been edited fails to become a program for two reasons only: its connections form a
cycle, or it has no nodes. All other ways out of generation are closed: every function is found,
every conversion exists, every block is closed again.

* **`generate_of_valued`** — the program of a graph without cycles in which every output and every
  parameter has a value.
* **`generate_of_acyclic`** — the program of a graph without cycles that has the ports of its
  operators.
* **`generate_ofEdits`** — the three outcomes for graphs made by edits.
-/

namespace Texel.Program

open Glsl Builtin

variable {g : Graph Builtin} {order : List Nat}

/-! ## Outcomes -/

/-- An order of nodes is the only thing that may be missing. -/
theorem generate_of_cycle (h : g.WellFormed) {nodes : List Nat}
    (hschedule : g.schedule = .error (.cycle nodes)) :
    (generate.run g).result = .error (.graph (.cycle nodes)) := by
  rw [result_generate, h.ordering_eq, hschedule]

/-- With an order of the nodes, the outcome is that of building. -/
theorem generate_of_order (h : g.WellFormed) (hschedule : g.schedule = .ok order) :
    (generate.run g).result = ((build g order).run {}).result.mapError .code := by
  rw [result_generate, h.ordering_eq, hschedule]

theorem generate_of_empty (h : g.WellFormed) (hschedule : g.schedule = .ok []) :
    (generate.run g).result = .error (.code .emptyGraph) := by
  rw [generate_of_order h hschedule]
  rfl

/-- **The program of a graph without cycles.** -/
theorem generate_of_valued (hwell : g.WellFormed) (hvalued : g.Valued) (houtputs : g.HasOutputs)
    (hacyclic : g.Acyclic) (hne : g.nodes ≠ []) :
    ∃ p, (generate.run g).result = .ok p ∧ Planned g p.order ∧ Blueprint g p.order p := by
  rcases hwell.schedule with ⟨_, order, hschedule, horder⟩ | ⟨hcycle, _⟩
  · have hsome : order ≠ [] := by
      have hmem : 0 ∈ order := (horder.mem_iff 0).mpr (List.length_pos_of_ne_nil hne)
      exact List.ne_nil_of_mem hmem
    have hplanned : Planned g order := ⟨hwell, hvalued, houtputs, horder⟩
    obtain ⟨p, d, hbuild, hp⟩ := hplanned.build_returns hsome
    have hresult := generate_of_order hwell hschedule
    rw [hbuild.1] at hresult
    obtain rfl := hp.order_eq
    exact ⟨p, hresult, hplanned, hp⟩
  · exact absurd hacyclic hcycle

theorem generate_of_acyclic (hwell : g.WellFormed) (hstandard : g.Standard) (hacyclic : g.Acyclic)
    (hne : g.nodes ≠ []) :
    ∃ p, (generate.run g).result = .ok p ∧ Regular g p.order ∧ Blueprint g p.order p := by
  obtain ⟨p, hresult, hplanned, hp⟩ := generate_of_valued hwell (valued_of_standard hstandard)
    (hasOutputs_of_standard hstandard) hacyclic hne
  exact ⟨p, hresult, ⟨hplanned, hstandard⟩, hp⟩

/-! ## Result nodes -/

def IsOutput (g : Graph Builtin) (id : Nat) : Prop :=
  ∃ n, g.node? id = some n ∧ n.behavior = .output

/-- The last output node of an order, or its last node if there is no output node. -/
inductive IsResult (g : Graph Builtin) : (order : List Nat) → (id : Nat) → Prop
  | output {before after : List Nat} {id : Nat} (hid : IsOutput g id)
    (hafter : ∀ x ∈ after, ¬ IsOutput g x) : IsResult g (before ++ id :: after) id
  | last {before : List Nat} {id : Nat} (hnone : ∀ x ∈ before ++ [id], ¬ IsOutput g x) :
    IsResult g (before ++ [id]) id

theorem isOutput_iff {id : Nat} :
    ((g.node? id).map fun n => (Operable.operator n.behavior).isOutput).getD false = true ↔
      IsOutput g id := by
  have hoperator : ∀ b : Builtin, b.operator.isOutput = true ↔ b = .output := by
    intro b
    cases b <;> decide
  unfold IsOutput
  cases g.node? id with
  | none => simp
  | some n =>
    show n.behavior.operator.isOutput = true ↔ _
    simp [hoperator n.behavior]

theorem isResult_resultNode {last : Nat} (hlast : order.getLast? = some last) :
    IsResult g order (resultNode g order last) := by
  unfold resultNode
  cases hfound : order.reverse.find? _ with
  | some id =>
    obtain ⟨hid, after, before, hsplit, hafter⟩ := List.find?_eq_some_iff_append.mp hfound
    have horder : order = before.reverse ++ id :: after.reverse := by
      rw [← List.reverse_reverse order, hsplit]
      simp
    rw [horder]
    refine .output (isOutput_iff.mp hid) fun x hx hx' => ?_
    have := hafter x (List.mem_reverse.mp hx)
    rw [isOutput_iff.mpr hx'] at this
    cases this
  | none =>
    obtain ⟨before, rfl⟩ := List.getLast?_eq_some_iff.mp hlast
    refine .last fun x hx hx' => ?_
    exact List.find?_eq_none.mp hfound x (List.mem_reverse.mpr hx) (isOutput_iff.mpr hx')

/-- **Outcomes.** A graph made by edits fails for a cycle or for having no nodes; otherwise it has a
program, which goes through all nodes in an evaluation order and ends with the result node. -/
theorem generate_ofEdits (edits : List (Graph.Edit Builtin)) :
    let g := Graph.ofEdits edits
    let result := (generate.run g).result
    ((∃ nodes, result = .error (.graph (.cycle nodes))) ↔ ¬ g.Acyclic) ∧
    (result = .error (.code .emptyGraph) ↔ g.nodes = []) ∧
    (¬ g.Acyclic ∨ g.nodes = [] ∨
      ∃ p, result = .ok p ∧ g.IsEvaluationOrder p.order ∧ IsResult g p.order p.result) := by
  intro g result
  have hwell : g.WellFormed := Graph.wellFormed_ofEdits edits
  have hstandard : g.Standard := Graph.standard_ofEdits edits
  rcases hwell.schedule with ⟨hacyclic, order, hschedule, horder⟩ | ⟨hcycle, nodes, hschedule⟩
  · by_cases hnodes : g.nodes = []
    · have hempty : order = [] := by
        refine List.eq_nil_iff_forall_not_mem.mpr fun id hid => ?_
        have hlt : id < g.nodes.length := (horder.mem_iff id).mp hid
        rw [hnodes] at hlt
        exact absurd hlt (Nat.not_lt_zero id)
      have hresult : result = .error (.code .emptyGraph) :=
        generate_of_empty hwell (hempty ▸ hschedule)
      rw [hresult]
      exact ⟨⟨fun ⟨_, h⟩ => (nomatch h), fun h => absurd hacyclic h⟩,
        ⟨fun _ => hnodes, fun _ => rfl⟩, Or.inr (Or.inl hnodes)⟩
    · obtain ⟨p, hresult, hplanned, hp⟩ := generate_of_acyclic hwell hstandard hacyclic hnodes
      obtain ⟨last, hlast, hnode⟩ := hp.result
      replace hresult : result = .ok p := hresult
      rw [hresult]
      refine ⟨⟨fun ⟨_, h⟩ => (nomatch h), fun h => absurd hacyclic h⟩,
        ⟨fun h => (nomatch h), fun h => absurd h hnodes⟩,
        Or.inr (Or.inr ⟨p, rfl, hplanned.isOrder, ?_⟩)⟩
      rw [hnode]
      exact isResult_resultNode hlast
  · have hresult : result = .error (.graph (.cycle nodes)) := generate_of_cycle hwell hschedule
    have hnodes : g.nodes ≠ [] := by
      intro hnodes
      refine hcycle fun id hpath => ?_
      obtain ⟨_, _, hlast⟩ := Relation.TransGen.tail'_iff.mp hpath
      have hlt : id < g.nodes.length := (hwell.feeds_lt hlast).2
      rw [hnodes] at hlt
      exact absurd hlt (Nat.not_lt_zero id)
    rw [hresult]
    exact ⟨⟨fun _ => hcycle, fun _ => ⟨nodes, rfl⟩⟩,
      ⟨fun h => (nomatch h), fun h => absurd h hnodes⟩, Or.inl hcycle⟩

end Texel.Program
