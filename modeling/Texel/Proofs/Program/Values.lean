import Texel.Program.Generate
import Texel.Proofs.Action
import Texel.Proofs.Graph.Bare

/-!
# Texel — values do not enter programs

Values and images reach a program when it runs, not when it is written: generation looks at ids,
behaviors and outlines, at the connections and at the evaluation order. Each function of it is shown
to answer alike for a graph and for its plan, from the expressions up to the whole program.

* **`build_plan`** — building a program looks at the plan of the graph only.
* **`generate_congr`** — so graphs that only values tell apart have the same program.
* **`alike_generate`** — generation itself leads to such a graph.
-/

namespace Texel

namespace Graph

variable {β : Type}

theorem visit_congr {g g' : Graph β} (h : g'.connections = g.connections) (start steps : Nat) :
    ∀ pending visited,
      g'.visit start steps pending visited = g.visit start steps pending visited := by
  have hsources : g'.sources = g.sources := by
    funext id
    rw [sources, sources, h]
  induction steps with
  | zero => exact fun _ _ => rfl
  | succ steps ih =>
    intro pending visited
    cases pending with
    | nil => rfl
    | cons id pending => rw [visit, visit, ih, ih, hsources]

theorem ancestors_plan (g : Graph β) (start : Nat) :
    g.plan.ancestors start = g.ancestors start := by
  have hconnections : g.plan.connections = g.connections := rfl
  have hsources : g.plan.sources start = g.sources start := rfl
  rw [ancestors, ancestors, visit_congr hconnections, hconnections, hsources, size_plan]

end Graph

namespace Program

open Glsl

variable {β : Type}

/-! ## Expressions -/

theorem inputIndex?_bare (n : Node β) (input : String) :
    n.bare.inputIndex? input = n.inputIndex? input := by
  show (n.inputs.map Socket.bare).findIdx? _ = _
  rw [List.findIdx?_map]
  rfl

theorem param?_bare (n : Node β) (name : String) :
    n.bare.param? name = (n.param? name).map Param.bare := by
  show (n.params.map Param.bare).find? _ = _
  rw [List.find?_map]
  rfl

theorem output?_bare (n : Node β) (output : Nat) :
    n.bare.outputs[output]? = n.outputs[output]?.map Socket.bare :=
  List.getElem?_map ..

theorem connected?_plan (g : Graph β) (n : Node β) (input : String) (kind : Kind) :
    connected? g.plan n.bare input kind = connected? g n input kind := by
  have hfeeding : g.plan.feeding? n.bare.id = g.feeding? n.id := rfl
  unfold connected?
  rw [inputIndex?_bare, hfeeding]
  cases (n.inputIndex? input).bind (g.feeding? n.id) with
  | none => rfl
  | some c =>
    simp only [Graph.node?_plan]
    cases g.node? c.source with
    | none => rfl
    | some source =>
      simp only [Option.map_some, output?_bare]
      cases source.outputs[c.output]? with
      | none => rfl
      | some s => rfl

theorem argument_plan (g : Graph β) (n : Node β) (binding : Binding) (kind : Kind) :
    argument g.plan n.bare binding kind = argument g n binding kind := by
  unfold argument
  simp only [connected?_plan, param?_bare]
  cases n.param? binding.name with
  | none => rfl
  | some p => rfl

theorem subtreeResult_plan (g : Graph β) (n : Node β) :
    subtreeResult g.plan n.bare = subtreeResult g n := by
  have hfirst : (n.bare.inputs.findSome? fun s => g.plan.feeding? n.bare.id s.index) =
      n.inputs.findSome? fun s => g.feeding? n.id s.index := by
    show (n.inputs.map Socket.bare).findSome? _ = _
    rw [List.findSome?_map]
    rfl
  unfold subtreeResult
  rw [hfirst]
  cases n.inputs.findSome? fun s => g.feeding? n.id s.index with
  | none => rfl
  | some c =>
    simp only [Graph.node?_plan]
    cases g.node? c.source with
    | none => rfl
    | some source =>
      simp only [Option.map_some, output?_bare]
      cases source.outputs[c.output]? with
      | none => rfl
      | some s => rfl

/-! ## Generation -/

/-- Whatever is done with a node, it is enough that it is done alike with its bare form. -/
theorem nodeOf_bind_plan {α : Type} {g : Graph β} {id : Nat} {f f' : Node β → Generation α}
    (h : ∀ n, f' n.bare = f n) : (nodeOf g.plan id >>= f') = (nodeOf g id >>= f) := by
  unfold nodeOf
  rw [Graph.node?_plan]
  cases g.node? id with
  | none => rfl
  | some n => exact h n

theorem declareUniforms_plan (g : Graph β) (id : Nat) :
    declareUniforms g.plan id = declareUniforms g id := by
  refine nodeOf_bind_plan fun n => ?_
  show Action.each (declareParam id) (n.params.map Param.bare) = _
  rw [Action.each_map]
  rfl

theorem declareOutputs_plan (g : Graph β) (id : Nat) :
    declareOutputs g.plan id = declareOutputs g id := by
  refine nodeOf_bind_plan fun n => ?_
  show Action.each _ (n.outputs.map Socket.bare) = _
  rw [Action.each_map]
  rfl

theorem emitStore_plan (g : Graph β) (id : Nat) : emitStore g.plan id = emitStore g id := by
  have houtput : g.plan.output? id 0 = (g.output? id 0).map Socket.bare := by
    simp only [Graph.output?, Graph.node?_plan]
    cases g.node? id with
    | none => rfl
    | some n => exact output?_bare n 0
  unfold emitStore
  rw [houtput]
  cases g.output? id 0 with
  | none => rfl
  | some s => rfl

variable [Operable β]

theorem resultNode_plan (g : Graph β) (order : List Nat) (last : Nat) :
    resultNode g.plan order last = resultNode g order last := by
  unfold resultNode
  simp only [Graph.node?_plan, Option.map_map]
  rfl

theorem collectLibrary_plan (g : Graph β) (id : Nat) :
    collectLibrary g.plan id = collectLibrary g id := by
  unfold collectLibrary
  simp only [Graph.node?_plan, Option.map_map]
  rfl

theorem arguments_plan (g : Graph β) (n : Node β) (ps : List (String × Parameter)) :
    ∀ next, arguments g.plan n.bare next ps = arguments g n next ps := by
  have hlength : n.bare.outputs.length = n.outputs.length := List.length_map ..
  have hbehavior : n.bare.behavior = n.behavior := rfl
  have hid : n.bare.id = n.id := rfl
  induction ps with
  | nil => exact fun _ => rfl
  | cons p ps ih =>
    intro next
    rw [arguments, arguments, hlength, hbehavior, hid, argument_plan, ih, ih]

theorem emitCall_plan (g : Graph β) (id : Nat) : emitCall g.plan id = emitCall g id := by
  refine nodeOf_bind_plan fun n => ?_
  have hcallee : calleeName n.bare = calleeName n := rfl
  simp only [hcallee, arguments_plan]

theorem specialise_plan (g : Graph β) (order : List Nat) (n : Node β) :
    specialise g.plan order n.bare = specialise g order n := by
  have hdeclare : declareOutputs g.plan = declareOutputs g := funext (declareOutputs_plan g)
  have hcall : emitCall g.plan = emitCall g := funext (emitCall_plan g)
  have hbehavior : n.bare.behavior = n.behavior := rfl
  have hid : n.bare.id = n.id := rfl
  simp only [specialise, hbehavior, hid, Graph.ancestors_plan, hdeclare, hcall, subtreeResult_plan]

theorem emitNode_plan (g : Graph β) (order : List Nat) (id : Nat) :
    emitNode g.plan order id = emitNode g order id := by
  refine nodeOf_bind_plan fun n => ?_
  have hbehavior : n.bare.behavior = n.behavior := rfl
  simp only [hbehavior, specialise_plan, emitCall_plan]

/-- **Building** looks at the plan only. -/
theorem build_plan (g : Graph β) (order : List Nat) : build g.plan order = build g order := by
  have hnode : emitNode g.plan order = emitNode g order := funext (emitNode_plan g order)
  simp only [build, resultNode_plan, collectLibrary_plan, declareUniforms_plan, declareOutputs_plan,
    hnode, emitStore_plan]

/-! ## Programs -/

/-- The program of a graph is what is built with its order. -/
theorem result_generate (g : Graph β) :
    (generate.run g).result = match g.ordering with
      | .ok order => ((build g order).run {}).result.mapError .code
      | .error e => .error (.graph e) := by
  cases horder : g.ordering with
  | error e =>
    refine Action.result_bind_of_error ?_
    show (Graph.evaluationOrder.run g).result.mapError Failure.graph = _
    rw [Graph.result_evaluationOrder, horder]
    rfl
  | ok order =>
    have hreturns : (Graph.evaluationOrder.mapError Failure.graph).Returns g order
        (Graph.evaluationOrder.run g).state :=
      Action.Returns.mapError ⟨(Graph.result_evaluationOrder g).trans horder, rfl⟩ _
    -- the graph that keeps the order has the plan of the one that does not
    have hbuild : build (Graph.evaluationOrder.run g).state order = build g order := by
      rw [← build_plan, (Graph.alike_evaluationOrder g).plan, build_plan]
    rw [generate, hreturns.result_bind, (Action.Returns.state _).result_bind,
      (Action.Returns.reportAll _ _).result_bind, hbuild]
    show _ = ((build g order).run {}).result.mapError Failure.code
    cases ((build g order).run {}).result with
    | error e => exact Action.result_bind_of_error rfl
    | ok p =>
      have hok : (Except.ok p : Except CodeError Program).mapError Failure.code = .ok p := rfl
      rw [(Action.Returns.ofExcept hok _).result_bind, (Action.Returns.report _ _).result_bind]
      rfl

/-- **Values do not enter programs.** -/
theorem generate_congr {g g' : Graph β} (h : g'.Alike g) :
    (generate.run g').result = (generate.run g).result := by
  have hbuild : ∀ order, build g' order = build g order := by
    intro order
    rw [← build_plan g', h.plan, build_plan]
  simp only [result_generate, hbuild, h.ordering]

/-- The only thing that generation does to a graph is to keep the order. -/
theorem state_generate (g : Graph β) :
    (generate.run g).state = (Graph.evaluationOrder.run g).state := by
  refine Action.Keeps.after (P := (· = (Graph.evaluationOrder.run g).state)) (fun _ => ?_) rfl
  exact .bind .state fun _ => .bind (.reportAll _) fun _ => .bind (.ofExcept _) fun _ =>
    .bind (.report _) fun _ => .pure _

theorem alike_generate (g : Graph β) : (generate.run g).state.Alike g :=
  state_generate g ▸ Graph.alike_evaluationOrder g

end Program
end Texel
