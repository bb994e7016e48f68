import Texel.Proofs.Program.Assembly
import Texel.Proofs.Program.Outcome
import Texel.Proofs.Program.Scope

/-!
# Texel — the shape of a program

What can be said about a generated program by looking at its text: what its body and its subtree
functions are made of, that functions are defined once and before they are called, and that
variables are declared and written before they are read. This is so whatever has been done to the
graph, but for outputs that were added to a node by hand: they are declared, and nothing writes
them.

* **`Shaped`** — the four properties, of the text of the body and of the definitions.
* **`generate_shaped`** — every program of a graph of built-in operators has them.
* **`spareOutput`**, **`emptyParam`** — what an output and a parameter do that were added by hand.
-/

namespace Texel.Program

open Glsl Builtin
open Shader (Expression)

variable {g : Graph Builtin} {order done : List Nat} {es : List Entry} {id : Nat}
  {n : Node Builtin}

/-! ## Shapes -/

/-- The lines that declare the outputs of a node. -/
def declarationTexts {β : Type} (g : Graph β) (id : Nat) : List String :=
  ((g.node? id).map fun n => n.outputs.map fun s =>
    "\t" ++ s.kind.held.typeName ++ " " ++ outputName id s.index ++ ";\n").getD []

theorem map_render_declarations {β : Type} (g : Graph β) (ids : List Nat) :
    (ids.flatMap (declarations g)).map Line.render = ids.flatMap (declarationTexts g) := by
  rw [List.map_flatMap]
  refine List.flatMap_congr fun id _ => ?_
  unfold declarationTexts declarations
  cases g.node? id with
  | none => rfl
  | some n =>
    rw [Option.map_some, Option.map_some, Option.getD_some, Option.getD_some, List.map_map]
    rfl

/-- The line calls the function of the node, with arguments that can be read. -/
def IsCall (g : Graph Builtin) (id : Nat) (text : String) : Prop :=
  ∃ n arguments es, g.node? id = some n ∧
    text = "\t" ++ calleeName n ++ "(" ++ arguments ++ ");\n" ∧
    Expression.listOf? arguments = some es

/-- Declarations of the outputs of some nodes, one call for each node, and a last line. -/
def IsScope (g : Graph Builtin) (ids : List Nat) (last text : String) : Prop :=
  ∃ calls, List.Forall₂ (IsCall g) ids calls ∧
    text = String.join (ids.flatMap (declarationTexts g) ++ calls ++ [last])

/-- The functions that are found in the definitions. -/
def defined (p : Program) : List Entry := entries p.definitionsText

structure Shaped (g : Graph Builtin) (p : Program) : Prop where
  /-- The body calls all nodes in order and stores the first output of the result node. -/
  body : ∃ s conversion, g.output? p.result 0 = some s ∧
    Conversion.between s.kind .vec4 = .ok conversion ∧
    IsScope g p.order ("\timageStore(uOutput, cCoords, " ++
      conversion.text (outputName p.result 0) ++ ");\n") p.bodyText
  /-- The subtree function of a multi-pass node is defined once. It calls the ancestors of the node
  in order and returns. -/
  subtrees : ∀ id n, g.node? id = some n → n.behavior = .heightGradient →
    (p.defined.map (·.name)).count (subtreeName id) = 1 ∧
    ∃ e ∈ p.defined, e.name = subtreeName id ∧ ∃ lines value returned,
      e.text = subtreeSignature id ++ " \x7b\n" ++ lines ++ "\x7d" ∧
      IsScope g (p.order.filter (· ∈ g.ancestors id)) ("\treturn " ++ value ++ ";\n") lines ∧
      Expression.listOf? value = some [returned]
  /-- There is nothing but functions in the definitions. -/
  whole : p.definitionsText = textOfEntries p.defined
  /-- Nothing is defined twice. -/
  once : (p.defined.map (·.name)).Nodup
  /-- Functions call what has been defined before them, or what is there without. -/
  before : CallsKnown [] p.defined
  /-- The body calls what has been defined, or what is there without. -/
  calls : ∀ name ∈ callsIn "main" (tokens p.bodyText),
    name ∈ p.defined.map (·.name) ∨ IsForeign name
  /-- In the body, outputs are read after they have been declared, first outputs after they have
  been written. -/
  bodyScoped : ∃ ss, statementsOf? p.bodyText = some ss ∧ Scoped p.defined ss
  /-- So are they in every subtree function. -/
  subtreesScoped : ∀ id, ∀ e ∈ p.defined, e.name = subtreeName id →
    ∃ signature ss, Shader.Item.listOf? e.text = some [.function signature ss] ∧
      Scoped p.defined ss

/-! ## Subtree functions -/

/-- The subtree functions among the definitions. -/
theorem Defined.exists_of_subtreeName (h : Defined g order done es) {e : Entry} (he : e ∈ es)
    (hname : e.name = subtreeName id) :
    ∃ n, g.node? id = some n ∧
      e.IsBlock (subtreeName id) (scope g (members g order id) (.ret (returned g n))) := by
  induction h with
  | nil => cases he
  | again _ _ _ _ ih => exact ih he
  | @library done es last k _ _ hsingle _ ih =>
    rcases List.mem_append.mp he with he | he
    · exact ih he
    · have hmem : e.name ∈ k.behavior.names := by
        rw [← map_name_entriesOf]
        exact List.mem_map_of_mem he
      exact absurd (names_subset_mentions _ _ hmem)
        (hname ▸ notMem_mentions_of_not_plain hsingle (subtreeName_not_plain id))
  | @subtree done es last k block _ hk _ hblock ih =>
    rcases List.mem_append.mp he with he | he
    · exact ih he
    · rcases List.mem_pair.mp he with rfl | rfl
      · obtain rfl : last = id := subtreeName_inj.mp (hblock.name.symm.trans hname)
        exact ⟨k, hk, hblock⟩
      · exact absurd hname.symm (subtreeName_ne_specialisedName id last)

/-! ## The four properties -/

theorem Planned.isScope (h : Planned g order) {ids : List Nat} (hids : ∀ id ∈ ids, id ∈ order)
    (last : Line) : IsScope g ids last.render (renderLines (scope g ids last)) := by
  refine ⟨(ids.flatMap (Program.calls g)).map Line.render, ?_, ?_⟩
  · induction ids with
    | nil => exact .nil
    | cons id ids ih =>
      rw [List.forall_mem_cons] at hids
      obtain ⟨n, hn⟩ := h.exists_node hids.1
      rw [List.flatMap_cons, calls_eq hn]
      exact .cons ⟨n, _, _, hn, rfl, Expr.listOf?_render (plain_argumentsOf n)⟩ (ih hids.2)
  · rw [renderLines, scope, List.map_append, List.map_append, map_render_declarations]
    rfl

/-- What a subtree function returns comes from an ancestor. -/
theorem Planned.mem_members_of_returned (h : Planned g order) {m k : Nat}
    (hread : outputName m k ∈ (returned g n).tree.names) :
    m ∈ members g order n.id ∧ ∃ s, g.output? m k = some s := by
  unfold returned at hread
  cases hc : firstFeeder? g n with
  | none =>
    rw [hc] at hread
    exact absurd hread (outputName_notMem_zero .vec4 m k)
  | some c =>
    rw [hc] at hread
    obtain ⟨rfl, rfl⟩ := outputName_mem_fetched hread
    obtain ⟨hmem, hdestination⟩ := firstFeeder?_spec hc
    obtain ⟨_, s, _, _, hs⟩ := h.exists_source hmem
    exact ⟨hdestination ▸ h.source_mem_members hmem, s, hs⟩

theorem Blueprint.result_mem {p : Program} (h : Blueprint g order p) : p.result ∈ order := by
  obtain ⟨last, hlast, hresult⟩ := h.result
  rw [hresult]
  exact resultNode_mem g hlast

/-- The last line of the body reads what it stores. -/
theorem Defined.effect?_store (h : Defined g order done es) (value : Expr) :
    ∃ effect, (Line.store value).tree.effect? es = some effect ∧ effect.writes = [] ∧
      ∀ m k, outputName m k ∈ effect.reads → outputName m k ∈ value.tree.names := by
  have hnone : Shader.qualifiers es "imageStore" = [] := by
    rw [Shader.qualifiers, List.find?_eq_none.mpr]
    · rfl
    · intro e he hname
      exact isForeign_imageStore.2 (h.isOwn (List.mem_map.mpr ⟨e, he, of_decide_eq_true hname⟩))
  refine ⟨_, rfl, ?_, fun m k hread => ?_⟩
  · rw [hnone]
    rfl
  · rw [hnone, Shader.namesRead_nil] at hread
    have hother : ∀ name ∈ ["uOutput", "cCoords"], outputName m k ≠ name := by
      have hplain : ∀ name ∈ ["uOutput", "cCoords"], '_' ∉ name.toList := by decide
      intro name hname heq
      exact hplain name hname (heq ▸ underscore_mem_outputName m k)
    simpa [Shader.namesOf, Expression.names, hother] using hread

theorem Blueprint.shaped {p : Program} (hp : Blueprint g p.order p) (h : Planned g p.order) :
    Shaped g p := by
  obtain ⟨es, hdefined, hholding⟩ := hp.definitions.exists_defined h
  have hentries : p.defined = es := hholding.entries_eq
  have hnodup := hdefined.nodup_names h.isOrder.nodup
  have hbody :
      p.bodyText = renderLines (scope g p.order (.store (fetched g .vec4 p.result 0))) := by
    rw [Program.bodyText, hp.body, renderPieces_lines]
  obtain ⟨k, hk⟩ := h.exists_node hp.result_mem
  obtain ⟨s, hs⟩ := h.exists_output hk
  exact {
    body := by
      refine ⟨s, Conversion.toward s.kind .vec4, hs, Conversion.between_eq ?_ rfl, ?_⟩
      · exact kindOf_of_output? hs ▸ h.kindOf_ne_none p.result 0
      · rw [hbody, ← kindOf_of_output? hs]
        exact h.isScope (fun _ hid => hid) (.store (fetched g .vec4 p.result 0))
    subtrees := by
      intro id n hn hmulti
      have hid := h.mem_order hn
      have hmem : subtreeName id ∈ es.map (·.name) := hdefined.mem_names_iff.mpr
        (Or.inr ⟨id, mem_gradients.mpr ⟨hid, n, hn, hmulti⟩, rfl⟩)
      obtain ⟨e, he, hname⟩ := List.mem_map.mp hmem
      obtain ⟨k, hk, hblock⟩ := hdefined.exists_of_subtreeName he hname
      have hvalue := Expr.listOf?_render (List.forall_mem_singleton.mpr (plain_returned (g := g) k))
      rw [List.map_singleton, List.map_singleton, String.intercalate_singleton] at hvalue
      rw [hentries]
      refine ⟨List.count_eq_one_of_mem hnodup hmem, e, he, hname,
        renderLines (scope g (members g p.order id) (.ret (returned g k))), (returned g k).render,
        _, ?_, ?_, hvalue⟩
      · rw [hblock.text, blockText, subtreeSignature_eq]
      · exact h.isScope (fun m hm => (List.mem_filter.mp hm).1) (.ret (returned g k))
    whole := hentries.symm ▸ hholding.text_eq
    once := hentries.symm ▸ hnodup
    before := hentries.symm ▸ hdefined.callsKnown h (List.append_nil _)
    calls := by
      intro name hname
      rw [hentries]
      rcases hp.calls_bodyText h hname with hname | ⟨id, hid, n, hn, rfl⟩ | rfl
      · exact Or.inr (isForeign_helpers name hname)
      · exact Or.inl (hdefined.mem_names_iff.mpr (Or.inl (h.provided_calleeName hn hid)))
      · exact Or.inr isForeign_imageStore
    bodyScoped := by
      refine ⟨_, hp.statementsOf?_bodyText h, ?_⟩
      rw [hentries]
      obtain ⟨effect, heffect, hwrites, hreads⟩ :=
        hdefined.effect?_store (fetched g .vec4 p.result 0)
      refine hdefined.scoped_scope h h.closed_order (fun _ hid => hid) heffect ?_ hwrites
      intro m k hread
      obtain ⟨rfl, rfl⟩ := outputName_mem_fetched (hreads m k hread)
      exact ⟨hp.result_mem, s, hs⟩
    subtreesScoped := by
      intro id e he hname
      rw [hentries] at he ⊢
      obtain ⟨k, hk, hblock⟩ := hdefined.exists_of_subtreeName he hname
      refine ⟨_, _, hblock.text ▸ h.listOf?_subtree id k _, ?_⟩
      have heffect : (Line.ret (returned g k)).tree.effect? es =
          some { reads := (returned g k).tree.names } := rfl
      refine hdefined.scoped_scope h (h.closed_members id) (fun m hm => (List.mem_filter.mp hm).1)
        heffect ?_ rfl
      intro m j hread
      exact h.id_eq hk ▸ h.mem_members_of_returned hread }

/-- Built-in operators have outputs, so every node has one. -/
theorem hasOutputs_builtin (operations : List (Graph.Operation Builtin)) :
    (Graph.ofOperations operations).HasOutputs := by
  refine Graph.hasOutputs_ofOperations (fun b => ?_) operations
  cases b <;> decide

/-- **Shape.** Whatever has been done to a graph: if it has nodes and no cycles, it has a program if
and only if every output and every parameter has a value, and the program is well shaped. -/
theorem generate_shaped (operations : List (Graph.Operation Builtin))
    (hacyclic : (Graph.ofOperations operations).Acyclic)
    (hnodes : (Graph.ofOperations operations).nodes ≠ []) :
    ((∃ p, (generate.run (Graph.ofOperations operations)).result = .ok p) ↔
      (Graph.ofOperations operations).Valued) ∧
    ∀ p, (generate.run (Graph.ofOperations operations)).result = .ok p →
      Shaped (Graph.ofOperations operations) p := by
  have hwell := Graph.wellFormed_ofOperations operations
  have houtputs := hasOutputs_builtin operations
  refine ⟨⟨fun ⟨p, hp⟩ => valued_of_generate hwell hp, fun hvalued => ?_⟩, fun p hp => ?_⟩
  · obtain ⟨p, hresult, _⟩ := generate_of_valued hwell hvalued houtputs hacyclic hnodes
    exact ⟨p, hresult⟩
  · have hvalued := valued_of_generate hwell hp
    obtain ⟨q, hresult, hplanned, hq⟩ := generate_of_valued hwell hvalued houtputs hacyclic hnodes
    obtain rfl : p = q := Except.ok.inj (hp.symm.trans hresult)
    exact hq.shaped hplanned

/-! ## A height gradient of a height gradient -/

/-- Noise, its gradient, and the gradient of that as the result. -/
def nestedGradients : List (Graph.Edit Builtin) :=
  [.create .valueNoise, .create .heightGradient, .create .heightGradient, .create .output,
    .connect ⟨0, 0, 1, 0⟩, .connect ⟨1, 0, 2, 0⟩, .connect ⟨2, 0, 3, 0⟩]

theorem acyclic_nestedGradients : (Graph.ofEdits nestedGradients).Acyclic :=
  Graph.acyclic_of_rank id (by decide)

theorem nestedGradients_shaped :
    ∃ p, (generate.run (Graph.ofOperations (nestedGradients.map .edit))).result = .ok p ∧
      Shaped (Graph.ofOperations (nestedGradients.map .edit)) p := by
  have hedits := Graph.ofEdits_eq_ofOperations nestedGradients
  have hvalued : (Graph.ofOperations (nestedGradients.map .edit)).Valued :=
    hedits ▸ valued_of_standard (Graph.standard_ofEdits nestedGradients)
  obtain ⟨hiff, hshaped⟩ := generate_shaped (nestedGradients.map .edit)
    (hedits ▸ acyclic_nestedGradients) (by decide)
  obtain ⟨p, hp⟩ := hiff.mpr hvalued
  exact ⟨p, hp, hshaped p hp⟩

/-! ## Sockets and parameters that are added by hand -/

/-- A color with a second output, which is what the result node reads. -/
def spareOutput : List (Graph.Operation Builtin) :=
  [.edit (.create .color), .addOutput 0 "Extra" .vec4, .edit (.create .output),
    .edit (.connect ⟨0, 1, 1, 0⟩)]

theorem acyclic_spareOutput : (Graph.ofOperations spareOutput).Acyclic :=
  Graph.acyclic_of_rank id (by decide)

/-- What the result node is called with. -/
theorem reads_spareOutput : ((Graph.ofOperations spareOutput).node? 1).map (fun n =>
    Shader.namesOf (n.behavior.inputParameters.map fun q =>
      (argumentOf (Graph.ofOperations spareOutput) n (n.behavior.operator.binding q.1)
        q.2.kind).tree)) = some [outputName 0 1] := by
  decide +kernel

/-- A statement of the body reads the second output of the first node, and none writes it. -/
def SpareUnwritten (p : Program) : Prop :=
  ∃ ss, statementsOf? p.bodyText = some ss ∧
    (∃ s ∈ ss, ∃ effect, s.effect? p.defined = some effect ∧ outputName 0 1 ∈ effect.reads) ∧
    ∀ s ∈ ss, ∀ effect, s.effect? p.defined = some effect → outputName 0 1 ∉ effect.writes

/-- The result node reads the second output of the color, and no call of the body writes it: the
library function of a color has one result. -/
theorem exists_spareUnwritten :
    ∃ p, (generate.run (Graph.ofOperations spareOutput)).result = .ok p ∧ SpareUnwritten p := by
  have hvalued : (Graph.ofOperations spareOutput).Valued := by
    unfold Graph.Valued
    decide +kernel
  obtain ⟨p, hresult, h, hp⟩ := generate_of_valued (Graph.wellFormed_ofOperations spareOutput)
    hvalued (hasOutputs_builtin spareOutput) acyclic_spareOutput (by decide)
  obtain ⟨es, hdefined, hholding⟩ := hp.definitions.exists_defined h
  have hentries : p.defined = es := hholding.entries_eq
  obtain ⟨ss, hss, effects, heffects, hscope⟩ := (hp.shaped h).bodyScoped
  refine ⟨p, hresult, ss, hss, ?_, fun s hs effect heffect hwrite => ?_⟩
  · obtain ⟨n, hn, hreads⟩ := Option.map_eq_some_iff.mp reads_spareOutput
    have hid := h.mem_order hn
    obtain rfl := Option.some.inj ((hp.statementsOf?_bodyText h).symm.trans hss)
    refine ⟨_, List.mem_map_of_mem (List.mem_append_left _ (List.mem_append_right _
      (List.mem_flatMap.mpr ⟨1, hid, ?_⟩))), _,
      hentries ▸ hdefined.effect?_call h h.isOrder.nodup hid hn, ?_⟩
    · rw [calls_eq hn]
      exact List.mem_singleton_self _
    · rw [hreads]
      exact List.mem_singleton_self _
  · obtain ⟨effect', hmem, heffect'⟩ := exists_of_mem_left heffects hs
    obtain rfl := Option.some.inj (heffect.symm.trans heffect')
    exact Nat.one_ne_zero (hscope.eq_zero_of_writes hmem hwrite)

/-- A color with a parameter that has no value. -/
def emptyParam : List (Graph.Operation Builtin) :=
  [.edit (.create .color), .addParam 0 "Extra" .none .zero]

theorem acyclic_emptyParam : (Graph.ofOperations emptyParam).Acyclic :=
  Graph.acyclic_of_rank id (by decide)

/-- In a graph that has nodes and no cycles, an output may be read that nothing writes, and such a
graph need not have a program. -/
theorem addedPorts_unshaped :
    ((Graph.ofOperations spareOutput).Acyclic ∧ (Graph.ofOperations spareOutput).nodes ≠ [] ∧
      ∃ p, (generate.run (Graph.ofOperations spareOutput)).result = .ok p ∧ SpareUnwritten p) ∧
    (Graph.ofOperations emptyParam).Acyclic ∧ (Graph.ofOperations emptyParam).nodes ≠ [] ∧
      ∀ p, (generate.run (Graph.ofOperations emptyParam)).result ≠ .ok p := by
  have hempty : ¬ (Graph.ofOperations emptyParam).Valued := by
    unfold Graph.Valued
    decide +kernel
  refine ⟨⟨acyclic_spareOutput, by decide, exists_spareUnwritten⟩, acyclic_emptyParam,
    by decide, fun p hp => ?_⟩
  exact hempty (valued_of_generate (Graph.wellFormed_ofOperations emptyParam) hp)

end Texel.Program
