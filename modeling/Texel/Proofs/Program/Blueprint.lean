import Texel.Program.Generate
import Texel.Proofs.Builtin.Table
import Texel.Proofs.Graph.Ancestors
import Texel.Proofs.Graph.Standard

/-!
# Texel — the blueprint of a program

What the program of a graph of built-in operators looks like, as plain functions of the graph and
its evaluation order. Nothing here can fail: where every output and every parameter of a node has a
value, the conversions that the code asks for exist, since the parameters of library functions are
numeric.

* **`Planned`** — such a graph with an evaluation order.
* **`Regular`** — one whose nodes also have the ports of their operators, and no others.
* **`argument_eq`**, **`arguments_eq`**, **`subtreeResult_eq`** — the expressions of the program.
* **`scope`** — declarations, calls and a last line: the body, and the body of a subtree function.
* **`Defines`** — the definitions that stand before the call of a node, node after node.
-/

namespace Texel

/-! ## Operators -/

namespace Builtin

/-- The kind of the one output of an operator. -/
def outputKind : Builtin → Kind
  | .valueNoise => .scalar
  | .uvTransform | .heightGradient => .vec2
  | .color | .linearGradient | .mix | .blend | .imageInput | .output => .vec4

/-- The parameters that the function of an operator reads. -/
def inputParameters (b : Builtin) : List (String × Glsl.Parameter) := b.signature.dropLast

/-- The function of an operator reads its parameters but the last, which it writes. -/
theorem signature_eq (b : Builtin) :
    b.signature = b.inputParameters ++ [("result", parameter .output b.outputKind)] := by
  cases b <;> rfl

theorem inputParameters_spec (b : Builtin) :
    ∀ p ∈ b.inputParameters, p.2.qualifier = .input ∧ p.2.kind.isNumeric = true := by
  cases b <;> decide

theorem outputKind_isNumeric (b : Builtin) : b.outputKind.isNumeric = true := by cases b <;> rfl

theorem outline_outputs (b : Builtin) :
    b.operator.ports.outline.outputs.map (fun s => (s.index, s.kind)) = [(0, b.outputKind)] := by
  cases b <;> rfl

theorem outline_params (b : Builtin) : ∀ p ∈ b.operator.ports.outline.params, p.2 ≠ .none := by
  cases b <;> decide

/-- There is one multi-pass operator. -/
theorem multiPass_iff (b : Builtin) : b.operator.multiPass = true ↔ b = heightGradient := by
  cases b <;> decide

end Builtin

/-! ## Conversions -/

theorem Kind.ne_none_of_isNumeric {kind : Kind} (h : kind.isNumeric = true) : kind ≠ .none := by
  rintro rfl
  cases h

theorem Kind.held_of_isNumeric {kind : Kind} (h : kind.isNumeric = true) : kind.held = kind := by
  cases kind <;> first | rfl | cases h

namespace Glsl

/-- The conversion between two kinds where there is one. -/
def Conversion.toward (source target : Kind) : Conversion :=
  (Conversion.between source target).toOption.getD .identity

/-- Everything that has a value converts to every numeric kind. -/
theorem Conversion.between_eq {source target : Kind} (hsource : source ≠ .none)
    (htarget : target.isNumeric = true) :
    Conversion.between source target = .ok (.toward source target) := by
  cases source <;> cases target <;> first | exact absurd rfl hsource | rfl | cases htarget

theorem Expr.converted_eq {source target : Kind} (hsource : source ≠ .none)
    (htarget : target.isNumeric = true) (e : Expr) :
    Expr.converted source target e = .ok (.convert (.toward source target) e) := by
  rw [Expr.converted, Conversion.between_eq hsource htarget]
  rfl

theorem Expr.ofZero_eq {kind : Kind} (h : kind.isNumeric = true) :
    Expr.ofZero kind = .ok (.zero kind) := by
  rw [Expr.ofZero, Kind.held_of_isNumeric h, if_pos h]

end Glsl

namespace Program

open Glsl

/-! ## Graphs with an evaluation order -/

/-- A graph of built-in operators that is ready to become a program. -/
structure Planned (g : Graph Builtin) (order : List Nat) : Prop where
  wellFormed : g.WellFormed
  valued : g.Valued
  hasOutputs : g.HasOutputs
  isOrder : g.IsEvaluationOrder order

variable {g : Graph Builtin} {order : List Nat} {id : Nat} {n : Node Builtin}

theorem Planned.exists_node (h : Planned g order) (hid : id ∈ order) :
    ∃ n, g.node? id = some n := by
  have hlt : id < g.nodes.length := (h.isOrder.mem_iff id).mp hid
  exact ⟨g.nodes[id], List.getElem?_eq_getElem hlt⟩

theorem Planned.mem_order (h : Planned g order) (hn : g.node? id = some n) : id ∈ order :=
  (h.isOrder.mem_iff id).mpr (List.getElem?_eq_some_iff.mp hn).1

theorem Planned.id_eq (h : Planned g order) (hn : g.node? id = some n) : n.id = id :=
  h.wellFormed.ids id n hn

theorem Planned.output_kind (h : Planned g order) (hn : g.node? id = some n) {s : Socket}
    (hs : s ∈ n.outputs) : s.kind ≠ .none :=
  (h.valued n (List.mem_of_getElem? hn)).1 s hs

theorem Planned.param_kind (h : Planned g order) (hn : g.node? id = some n) {p : Param}
    (hp : p ∈ n.params) : p.kind ≠ .none :=
  (h.valued n (List.mem_of_getElem? hn)).2 p hp

/-- The kind of an output of a node. -/
def kindOf (g : Graph Builtin) (id index : Nat) : Kind :=
  ((g.output? id index).map (·.kind)).getD .vec4

theorem kindOf_of_output? {index : Nat} {s : Socket} (hs : g.output? id index = some s) :
    kindOf g id index = s.kind := by
  rw [kindOf, hs]
  rfl

theorem Planned.kindOf_ne_none (h : Planned g order) (id index : Nat) :
    kindOf g id index ≠ .none := by
  rw [kindOf]
  cases hs : g.output? id index with
  | none => exact Kind.noConfusion
  | some s =>
    obtain ⟨n, hn, hmem⟩ := Option.bind_eq_some_iff.mp hs
    exact h.output_kind hn (List.mem_of_getElem? hmem)

/-- Every node has a first output. -/
theorem Planned.exists_output (h : Planned g order) (hn : g.node? id = some n) :
    ∃ s, g.output? id 0 = some s := by
  have hlength : 0 < n.outputs.length :=
    List.length_pos_of_ne_nil (h.hasOutputs n (List.mem_of_getElem? hn))
  exact ⟨n.outputs[0], Option.bind_eq_some_iff.mpr ⟨n, hn, List.getElem?_eq_getElem hlength⟩⟩

/-! ## Expressions -/

/-- The connection into the input of a name. -/
def feeder? (g : Graph Builtin) (n : Node Builtin) (input : String) : Option Connection :=
  (n.inputIndex? input).bind (g.feeding? n.id)

theorem feeding?_spec {index : Nat} {c : Connection} (hc : g.feeding? id index = some c) :
    c ∈ g.connections ∧ c.destination = id ∧ c.input = index :=
  ⟨List.mem_of_find?_eq_some hc, by simpa using List.find?_some hc⟩

theorem feeder?_spec {input : String} {c : Connection} (hc : feeder? g n input = some c) :
    c ∈ g.connections ∧ c.destination = n.id := by
  obtain ⟨_, _, hfeeding⟩ := Option.bind_eq_some_iff.mp hc
  exact ⟨(feeding?_spec hfeeding).1, (feeding?_spec hfeeding).2.1⟩

/-- An output of a node, converted. -/
def fetched (g : Graph Builtin) (kind : Kind) (id index : Nat) : Expr :=
  .convert (.toward (kindOf g id index) kind) (.var (outputName id index))

theorem Planned.converted_output (h : Planned g order) {index : Nat} {s : Socket}
    (hs : g.output? id index = some s) {kind : Kind} (hkind : kind.isNumeric = true) :
    Expr.converted s.kind kind (.var (outputName id index)) = .ok (fetched g kind id index) := by
  rw [← kindOf_of_output? hs]
  exact Expr.converted_eq (h.kindOf_ne_none id index) hkind _

/-- Connections come from outputs. -/
theorem Planned.exists_source (h : Planned g order) {c : Connection} (hc : c ∈ g.connections) :
    ∃ n s, g.node? c.source = some n ∧ n.outputs[c.output]? = some s ∧
      g.output? c.source c.output = some s := by
  obtain ⟨n, hn, hlt⟩ := h.wellFormed.leaves c hc
  have hs : n.outputs[c.output]? = some n.outputs[c.output] := List.getElem?_eq_getElem hlt
  exact ⟨n, _, hn, hs, Option.bind_eq_some_iff.mpr ⟨n, hn, hs⟩⟩

theorem Planned.connected?_eq (h : Planned g order) (n : Node Builtin) (input : String)
    {kind : Kind} (hkind : kind.isNumeric = true) :
    connected? g n input kind =
      .ok ((feeder? g n input).map fun c => fetched g kind c.source c.output) := by
  unfold connected?
  cases hfeeder : (n.inputIndex? input).bind (g.feeding? n.id) with
  | none => rw [feeder?, hfeeder]; rfl
  | some c =>
    obtain ⟨source, s, hsource, hs, houtput⟩ := h.exists_source (feeder?_spec hfeeder).1
    simp only [feeder?, hfeeder, hsource, hs, h.converted_output houtput hkind]
    rfl

/-- Where an image of a node is sampled. -/
def position (g : Graph Builtin) (n : Node Builtin) : Expr :=
  ((feeder? g n coordInput).map fun c => fetched g .vec2 c.source c.output).getD .coord

/-- The argument for a parameter of the function of a node. -/
def argumentOf (g : Graph Builtin) (n : Node Builtin) (binding : Binding) (kind : Kind) : Expr :=
  match feeder? g n binding.name, n.param? binding.name with
  | some c, _ => fetched g kind c.source c.output
  | none, some p =>
    if p.kind = .image then
      .convert (.toward .image kind) (.sample (uniformName n.id p.name) (position g n))
    else
      .convert (.toward p.kind kind) (.var (uniformName n.id p.name))
  | none, none => if binding.coords then .convert (.toward .vec2 kind) .coord else .zero kind

/-- Every argument can be written. -/
theorem Planned.argument_eq (h : Planned g order) (hn : g.node? id = some n) (binding : Binding)
    {kind : Kind} (hkind : kind.isNumeric = true) :
    argument g n binding kind = .ok (argumentOf g n binding kind) := by
  unfold argument argumentOf
  rw [h.connected?_eq n binding.name hkind]
  cases feeder? g n binding.name with
  | some c => rfl
  | none =>
    cases hparam : n.param? binding.name with
    | none =>
      simp only [bind, Except.bind, Option.map_none]
      split_ifs
      · exact Expr.converted_eq (by decide) hkind _
      · exact Expr.ofZero_eq hkind
    | some p =>
      have hp := h.param_kind hn (List.mem_of_find?_eq_some hparam)
      simp only [bind, Except.bind, Option.map_none]
      split_ifs
      · rw [h.connected?_eq n coordInput rfl]
        exact Expr.converted_eq (by decide) hkind _
      · exact Expr.converted_eq hp hkind _

/-- The arguments of the call of a node. -/
def argumentsOf (g : Graph Builtin) (n : Node Builtin) : List Expr :=
  n.behavior.inputParameters.map (fun p =>
    argumentOf g n (n.behavior.operator.binding p.1) p.2.kind) ++ [.var (outputName n.id 0)]

/-- Parameters that are read, followed by one that is written. -/
theorem Planned.arguments_append (h : Planned g order) (hn : g.node? id = some n)
    {ps : List (String × Parameter)}
    (hps : ∀ p ∈ ps, p.2.qualifier = .input ∧ p.2.kind.isNumeric = true)
    {name : String} {kind : Kind} :
    arguments g n 0 (ps ++ [(name, Builtin.parameter .output kind)]) =
      .ok (ps.map (fun p => argumentOf g n (n.behavior.operator.binding p.1) p.2.kind) ++
        [.var (outputName n.id 0)]) := by
  induction ps with
  | nil =>
    have hlength : ¬ n.outputs.length ≤ 0 := by
      rw [Nat.le_zero, List.length_eq_zero_iff]
      exact h.hasOutputs n (List.mem_of_getElem? hn)
    have houtput : (Builtin.parameter .output kind).qualifier = .output := rfl
    rw [List.nil_append, arguments, if_pos houtput, if_neg hlength]
    rfl
  | cons p ps ih =>
    rw [List.forall_mem_cons] at hps
    obtain ⟨⟨hinput, hnumeric⟩, hps⟩ := hps
    rw [List.cons_append, arguments, if_neg (by rw [hinput]; decide)]
    have hfirst := h.argument_eq hn (n.behavior.operator.binding p.1) hnumeric
    simp only [bind, Except.bind, ih hps]
    rw [show argument g n ((Operable.operator n.behavior).binding p.1) p.2.kind = _ from hfirst]
    rfl

/-- **Calls can be written.** -/
theorem Planned.arguments_eq (h : Planned g order) (hn : g.node? id = some n) :
    arguments g n 0 n.behavior.signature = .ok (argumentsOf g n) := by
  rw [n.behavior.signature_eq]
  exact h.arguments_append hn n.behavior.inputParameters_spec

/-! ## Lines -/

/-- The declarations of the outputs of a node. -/
def declarations {β : Type} (g : Graph β) (id : Nat) : List Line :=
  ((g.node? id).map fun n =>
    n.outputs.map fun s => .declare s.kind.held (outputName id s.index)).getD []

/-- The call of a node. -/
def calls (g : Graph Builtin) (id : Nat) : List Line :=
  ((g.node? id).map fun n => [Line.call (calleeName n) (argumentsOf g n)]).getD []

theorem declarations_eq {β : Type} {g : Graph β} {n : Node β} (hn : g.node? id = some n) :
    declarations g id = n.outputs.map fun s => .declare s.kind.held (outputName id s.index) := by
  rw [declarations, hn]
  rfl

theorem calls_eq (hn : g.node? id = some n) :
    calls g id = [.call (calleeName n) (argumentsOf g n)] := by
  rw [calls, hn]
  rfl

/-- Declarations and calls of some nodes, and a last line. -/
def scope (g : Graph Builtin) (ids : List Nat) (last : Line) : List Line :=
  ids.flatMap (declarations g) ++ ids.flatMap (calls g) ++ [last]

/-- The nodes that a multi-pass node needs, in evaluation order. -/
def members {β : Type} (g : Graph β) (order : List Nat) (id : Nat) : List Nat :=
  order.filter (· ∈ g.ancestors id)

/-- The connection into the first input that has one. -/
def firstFeeder? (g : Graph Builtin) (n : Node Builtin) : Option Connection :=
  n.inputs.findSome? fun s => g.feeding? n.id s.index

/-- What the subtree function of a node returns. -/
def returned (g : Graph Builtin) (n : Node Builtin) : Expr :=
  ((firstFeeder? g n).map fun c => fetched g .vec4 c.source c.output).getD (.zero .vec4)

theorem firstFeeder?_spec {c : Connection} (hc : firstFeeder? g n = some c) :
    c ∈ g.connections ∧ c.destination = n.id := by
  obtain ⟨_, _, hfeeding⟩ := List.exists_of_findSome?_eq_some hc
  exact ⟨(feeding?_spec hfeeding).1, (feeding?_spec hfeeding).2.1⟩

theorem Planned.subtreeResult_eq (h : Planned g order) (n : Node Builtin) :
    subtreeResult g n = .ok (returned g n) := by
  unfold subtreeResult returned
  cases hfirst : firstFeeder? g n with
  | none =>
    rw [firstFeeder?] at hfirst
    rw [hfirst]
    rfl
  | some c =>
    obtain ⟨source, s, hsource, hs, houtput⟩ := h.exists_source (firstFeeder?_spec hfirst).1
    rw [firstFeeder?] at hfirst
    simp only [hfirst, hsource, hs, Option.map_some, Option.getD_some]
    exact h.converted_output houtput rfl

/-! ## Graphs with the ports of their operators -/

/-- A graph whose nodes have the ports of their operators, ready to become a program. -/
structure Regular (g : Graph Builtin) (order : List Nat) : Prop extends Planned g order where
  standard : g.Standard

/-- A node has one output, of the kind of its operator. -/
theorem outputs_of_standard (h : g.Standard) (hn : g.node? id = some n) :
    ∃ s, n.outputs = [s] ∧ s.index = 0 ∧ s.kind = n.behavior.outputKind := by
  have houtline : n.outputs.map (·.outline) = n.behavior.operator.ports.outline.outputs :=
    congrArg PortsOutline.outputs (h.node? hn)
  have hmap := n.behavior.outline_outputs
  rw [← houtline, List.map_map] at hmap
  obtain ⟨s, houtputs, hs⟩ := List.map_eq_singleton_iff.mp hmap
  exact ⟨s, houtputs, congrArg Prod.fst hs, congrArg Prod.snd hs⟩

theorem params_of_standard (h : g.Standard) (hn : g.node? id = some n) {p : Param}
    (hp : p ∈ n.params) : p.kind ≠ .none := by
  have houtline :
      n.params.map (fun q => (q.name, q.kind)) = n.behavior.operator.ports.outline.params :=
    congrArg PortsOutline.params (h.node? hn)
  refine n.behavior.outline_params (p.name, p.kind) ?_
  rw [← houtline]
  exact List.mem_map_of_mem hp

theorem valued_of_standard (h : g.Standard) : g.Valued := by
  intro n hn
  obtain ⟨id, hid⟩ := List.getElem?_of_mem hn
  refine ⟨fun s hs => ?_, fun p hp => params_of_standard h hid hp⟩
  obtain ⟨t, houtputs, _, hkind⟩ := outputs_of_standard h hid
  rw [houtputs, List.mem_singleton] at hs
  rw [hs, hkind]
  exact Kind.ne_none_of_isNumeric n.behavior.outputKind_isNumeric

theorem hasOutputs_of_standard (h : g.Standard) : g.HasOutputs := by
  intro n hn
  obtain ⟨id, hid⟩ := List.getElem?_of_mem hn
  obtain ⟨s, houtputs, _⟩ := outputs_of_standard h hid
  rw [houtputs]
  exact List.cons_ne_nil s []

theorem Regular.kindOf_eq (h : Regular g order) (hn : g.node? id = some n) :
    kindOf g id 0 = n.behavior.outputKind := by
  obtain ⟨s, houtputs, _, hkind⟩ := outputs_of_standard h.standard hn
  have hs : g.output? id 0 = some s := Option.bind_eq_some_iff.mpr ⟨n, hn, by rw [houtputs]; rfl⟩
  rw [kindOf_of_output? hs, hkind]

theorem Regular.kindOf_isNumeric (h : Regular g order) (id : Nat) :
    (kindOf g id 0).isNumeric = true := by
  cases hn : g.node? id with
  | none => rw [kindOf, Graph.output?, hn]; rfl
  | some n =>
    rw [h.kindOf_eq hn]
    exact n.behavior.outputKind_isNumeric

/-- Connections come from the one output of a node. -/
theorem Regular.output_eq (h : Regular g order) {c : Connection} (hc : c ∈ g.connections) :
    c.output = 0 := by
  obtain ⟨n, hn, hlt⟩ := h.wellFormed.leaves c hc
  obtain ⟨s, houtputs, _⟩ := outputs_of_standard h.standard hn
  rw [houtputs, List.length_singleton] at hlt
  omega

theorem Regular.flatMap_declarations (h : Regular g order) {ids : List Nat}
    (hids : ∀ id ∈ ids, id ∈ order) : ids.flatMap (declarations g) =
      ids.map fun id => .declare (kindOf g id 0) (outputName id 0) := by
  rw [List.map_eq_flatMap]
  refine List.flatMap_congr fun id hid => ?_
  obtain ⟨n, hn⟩ := h.exists_node (hids id hid)
  obtain ⟨s, houtputs, hindex, hkind⟩ := outputs_of_standard h.standard hn
  rw [declarations_eq hn, houtputs, List.map_singleton, hindex, hkind, h.kindOf_eq hn,
    Kind.held_of_isNumeric n.behavior.outputKind_isNumeric]

/-! ## Definitions -/

/-- The first line of a subtree function, up to its brace. -/
def subtreeSignature (id : Nat) : String :=
  "vec4 " ++ subtreeName id ++ "(vec2 " ++ coordName ++ ")"

def subtreeBlock (g : Graph Builtin) (order : List Nat) (n : Node Builtin) : Piece :=
  .block (some (subtreeSignature n.id)) (scope g (members g order n.id) (.ret (returned g n)))

/-- The operators of some nodes. -/
def operators (g : Graph Builtin) (ids : List Nat) : List Builtin :=
  (ids.filterMap g.node?).map (·.behavior)

/-- The definitions before and after the calls of some nodes, from the first one on. -/
inductive Defines (g : Graph Builtin) (order : List Nat) : List Nat → List Piece → Prop
  | nil : Defines g order [] []
  /-- A single-pass node whose operator has come before. -/
  | again {done : List Nat} {pieces : List Piece} {id : Nat} {n : Node Builtin}
    (h : Defines g order done pieces) (hn : g.node? id = some n)
    (hsingle : n.behavior ≠ .heightGradient) (hold : n.behavior ∈ operators g done) :
    Defines g order (done ++ [id]) pieces
  /-- The first node of a single-pass operator brings the library. -/
  | library {done : List Nat} {pieces : List Piece} {id : Nat} {n : Node Builtin}
    (h : Defines g order done pieces) (hn : g.node? id = some n)
    (hsingle : n.behavior ≠ .heightGradient) (hnew : n.behavior ∉ operators g done) :
    Defines g order (done ++ [id]) (pieces ++ n.behavior.entriesOf.map Entry.piece)
  /-- A multi-pass node brings two functions of its own. -/
  | subtree {done : List Nat} {pieces : List Piece} {id : Nat} {n : Node Builtin}
    (h : Defines g order done pieces) (hn : g.node? id = some n)
    (hmulti : n.behavior = .heightGradient) :
    Defines g order (done ++ [id])
      (pieces ++ [subtreeBlock g order n, (Builtin.gradientEntry n.id).piece])

end Program
end Texel
