import Texel.Proofs.Program.Inputs

/-!
# Texel — scopes compute what nodes mean

A scope declares an output for each of its nodes and calls the nodes one after the other. While its
statements run, the outputs of the nodes that have been called hold what these nodes mean. One lemma
for each kind of statement says how this is kept; the last one of a scope then reads what it should.

* **`Expression.Gives`** — the value of an expression; **`Conversion.gives_tree`** for conversions.
* **`Tracks`** — the frame of a scope when some of its nodes have been called.
* **`Tracks.declare`**, **`Tracks.call`** — one statement.
* **`execAll_scope`** — the whole scope.
-/

namespace Texel

open Glsl (Inputs Datum Frame Callable)

namespace UniformValue

variable (I : Interpretation)

theorem kind_convert {v : UniformValue} {target : Kind} (hv : v.kind.isNumeric = true)
    (htarget : target.isNumeric = true) : (v.convert I target).kind = target := by
  cases target with
  | none => cases htarget
  | image => cases htarget
  | _ => cases v <;> first | rfl | cases hv

theorem ofCoord_toCoord {v : UniformValue} (hv : v.kind.isNumeric = true) :
    ofCoord (v.toCoord I) = v.convert I .vec2 := by
  cases v <;> first | rfl | cases hv

end UniformValue

/-! ## Values of expressions -/

namespace Shader.Expression

variable {I : Interpretation} {inputs : Inputs} {frame : Frame} {e : Expression}
  {es : List Expression} {v : UniformValue} {vs : List UniformValue}

/-- The expression has the value. -/
def Gives (I : Interpretation) (inputs : Inputs) (frame : Frame) (e : Expression)
    (v : UniformValue) : Prop :=
  e.evaluate I inputs frame = some (.value v)

theorem Gives.value?_eq (h : e.Gives I inputs frame v) : e.value? I inputs frame = some v := by
  rw [value?, h]
  rfl

theorem Gives.color?_eq (h : e.Gives I inputs frame v) (hv : v.kind = .vec4) :
    e.color? I inputs frame = some v := by
  rw [color?, h.value?_eq, Option.filter_some, if_pos (decide_eq_true hv)]

theorem gives_zeroTree : Glsl.zeroTree.Gives I inputs frame (.float 0) := by
  have hzero : (Quantity.decimal 0 (-1)).single = 0 := by decide
  exact congrArg (fun x => some (Datum.value (.float x))) hzero

theorem gives_oneTree : Glsl.oneTree.Gives I inputs frame (.float 1) := by
  have hone : (Quantity.decimal 10 (-1)).single = 1 := by decide
  exact congrArg (fun x => some (Datum.value (.float x))) hone

theorem Gives.field (h : e.Gives I inputs frame v) {word : String} {u : UniformValue}
    (hparts : v.parts? word = some u) : (Expression.field e word).Gives I inputs frame u := by
  rw [Gives, evaluate, h, Option.bind_some, Datum.value?, Option.bind_some, hparts]
  rfl

theorem evaluateAll_eq (h : List.Forall₂ (Gives I inputs frame) es vs) :
    evaluateAll I inputs frame es = some (vs.map Datum.value) := by
  induction h with
  | nil => rfl
  | cons he _ ih =>
    rw [evaluateAll, he, Option.bind_some, ih]
    rfl

theorem mapM_value? (vs : List UniformValue) :
    (vs.map Datum.value).mapM Datum.value? = some vs := by
  induction vs with
  | nil => rfl
  | cons v vs ih =>
    rw [List.map_cons, List.mapM_cons, ih]
    rfl

theorem gives_construct {type : String} {kind : Kind} (hkind : Kind.ofTypeName? type = some kind)
    (h : List.Forall₂ (Gives I inputs frame) es vs)
    (hmake : UniformValue.make? I kind vs = some v) :
    (Expression.construct type [] es).Gives I inputs frame v := by
  rw [Gives, evaluate, hkind, Option.bind_some, evaluateAll_eq h, Option.bind_some, mapM_value?,
    Option.bind_some, hmake]
  rfl

theorem gives_helper {name : String} (hname : frame.locals name = none)
    (h : List.Forall₂ (Gives I inputs frame) es vs)
    (hvalue : Datum.ofHelper? I name (vs.map .value) = some (.value v)) :
    (Expression.call name es).Gives I inputs frame v := by
  rw [Gives, evaluate, hname, evaluateAll_eq h, Option.bind_some, hvalue]
  rfl

end Shader.Expression

/-! ## Statements that have not been left -/

namespace Shader.Statement

variable {I : Interpretation} {inputs : Inputs} {callables : String → Option Callable}
    {frame : Frame}
  {function : String} {es : List Expression}

theorem exec_declare (h : frame.returned = none) (d : Declaration) :
    (declare d).exec I inputs callables frame = declare? frame d :=
  if_neg (Option.not_isSome_iff_eq_none.mpr h)

theorem exec_call (h : frame.returned = none) (hfree : frame.locals function = none)
    (hstore : function ≠ "imageStore") {f : Callable} (hf : callables function = some f) :
    (evaluate (.call function es)).exec I inputs callables frame = call? I inputs f frame es := by
  refine (if_neg (Option.not_isSome_iff_eq_none.mpr h)).trans ?_
  refine (if_neg (Option.not_isSome_iff_eq_none.mpr hfree)).trans ((if_neg hstore).trans ?_)
  rw [hf]
  rfl

theorem exec_leave (h : frame.returned = none) (e : Expression) :
    (leave (some e)).exec I inputs callables frame =
      (e.color? I inputs frame).map fun v => { frame with returned := some v } :=
  if_neg (Option.not_isSome_iff_eq_none.mpr h)

end Shader.Statement

open Shader (Expression Statement evaluateAll execAll)
open Shader.Expression

/-- **Conversions** as they are written do what converting means. -/
theorem Glsl.Conversion.gives_tree {I : Interpretation} {inputs : Inputs} {frame : Frame}
    {e : Expression} {v : UniformValue} (h : e.Gives I inputs frame v) (target : Kind)
    (hhelpers : ∀ name ∈ helperNames, frame.locals name = none) :
    ((Conversion.toward v.kind target).tree e).Gives I inputs frame (v.convert I target) := by
  have hluminance {e : Expression} {x y z : Single} (h : e.Gives I inputs frame (.vec3 x y z)) :
      (Expression.call "rgb_to_float" [e]).Gives I inputs frame (.float (I.luminance x y z)) :=
    gives_helper (hhelpers _ (by decide)) (.cons h .nil) rfl
  cases v with
  | float x =>
    have hfill : (Expression.construct "vec3" [] [e]).Gives I inputs frame (.vec3 x x x) :=
      gives_construct rfl (.cons h .nil) rfl
    cases target with
    | vec2 => exact gives_construct rfl (.cons h (.cons gives_oneTree .nil)) rfl
    | vec3 => exact hfill
    | vec4 => exact gives_construct rfl (.cons hfill (.cons gives_oneTree .nil)) rfl
    | _ => exact h
  | vec2 x y =>
    have hx : (Expression.field e "x").Gives I inputs frame (.float x) := h.field rfl
    have hfill :
        (Expression.construct "vec3" [] [.field e "x"]).Gives I inputs frame (.vec3 x x x) :=
      gives_construct rfl (.cons hx .nil) rfl
    cases target with
    | scalar => exact hx
    | vec3 => exact hfill
    | vec4 => exact gives_construct rfl (.cons hfill (.cons (h.field rfl) .nil)) rfl
    | _ => exact h
  | vec3 x y z =>
    cases target with
    | scalar => exact hluminance h
    | vec2 => exact gives_construct rfl (.cons (hluminance h) (.cons gives_oneTree .nil)) rfl
    | vec4 => exact gives_construct rfl (.cons h (.cons gives_oneTree .nil)) rfl
    | _ => exact h
  | vec4 x y z w =>
    have hxyz : (Expression.field e "xyz").Gives I inputs frame (.vec3 x y z) := h.field rfl
    cases target with
    | scalar => exact gives_helper (hhelpers _ (by decide)) (.cons h .nil) rfl
    | vec2 => exact gives_construct rfl (.cons (hluminance hxyz) (.cons (h.field rfl) .nil)) rfl
    | vec3 => exact hxyz
    | _ => exact h
  | int n => cases target <;> exact h

/-- Zero of a numeric kind. -/
theorem Glsl.Expr.gives_zero {I : Interpretation} {inputs : Inputs} {frame : Frame} {kind : Kind}
    (hkind : kind.isNumeric = true) :
    (Expr.zero kind).tree.Gives I inputs frame (UniformValue.held kind .zero) := by
  cases kind with
  | none => cases hkind
  | image => cases hkind
  | scalar => exact gives_zeroTree
  | _ => exact gives_construct rfl (.cons gives_zeroTree .nil) rfl

/-- Images are converted like the colors that sampling gives. -/
theorem Glsl.Conversion.toward_image (target : Kind) :
    Conversion.toward .image target = Conversion.toward .vec4 target := by
  cases target <;> rfl

namespace Program

open Glsl Builtin UniformValue

/-- The function of an operator in its library, and its entry. -/
theorem exists_operatorFunction (b : Builtin) :
    ∃ f entry, find? (functionsIn b.operator.library) b.operator.function = some f ∧
      f.heading = entry.toHeading ∧ definitionOf b = some entry.text ∧ entry ∈ b.entriesOf ∧
      entry.name = b.operator.function ∧ entry.parameters = b.signature := by
  obtain ⟨entry, hentry, hparameters⟩ := exists_find?_entriesOf b
  have hmem : entry ∈ b.entriesOf := Entry.mem_of_find? hentry
  have hname := Entry.name_of_find? hentry
  rw [entriesOf, find?_entries] at hentry
  obtain ⟨f, hf, hentry⟩ := Option.bind_eq_some_iff.mp hentry
  obtain ⟨text, htext, rfl⟩ := Option.map_eq_some_iff.mp hentry
  refine ⟨f, _, hf, rfl, ?_, hmem, hname, hparameters⟩
  rw [definitionOf, hf, Option.bind_some, htext]

/-- The parameters that are read from the text are those that are known of the operator. -/
theorem readParameters_eq (b : Builtin) : readParameters b = b.inputParameters := by
  obtain ⟨f, entry, hf, hheading, -, -, -, hparameters⟩ := exists_operatorFunction b
  have hcall : f.callParameters = b.signature :=
    (congrArg Heading.parameters hheading).trans hparameters
  have hread : ∀ p ∈ b.inputParameters, decide (p.2.qualifier ≠ .output) = true := by
    intro p hp
    rw [(b.inputParameters_spec p hp).1]
    rfl
  rw [readParameters, hf, Option.map_some, Option.getD_some, hcall, b.signature_eq,
    List.filter_append, List.filter_eq_self.mpr hread]
  exact List.append_nil _

variable {I : Interpretation} {g : Graph Builtin} {order : List Nat} {p : Program}
  {den : Nat → Coord → UniformValue} {c : Coord} {id : Nat} {n : Node Builtin}

/-- A meaning is of the kind of the node. -/
theorem IsDenotation.kind_eq (hden : IsDenotation I g den) (h : Regular g order)
    (hn : g.node? id = some n) (c : Coord) : (den id c).kind = kindOf g id 0 := by
  obtain ⟨s, houtputs, -, hkind⟩ := outputs_of_standard h.standard hn
  rw [hden id n hn, nodeValue, houtputs, List.getElem?_cons_zero, Option.map_some, Option.getD_some,
    hkind, h.kindOf_eq hn]
  exact kind_held n.behavior.outputKind_isNumeric _

/-- What feeds a node is numeric. -/
theorem IsDenotation.isNumeric_source (hden : IsDenotation I g den) (h : Regular g order)
    {connection : Connection} (hc : connection ∈ g.connections) (c : Coord) :
    (den connection.source c).kind.isNumeric = true := by
  obtain ⟨_, _, hn, -⟩ := h.exists_source hc
  rw [hden.kind_eq h hn]
  exact h.kindOf_isNumeric _

/-! ## Names -/

/-- Outputs have names that start in their own way. -/
theorem ne_outputName {w : String} (h : w.toList.take 4 ≠ ['o', 'u', 't', '_']) (m k : Nat) :
    w ≠ outputName m k := by
  rintro rfl
  exact h (by rw [toList_outputName]; rfl)

theorem ne_coordName {w : String} (h : '_' ∈ w.toList) : w ≠ coordName := by
  rintro rfl
  exact absurd h (by decide)

/-- The names that mean something in the template or in the language. -/
def fixedNames : List String := "imageStore" :: "uOutput" :: templateVariables ++ helperNames

theorem fixedNames_ne_outputName {w : String} (hw : w ∈ fixedNames) (m k : Nat) :
    w ≠ outputName m k := by
  have hall : ∀ w ∈ fixedNames, w.toList.take 4 ≠ ['o', 'u', 't', '_'] := by decide
  exact ne_outputName (hall w hw) m k

theorem calleeName_ne_outputName (n : Node Builtin) (m k : Nat) :
    calleeName n ≠ outputName m k := by
  have hall : ∀ b ∈ all, b.operator.function.toList.take 4 ≠ ['o', 'u', 't', '_'] := by decide
  refine ne_outputName ?_ m k
  by_cases hmulti : n.behavior = heightGradient
  · rw [calleeName_multi hmulti, toList_specialisedName]
    exact fun h => absurd (List.cons.inj h).1 (by decide)
  · rw [calleeName_single hmulti]
    exact hall n.behavior n.behavior.mem_all

theorem calleeName_ne_imageStore (n : Node Builtin) : calleeName n ≠ "imageStore" := by
  have hall : ∀ b ∈ all, b.operator.function ≠ "imageStore" := by decide
  by_cases hmulti : n.behavior = heightGradient
  · intro h
    have hletters := congrArg String.toList h
    rw [calleeName_multi hmulti, toList_specialisedName] at hletters
    exact absurd (List.cons.inj hletters).1 (by decide)
  · rw [calleeName_single hmulti]
    exact hall n.behavior n.behavior.mem_all

/-! ## Frames -/

theorem locals_set (frame : Frame) (name : String) (kind : Kind) (value : Option UniformValue) :
    (frame.set name kind value).locals = Function.update frame.locals name (some (kind, value)) :=
  rfl

/-- The frame of a scope at `c` that has declared some outputs and called some nodes. -/
structure Tracks (g : Graph Builtin) (den : Nat → Coord → UniformValue) (c : Coord)
    (declared done : List Nat) (frame : Frame) : Prop where
  coord : frame.coord = c
  called : ∀ m ∈ done, m ∈ declared
  outputs : ∀ m ∈ declared, frame.locals (outputName m 0) =
    some (kindOf g m 0, if m ∈ done then some (den m c) else none)
  others : ∀ name, (∀ m ∈ declared, name ≠ outputName m 0) → frame.locals name = none
  stored : frame.stored = []
  returned : frame.returned = none

variable {declared done : List Nat} {frame : Frame}

theorem tracks_start : Tracks g den c [] [] { coord := c } :=
  ⟨rfl, fun _ h => absurd h List.not_mem_nil, fun _ h => absurd h List.not_mem_nil, fun _ _ => rfl,
    rfl, rfl⟩

theorem Tracks.locals_fixed (ht : Tracks g den c declared done frame) {w : String}
    (hw : w ∈ fixedNames) : frame.locals w = none :=
  ht.others w fun m _ => fixedNames_ne_outputName hw m 0

theorem Tracks.locals_helper (ht : Tracks g den c declared done frame) :
    ∀ name ∈ helperNames, frame.locals name = none := fun _ hname =>
  ht.locals_fixed (List.mem_append_right _ hname)

theorem Tracks.locals_uniform (ht : Tracks g den c declared done frame) (id : Nat) (q : String) :
    frame.locals (uniformName id q) = none :=
  ht.others _ fun m _ => (outputName_ne_uniformName m 0 id q).symm

theorem Tracks.locals_flag (ht : Tracks g den c declared done frame) (id : Nat) (q : String) :
    frame.locals (flagName (uniformName id q)) = none :=
  ht.others _ fun m _ => (outputName_ne_flagName m 0 id q).symm

/-- A written output changes nothing else. -/
theorem Tracks.set (ht : Tracks g den c declared done frame) {m : Nat} (hm : m ∈ declared) :
    Tracks g den c declared (done ++ [m])
      (frame.set (outputName m 0) (kindOf g m 0) (some (den m c))) where
  coord := ht.coord
  called k hk := by
    rcases List.mem_append.mp hk with hk | hk
    · exact ht.called k hk
    · exact List.mem_singleton.mp hk ▸ hm
  outputs k hk := by
    by_cases hsame : k = m
    · subst hsame
      simp [locals_set]
    · have hname : outputName k 0 ≠ outputName m 0 := fun h => hsame (outputName_inj.mp h).1
      simp [locals_set, Function.update_of_ne hname, ht.outputs k hk, hsame]
  others name hname := by
    rw [locals_set, Function.update_of_ne (hname m hm)]
    exact ht.others name hname
  stored := ht.stored
  returned := ht.returned

theorem ofTypeName?_typeName {kind : Kind} (h : kind.isNumeric = true) :
    Kind.ofTypeName? kind.typeName = some kind := by
  cases kind <;> first | rfl | cases h

/-- **A declaration** adds an output that has no value yet. -/
theorem Tracks.declare (ht : Tracks g den c declared [] frame) (h : Regular g order) {m : Nat}
    (hm : m ∉ declared) {inputs : Inputs} {callables : String → Option Callable} :
    ∃ frame', Statement.exec I inputs callables frame
        (Line.declare (kindOf g m 0) (outputName m 0)).tree = some frame' ∧
      Tracks g den c (declared ++ [m]) [] frame' := by
  have hfresh : ∀ k ∈ declared, outputName m 0 ≠ outputName k 0 := fun k hk h =>
    hm ((outputName_inj.mp h).1 ▸ hk)
  have hfree : ¬ ((frame.locals (outputName m 0)).isSome = true ∨
      outputName m 0 ∈ templateVariables) := by
    rw [ht.others _ hfresh]
    rintro (hlocal | htemplate)
    · cases hlocal
    · exact fixedNames_ne_outputName (by simp [fixedNames, htemplate]) m 0 rfl
  have hkind :
      (Kind.ofTypeName? (kindOf g m 0).typeName).filter (·.isNumeric) = some (kindOf g m 0) := by
    rw [ofTypeName?_typeName (h.kindOf_isNumeric m), Option.filter_some,
      if_pos (h.kindOf_isNumeric m)]
  refine ⟨frame.set (outputName m 0) (kindOf g m 0) none, ?_, ?_⟩
  · have hdeclare : Shader.declare? frame (.variableList {} (Shader.Parse.typeNamed
        (kindOf g m 0).typeName) [⟨outputName m 0, [], none⟩]) = _ := if_neg hfree
    rw [hkind] at hdeclare
    rw [Line.tree, Statement.exec_declare ht.returned]
    exact hdeclare
  · refine ⟨ht.coord, fun _ hk => absurd hk List.not_mem_nil, fun k hk => ?_, fun name hname => ?_,
      ht.stored, ht.returned⟩
    · rcases List.mem_append.mp hk with hk | hk
      · rw [locals_set, Function.update_of_ne (hfresh k hk).symm, ht.outputs k hk]
      · rw [List.mem_singleton.mp hk, locals_set, Function.update_self, if_neg List.not_mem_nil]
    · have hother := hname m (List.mem_append_right _ (List.mem_singleton_self m))
      rw [locals_set, Function.update_of_ne hother]
      exact ht.others name fun k hk => hname k (List.mem_append_left _ hk)

theorem execAll_declarations (I : Interpretation) (inputs : Inputs)
    (callables : String → Option Callable) (h : Regular g order) {ids : List Nat} :
    ∀ {declared : List Nat} {frame : Frame}, Tracks g den c declared [] frame →
      (declared ++ ids).Nodup →
      ∃ frame', execAll I inputs callables frame
          ((ids.map fun id => Line.declare (kindOf g id 0) (outputName id 0)).map Line.tree) =
            some frame' ∧
        Tracks g den c (declared ++ ids) [] frame' := by
  induction ids with
  | nil =>
    intro declared frame ht _
    rw [List.append_nil]
    exact ⟨frame, rfl, ht⟩
  | cons id ids ih =>
    intro declared frame ht hnodup
    have hid : id ∉ declared := fun hid =>
      (List.nodup_append.mp hnodup).2.2 id hid id List.mem_cons_self rfl
    rw [List.append_cons] at hnodup ⊢
    obtain ⟨between, hstep, ht⟩ := ht.declare h hid
    obtain ⟨frame', hrun, ht⟩ := ih ht hnodup
    refine ⟨frame', ?_, ht⟩
    rw [execAll, List.map_cons, List.map_cons, List.foldlM_cons, hstep]
    exact hrun

/-! ## Expressions -/

/-- The coordinate of the scope. -/
theorem Tracks.gives_coord (ht : Tracks g den c declared done frame) {inputs : Inputs} :
    Expr.coord.tree.Gives I inputs frame (ofCoord c) := by
  rw [Gives, Expr.tree, evaluate, Frame.lookup, ht.locals_fixed (w := coordName) (by decide),
    ht.coord]
  rfl

/-- The output of a node that has been called. -/
theorem Tracks.gives_fetched (ht : Tracks g den c declared done frame) (h : Regular g order)
    (hden : IsDenotation I g den) {inputs : Inputs} {m : Nat} {k : Node Builtin}
    (hk : g.node? m = some k) (hdone : m ∈ done) (kind : Kind) :
    (fetched g kind m 0).tree.Gives I inputs frame ((den m c).convert I kind) := by
  have hvalue : (Expression.variable (outputName m 0)).Gives I inputs frame (den m c) := by
    rw [Gives, evaluate, Frame.lookup, ht.outputs m (ht.called m hdone), if_pos hdone]
    rfl
  rw [fetched, Expr.tree, ← hden.kind_eq h hk c]
  exact Conversion.gives_tree hvalue kind ht.locals_helper

/-- A uniform that holds a value. -/
theorem Tracks.gives_uniform (ht : Tracks g den c declared done frame) {inputs : Inputs}
    {q : String} {v : UniformValue} (hv : inputs.uniform (uniformName id q) = some v) :
    (Expression.variable (uniformName id q)).Gives I inputs frame v := by
  rw [Gives, evaluate, Frame.lookup, ht.locals_uniform]
  simp only [if_neg (ne_coordName (underscore_mem_uniformName id q)), hv]

section Arguments

-- the call of a node whose sources have been called
variable (ht : Tracks g den c declared done frame) (h : Regular g order)
    (hden : IsDenotation I g den)
  (hn : g.node? id = some n)
  (hsources : ∀ connection ∈ g.connections, connection.destination = id → connection.source ∈ done)
include ht h hden hn hsources

/-- What a connection brings to the node. -/
theorem Tracks.gives_feeder {inputs : Inputs} {connection : Connection}
    (hc : connection ∈ g.connections ∧ connection.destination = n.id) {kind : Kind}
    (hkind : kind.isNumeric = true) :
    (fetched g kind connection.source connection.output).tree.Gives I inputs frame
        ((den connection.source c).convert I kind) ∧
      ((den connection.source c).convert I kind).kind = kind := by
  obtain ⟨_, _, hk, -⟩ := h.exists_source hc.1
  have hdone := hsources connection hc.1 (hc.2.trans (h.id_eq hn))
  rw [h.output_eq hc.1]
  exact ⟨ht.gives_fetched h hden hk hdone kind,
    kind_convert I (hden.isNumeric_source h hc.1 c) hkind⟩

theorem Tracks.gives_position {inputs : Inputs} :
    (position g n).tree.Gives I inputs frame (ofCoord (samplePosition I g den n c)) := by
  rw [position, samplePosition]
  cases hfeeder : feeder? g n coordInput with
  | none => exact ht.gives_coord
  | some connection =>
    have hc := feeder?_spec hfeeder
    have hfetched :
        (fetched g .vec2 connection.source connection.output).tree.Gives I inputs frame _ :=
      (ht.gives_feeder h hden hn hsources hc rfl).1
    rw [← ofCoord_toCoord I (hden.isNumeric_source h hc.1 c)] at hfetched
    exact hfetched

/-- An image parameter, sampled. -/
theorem Tracks.gives_sample (hp : Blueprint g order p) {q : Param} (hq : q ∈ n.params)
    (himage : q.kind = .image) :
    (Expr.sample (uniformName id q.name) (position g n)).tree.Gives I (p.inputs g) frame
      (sampled I q (samplePosition I g den n c)) := by
  -- no variable hides the image or its flag
  have hbound : (Expression.variable (uniformName id q.name)).evaluate I (p.inputs g) frame =
      some (.image q.image) := by
    rw [evaluate, Frame.lookup, ht.locals_uniform]
    simp only [if_neg (ne_coordName (underscore_mem_uniformName id q.name)),
      hp.uniform_eq_none h hn hq himage, hp.image_eq h hn hq himage]
    rfl
  have hflag : (Expression.variable (flagName (uniformName id q.name))).Gives I (p.inputs g) frame
      (.int (if q.image.isSome then 1 else 0)) := by
    rw [Gives, evaluate, Frame.lookup, ht.locals_flag]
    simp only [if_neg (ne_coordName (underscore_mem_flagName _)), hp.flag_eq h hn hq himage]
  have hfactor :
      (Expression.construct "float" [] [.variable (flagName (uniformName id q.name))]).Gives
      I (p.inputs g) frame (.float (I.number (if q.image.isSome then 1 else 0))) :=
    gives_construct rfl (.cons hflag .nil) rfl
  have hposition : (position g n).tree.Gives I (p.inputs g) frame _ :=
    ht.gives_position h hden hn hsources
  rw [Gives] at hposition hfactor
  have hsize :
      (Expression.call "imageSize" [.variable (uniformName id q.name)]).evaluate I (p.inputs g)
      frame = some (.texels (I.size q.image)) := by
    rw [evaluate, ht.locals_helper "imageSize" (by decide), evaluateAll, hbound]
    rfl
  have htexel : (Expression.call "uv_to_texel" [(position g n).tree,
      .call "imageSize" [.variable (uniformName id q.name)]]).evaluate I (p.inputs g) frame =
      some (.texels (I.texelAt (samplePosition I g den n c) (I.size q.image))) := by
    rw [evaluate, ht.locals_helper "uv_to_texel" (by decide), evaluateAll, hposition, evaluateAll,
      hsize]
    rfl
  have hload : (Expression.call "imageLoad" [.variable (uniformName id q.name),
      .call "uv_to_texel" [(position g n).tree,
        .call "imageSize" [.variable (uniformName id q.name)]]]).evaluate I (p.inputs g) frame =
      some (.value (held .vec4 (I.load q.image
        (I.texelAt (samplePosition I g den n c) (I.size q.image))))) := by
    rw [evaluate, ht.locals_helper "imageLoad" (by decide), evaluateAll, hbound, evaluateAll,
      htexel]
    rfl
  rw [Gives, Expr.tree, evaluate, if_pos rfl, hload, Option.bind_some, hfactor, Option.bind_some]
  rfl

/-- **Arguments.** -/
theorem Tracks.gives_argumentOf (hp : Blueprint g order p) (binding : Binding) {kind : Kind}
    (hkind : kind.isNumeric = true) :
    (argumentOf g n binding kind).tree.Gives I (p.inputs g) frame
        (argumentValue I g den n binding kind c) ∧
      (argumentValue I g den n binding kind c).kind = kind := by
  rw [argumentOf, argumentValue]
  cases hfeeder : feeder? g n binding.name with
  | some connection => exact ht.gives_feeder h hden hn hsources (feeder?_spec hfeeder) hkind
  | none =>
    cases hparam : n.param? binding.name with
    | none =>
      dsimp only
      split_ifs
      · exact ⟨Conversion.gives_tree ht.gives_coord kind ht.locals_helper, kind_convert I rfl hkind⟩
      · exact ⟨Expr.gives_zero hkind, kind_held hkind _⟩
    | some q =>
      have hq : q ∈ n.params := List.mem_of_find?_eq_some hparam
      dsimp only
      rw [h.id_eq hn]
      split_ifs with himage
      · rw [Conversion.toward_image]
        have hsample := ht.gives_sample h hden hn hsources hp hq himage
        exact ⟨Conversion.gives_tree hsample kind ht.locals_helper, kind_convert I rfl hkind⟩
      · have hnumeric := Kind.isNumeric_of_ne (h.param_kind hn hq) himage
        have hheld := kind_held hnumeric q.value
        have hvalue : (Expression.variable (uniformName id q.name)).Gives I (p.inputs g) frame _ :=
          ht.gives_uniform (hp.uniform_eq h hn hq himage)
        have hconverted := Conversion.gives_tree hvalue kind ht.locals_helper
        rw [hheld] at hconverted
        exact ⟨hconverted, kind_convert I (hheld.symm ▸ hnumeric) hkind⟩

end Arguments

/-! ## Calls -/

/-- Arguments that are read, followed by a variable that is written. -/
theorem arguments?_append {inputs : Inputs} {ps : List (String × Parameter)}
    {expression : String × Parameter → Expression} {value : String × Parameter → UniformValue}
    (hps : ∀ q ∈ ps, q.2.qualifier = .input ∧ (expression q).Gives I inputs frame (value q) ∧
      (value q).kind = q.2.kind)
    {name : String} {kind : Kind} {old : Option UniformValue}
    (hname : frame.locals name = some (kind, old)) :
    Shader.arguments? I inputs frame
        (ps.map (fun q => (q.2.qualifier, q.2.kind)) ++ [(Qualifier.output, kind)])
        (ps.map expression ++ [Expression.variable name]) =
        some (ps.map value, [(name, kind)]) := by
  induction ps with
  | nil => simp [Shader.arguments?, hname]
  | cons q ps ih =>
    rw [List.forall_mem_cons] at hps
    obtain ⟨⟨hinput, hgives, hkind⟩, hps⟩ := hps
    simp only [List.map_cons, List.cons_append, hinput]
    rw [Shader.arguments?, hgives.value?_eq]
    · simp only [hkind, if_true, ih hps, Option.map_some]
    · simp
    · simp

/-- A function with the parameters that its definition has. -/
def callable (parameters : List (String × Parameter)) (run : List UniformValue → Value) :
    Callable :=
  ⟨parameters.map fun q => (q.2.qualifier, q.2.kind), run⟩

/-- What is known under the name of the function of a node. -/
def callableOf (I : Interpretation) (g : Graph Builtin) (den : Nat → Coord → UniformValue)
    (n : Node Builtin) : Callable :=
  callable n.behavior.signature (nodeFunction I g den n)

/-- The functions of some nodes are known. -/
def Knows (I : Interpretation) (g : Graph Builtin) (den : Nat → Coord → UniformValue)
    (callables : String → Option Callable) (ids : List Nat) : Prop :=
  ∀ id ∈ ids, ∀ n, g.node? id = some n → callables (calleeName n) = some (callableOf I g den n)

/-- **A call** writes what the node means. -/
theorem Tracks.call (ht : Tracks g den c declared done frame) (h : Regular g order)
    (hp : Blueprint g order p) (hden : IsDenotation I g den) (hn : g.node? id = some n)
    (hsources : ∀ connection ∈ g.connections, connection.destination = id →
      connection.source ∈ done)
    (hid : id ∈ declared) {callables : String → Option Callable}
    (hcallable : callables (calleeName n) = some (callableOf I g den n)) :
    ∃ frame', Statement.exec I (p.inputs g) callables frame
        (Line.call (calleeName n) (argumentsOf g n)).tree = some frame' ∧
      Tracks g den c declared (done ++ [id]) frame' := by
  refine ⟨_, ?_, ht.set hid⟩
  have harguments : Shader.arguments? I (p.inputs g) frame (callableOf I g den n).parameters
      ((argumentsOf g n).map Expr.tree) =
      some (n.behavior.inputParameters.map fun q =>
        argumentValue I g den n (n.behavior.operator.binding q.1) q.2.kind c,
        [(outputName id 0, kindOf g id 0)]) := by
    have houtput := ht.outputs id hid
    rw [h.kindOf_eq hn] at houtput
    rw [callableOf, callable, n.behavior.signature_eq, List.map_append, argumentsOf,
      List.map_append, List.map_map, h.id_eq hn, h.kindOf_eq hn]
    refine arguments?_append (fun q hq => ?_) houtput
    obtain ⟨hinput, hnumeric⟩ := n.behavior.inputParameters_spec q hq
    exact ⟨hinput, ht.gives_argumentOf h hden hn hsources hp _ hnumeric⟩
  have hvalue : den id c = held (kindOf g id 0) (nodeFunction I g den n
      (n.behavior.inputParameters.map fun q =>
        argumentValue I g den n (n.behavior.operator.binding q.1) q.2.kind c)) := by
    obtain ⟨s, houtputs, -, hkind⟩ := outputs_of_standard h.standard hn
    rw [hden id n hn, nodeValue, houtputs, readParameters_eq, h.kindOf_eq hn, ← hkind]
    rfl
  have hfree : frame.locals (calleeName n) = none :=
    ht.others _ fun m _ => calleeName_ne_outputName n m 0
  rw [Line.tree, Statement.exec_call ht.returned hfree (calleeName_ne_imageStore n) hcallable,
    Shader.call?, harguments]
  simp only [ofValue?_eq (h.kindOf_isNumeric id), Option.map_some]
  rw [hvalue]
  rfl

/-! ## Scopes -/

section Scopes

variable (h : Regular g order) (hp : Blueprint g order p) (hden : IsDenotation I g den)
  {callables : String → Option Callable} {ids : List Nat} (hknows : Knows I g den callables ids)
  (hids : ∀ id ∈ ids, id ∈ order) (hclosed : Closed g ids)
include h hp hden hknows hids hclosed

/-- The calls that are left, when the outputs of the nodes of `done` have been written. -/
theorem execAll_calls : ∀ {rest done : List Nat} {frame : Frame}, done ++ rest = ids →
    Tracks g den c ids done frame →
      ∃ frame', execAll I (p.inputs g) callables frame ((rest.flatMap (calls g)).map Line.tree) =
          some frame' ∧ Tracks g den c ids ids frame' := by
  intro rest
  induction rest with
  | nil =>
    intro done frame hsplit ht
    rw [List.append_nil] at hsplit
    exact ⟨frame, rfl, hsplit ▸ ht⟩
  | cons id rest ih =>
    intro done frame hsplit ht
    have hid : id ∈ ids := by
      rw [← hsplit]
      simp
    obtain ⟨n, hn⟩ := h.exists_node (hids id hid)
    -- what feeds the node stands before it, so it has been called
    obtain ⟨between, hstep, ht⟩ :=
      ht.call h hp hden hn (hclosed done id rest hsplit.symm) hid (hknows id hid n hn)
    obtain ⟨frame', hrun, ht⟩ := ih (by rw [List.append_assoc]; exact hsplit) ht
    refine ⟨frame', ?_, ht⟩
    rw [execAll, List.flatMap_cons, calls_eq hn, List.singleton_append, List.map_cons,
      List.foldlM_cons, hstep]
    exact hrun

/-- **Scopes**, up to the last statement. -/
theorem execAll_scope (hnodup : ids.Nodup) (c : Coord) (last : Line) :
    ∃ frame, Tracks g den c ids ids frame ∧
      execAll I (p.inputs g) callables { coord := c } ((scope g ids last).map Line.tree) =
        last.tree.exec I (p.inputs g) callables frame := by
  obtain ⟨declared, hdeclare, ht⟩ :=
    execAll_declarations I (p.inputs g) callables h tracks_start hnodup
  obtain ⟨frame, hcalls, ht⟩ := execAll_calls h hp hden hknows hids hclosed rfl ht
  refine ⟨frame, ht, ?_⟩
  rw [execAll, scope, h.flatMap_declarations hids, List.map_append, List.map_append,
    List.foldlM_append, List.foldlM_append]
  rw [execAll] at hdeclare hcalls
  rw [hdeclare, Option.bind_eq_bind, Option.bind_some, hcalls, Option.bind_some]
  simp

/-- A subtree function returns what the first connected input of its node gets. -/
theorem returned_scope (hnodup : ids.Nodup)
    (hfirst : ∀ connection, firstFeeder? g n = some connection → connection.source ∈ ids)
    (c : Coord) :
    ∃ frame, execAll I (p.inputs g) callables { coord := c }
        ((scope g ids (.ret (returned g n))).map Line.tree) = some frame ∧
      frame.stored = [] ∧ frame.returned = some (subtreeValue I g den n c) := by
  obtain ⟨frame, ht, hrun⟩ :=
    execAll_scope h hp hden hknows hids hclosed hnodup c (.ret (returned g n))
  have hgives : (returned g n).tree.Gives I (p.inputs g) frame (subtreeValue I g den n c) ∧
      (subtreeValue I g den n c).kind = .vec4 := by
    rw [returned, subtreeValue]
    cases hc : firstFeeder? g n with
    | none => exact ⟨Expr.gives_zero rfl, kind_held rfl _⟩
    | some connection =>
      obtain ⟨_, _, hk, -⟩ := h.exists_source (firstFeeder?_spec hc).1
      have hnumeric := hden.isNumeric_source h (firstFeeder?_spec hc).1 c
      rw [Option.map_some, Option.getD_some, h.output_eq (firstFeeder?_spec hc).1]
      exact ⟨ht.gives_fetched h hden hk (hfirst connection hc) .vec4, kind_convert I hnumeric rfl⟩
  refine ⟨{ frame with returned := some (subtreeValue I g den n c) }, ?_, ht.stored, rfl⟩
  rw [hrun, Line.tree, Statement.exec_leave ht.returned, hgives.1.color?_eq hgives.2]
  rfl

end Scopes

end Program
end Texel
