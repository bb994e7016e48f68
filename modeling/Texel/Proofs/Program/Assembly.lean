import Texel.Proofs.Glsl.Closure
import Texel.Proofs.Program.Generation
import Texel.Proofs.Program.Values

/-!
# Texel — what a program is put together from

Nothing is known here of the operators of a graph: their libraries are any texts, and generation may
fail in many ways. When it does not, every piece of the program can be traced back. A definition has
been copied from the text that the libraries made up when its turn came, and a call was written with
the parameters that the function had in that text.

* **`contribution`**, **`sources`**, **`libraryOf`** — the text of the libraries, as it grows with
  the nodes that have been called.
* **`Declared`** — the draft in the first pass.
* **`Assembled`** — the draft in the second pass; **`Assembled.call`** is the step.
* **`Assembly`**, **`assembly_of_generate`** — what is known of every program.
-/

namespace Texel

/-! ## Emitters -/

namespace Glsl

namespace Emitter

theorem uniforms_written (e : Emitter) (lines : List Line) :
    (e.written lines).uniforms = e.uniforms := by
  unfold written
  cases e.blocks <;> rfl

theorem definitions_written (e : Emitter) (lines : List Line) :
    (e.written lines).definitions = e.definitions := by
  unfold written
  cases e.blocks <;> rfl

theorem copied_written (e : Emitter) (lines : List Line) (es : List Entry) (q : List String) :
    (e.written lines).copied es q = (e.copied es q).written lines := by
  unfold written copied
  cases e.blocks <;> rfl

theorem copied_copied (e : Emitter) (es fs : List Entry) (q r : List String) :
    (e.copied es q).copied fs r = e.copied (es ++ fs) r := by
  simp [copied]

theorem closeBlock_cases {e e' : Emitter} (h : (closeBlock .definitions).Returns e () e') :
    ∃ block outer, e.blocks = block :: outer ∧ e' = { e with
      blocks := outer
      definitions := e.definitions ++ [.block block.signature block.lines] } := by
  obtain ⟨_, _, hstate, hrest⟩ := h.of_bind
  obtain ⟨rfl, rfl⟩ := hstate.of_state
  cases hblocks : e.blocks with
  | nil => rw [hblocks] at hrest; cases hrest.1
  | cons block outer =>
    rw [hblocks] at hrest
    exact ⟨block, outer, rfl, hrest.of_update⟩

end Emitter

/-- The name and the type that a declaration gives. -/
def UniformDecl.declares : UniformDecl → String × String
  | .image name _ => (name, Kind.image.typeName)
  | .member name typeName => (name, typeName)

end Glsl

namespace Program

open Glsl

variable {β : Type} {g : Graph β} {order done : List Nat} {id : Nat} {n : Node β} {d d' : Draft}

/-! ## Steps that have returned -/

theorem nodeOf_cases (h : (nodeOf g id).Returns d n d') : g.node? id = some n ∧ d = d' :=
  h.of_ofOption

theorem emitting_cases {α : Type} {x : Action Emitter CodeError α} {a : α}
    (h : (emitting x).Returns d a d') :
    ∃ e, x.Returns d.emitter a e ∧ d' = { d with emitter := e } :=
  h.of_within

theorem append_cases {line : Line} (h : (emitting (Emitter.append line)).Returns d () d') :
    d' = d.written [line] :=
  h.2.symm.trans (append_returns line d).2

theorem written_written (d : Draft) (lines more : List Line) :
    (d.written lines).written more = d.written (lines ++ more) := by
  rw [Draft.written, Draft.written, Draft.written, Emitter.written_written]

theorem declareVariables_cases {name : Socket → String} {sockets : List Socket}
    (h : (Action.each (fun s => emitting (Emitter.declareVariable s.kind (name s))) sockets).Returns
      d () d') : d' = d.written (sockets.map fun s => .declare s.kind.held (name s)) := by
  induction sockets generalizing d with
  | nil => rw [← h.of_pure.2, List.map_nil, Draft.written, Emitter.written_nil]
  | cons s sockets ih =>
    obtain ⟨_, d₁, hs, hrest⟩ := h.of_bind
    replace hs : (emitting (Emitter.declareVariable s.kind (name s))).Returns d () d₁ := hs
    have hfirst : d₁ = d.written [.declare s.kind.held (name s)] := by
      rw [Emitter.declareVariable] at hs
      split_ifs at hs
      · exact append_cases hs
      · cases hs.1
    rw [ih hrest, hfirst, written_written, List.map_cons, List.singleton_append]

theorem declareOutputs_cases (h : (declareOutputs g id).Returns d () d') :
    d' = d.written (declarations g id) := by
  obtain ⟨n, _, hnode, h⟩ := h.of_bind
  obtain ⟨hn, rfl⟩ := nodeOf_cases hnode
  rw [declarations_eq hn]
  exact declareVariables_cases h

theorem declareAll_cases {ids : List Nat}
    (h : (Action.each (declareOutputs g) ids).Returns d () d') :
    d' = d.written (ids.flatMap (declarations g)) := by
  refine Action.Returns.of_each (P := fun before x =>
    x = d.written (before.flatMap (declarations g)))
    (fun before id _ _ x x' hx hdeclare => ?_) ?_ h
  · rw [declareOutputs_cases hdeclare, hx, written_written, List.flatMap_append,
      List.flatMap_singleton]
  · rw [List.flatMap_nil, Draft.written, Emitter.written_nil]

/-- The names and types that the uniforms of a parameter have. -/
def declared (id : Nat) (q : Param) : List (String × String) :=
  let uniform := uniformName id q.name
  if q.kind = .image then [(uniform, q.kind.typeName), (flagName uniform, "int")]
  else [(uniform, q.kind.typeName)]

theorem map_declares_of_isUpload {q : Param} {u : Upload} (h : IsUpload (id, q) u) :
    (Upload.uniforms u).map UniformDecl.declares = declared id q := by
  cases h with
  | value hkind => simp [Upload.uniforms, UniformDecl.declares, declared, hkind]
  | image hkind slot => simp [Upload.uniforms, UniformDecl.declares, declared, hkind]

/-- What has no value cannot be declared. -/
theorem declareParam_kind {q : Param} (h : (declareParam id q).Returns d () d') :
    q.kind ≠ .none := by
  intro hnone
  rw [declareParam, hnone] at h
  obtain ⟨_, _, hdeclare, _⟩ := h.of_bind
  cases hdeclare.1

theorem declareVariable_kind {kind : Kind} {name : String}
    (h : (emitting (Emitter.declareVariable kind name)).Returns d () d') : kind ≠ .none := by
  rintro rfl
  obtain ⟨_, hdeclare, _⟩ := emitting_cases h
  cases hdeclare.1

theorem declareParam_cases {q : Param} (h : (declareParam id q).Returns d () d') :
    ∃ us next, d' = d.uploading us next ∧
      (us.flatMap Upload.uniforms).map UniformDecl.declares = declared id q := by
  obtain ⟨u, count, hu, _, hreturns⟩ := declareParam_returns id (declareParam_kind h) d
  refine ⟨[u], _, h.2.symm.trans hreturns.2, ?_⟩
  rw [List.flatMap_singleton, map_declares_of_isUpload hu]

theorem declareParams_cases {qs : List Param}
    (h : (Action.each (declareParam id) qs).Returns d () d') :
    ∃ us next, d' = d.uploading us next ∧
      (us.flatMap Upload.uniforms).map UniformDecl.declares = qs.flatMap (declared id) := by
  induction qs generalizing d with
  | nil =>
    refine ⟨[], d.nextSlot, ?_, rfl⟩
    rw [← h.of_pure.2]
    simp [Draft.uploading]
  | cons q qs ih =>
    obtain ⟨_, d₁, hq, hqs⟩ := h.of_bind
    obtain ⟨us, next, rfl, hus⟩ := declareParam_cases hq
    obtain ⟨more, next', rfl, hmore⟩ := ih hqs
    refine ⟨us ++ more, next', ?_, ?_⟩
    · simp [Draft.uploading]
    · rw [List.flatMap_append, List.map_append, hus, hmore, List.flatMap_cons]

theorem node?_of_mem (hwell : g.WellFormed) (hn : n ∈ g.nodes) : g.node? n.id = some n := by
  obtain ⟨i, hi, hget⟩ := List.getElem_of_mem hn
  have hn' : g.nodes[i]? = some n := List.getElem?_eq_some_iff.mpr ⟨hi, hget⟩
  obtain rfl := hwell.ids i n hn'
  exact hn'

theorem eq_of_id (hwell : g.WellFormed) {m : Node β} (hn : n ∈ g.nodes) (hm : m ∈ g.nodes)
    (hid : n.id = m.id) : n = m := by
  have h := node?_of_mem hwell hn
  rw [hid, node?_of_mem hwell hm] at h
  exact (Option.some.inj h).symm

theorem mem_order (hwell : g.WellFormed) (horder : g.IsEvaluationOrder order) (hn : n ∈ g.nodes) :
    n.id ∈ order :=
  (horder.mem_iff _).mpr (List.getElem?_eq_some_iff.mp (node?_of_mem hwell hn)).1

theorem exists_node (horder : g.IsEvaluationOrder order) (hid : id ∈ order) :
    ∃ n, g.node? id = some n :=
  ⟨_, List.getElem?_eq_getElem ((horder.mem_iff id).mp hid)⟩

/-- What feeds a node has had its turn. -/
theorem mem_done_of_ancestor (hwell : g.WellFormed) (horder : g.IsEvaluationOrder order)
    {rest : List Nat} (hsplit : done ++ id :: rest = order) {m : Nat} (hm : m ∈ g.ancestors id) :
    m ∈ done := by
  have hlt := horder.lt_of_transGen ((Graph.mem_ancestors_iff hwell).mp hm).2
  by_contra hdone
  rw [← hsplit, List.idxOf_append_of_notMem (horder.notMem_done hsplit),
    List.idxOf_append_of_notMem hdone, List.idxOf_cons_self] at hlt
  omega

/-! ## The text of the libraries -/

variable [Operable β]

def operatorOf (n : Node β) : Operator := Operable.operator n.behavior

/-- What a node adds to the text of the libraries. -/
def contribution (n : Node β) : String :=
  let op := operatorOf n
  if op.multiPass then
    rename (rename op.library placeholder (subtreeName n.id)) op.function
      (specialisedName op.function n.id) ++ "\n"
  else op.library ++ "\n"

/-- A single-pass node adds its library if none has been added for its function. -/
def addSupplier (found : List (Node β)) (n : Node β) : List (Node β) :=
  if (operatorOf n).multiPass ∨ (operatorOf n).function ∈ found.map (operatorOf · |>.function) then
    found
  else found ++ [n]

/-- The single-pass nodes whose libraries are added. -/
def suppliers (g : Graph β) (ids : List Nat) : List (Node β) :=
  (ids.filterMap g.node?).foldl addSupplier []

def multiPassNodes (g : Graph β) (ids : List Nat) : List (Node β) :=
  (ids.filterMap g.node?).filter fun n => (operatorOf n).multiPass

/-- The nodes whose contributions make up the text once the nodes `done` have been called. -/
def sources (g : Graph β) (order done : List Nat) : List (Node β) :=
  suppliers g order ++ multiPassNodes g done

def libraryOf (ns : List (Node β)) : String := String.join (ns.map contribution)

theorem libraryOf_concat (ns : List (Node β)) (n : Node β) :
    libraryOf (ns ++ [n]) = libraryOf ns ++ contribution n := by
  rw [libraryOf, List.map_append, List.map_singleton, String.join_append, libraryOf]
  simp

theorem suppliers_concat (hn : g.node? id = some n) :
    suppliers g (done ++ [id]) = addSupplier (suppliers g done) n := by
  rw [suppliers, List.filterMap_append, List.foldl_append]
  simp [hn, suppliers]

theorem multiPassNodes_concat (hn : g.node? id = some n) :
    multiPassNodes g (done ++ [id]) =
      multiPassNodes g done ++ if (operatorOf n).multiPass then [n] else [] := by
  rw [multiPassNodes, List.filterMap_append, List.filter_append]
  by_cases hmulti : (operatorOf n).multiPass = true <;> simp [multiPassNodes, hn, hmulti]

/-! ## The first pass -/

/-- The draft in the first pass. -/
structure Declared (g : Graph β) (done : List Nat) (d : Draft) : Prop where
  library : d.library = libraryOf (suppliers g done)
  included : ∀ f, f ∈ d.included ↔ f ∈ (suppliers g done).map (operatorOf · |>.function)
  uniforms : ∀ x, x ∈ d.emitter.uniforms.map UniformDecl.declares ↔
    ∃ id ∈ done, ∃ n, g.node? id = some n ∧ ∃ q ∈ n.params, x ∈ declared id q
  body : d.emitter.body = (done.flatMap (declarations g)).map .line
  blocks : d.emitter.blocks = []
  definitions : d.emitter.definitions = []
  pasted : d.emitter.pasted = []

theorem Declared.collect (hd : Declared g done d) (hn : g.node? id = some n)
    (h : (collectLibrary g id).Returns d () d') :
    d'.emitter = d.emitter ∧ d'.library = libraryOf (suppliers g (done ++ [id])) ∧
      ∀ f, f ∈ d'.included ↔ f ∈ (suppliers g (done ++ [id])).map (operatorOf · |>.function) := by
  have hoperator :
      (g.node? id).map (fun n => Operable.operator n.behavior) = some (operatorOf n) := by
    rw [hn]
    rfl
  rw [collectLibrary, hoperator] at h
  simp only at h
  rw [suppliers_concat hn]
  split_ifs at h with hmulti
  · have hsame : addSupplier (suppliers g done) n = suppliers g done := if_pos (Or.inl hmulti)
    obtain rfl := h.of_pure.2
    rw [hsame]
    exact ⟨rfl, hd.library, hd.included⟩
  · have hd' := h.of_update
    by_cases hold : d.included.contains (operatorOf n).function = true
    · have hsame : addSupplier (suppliers g done) n = suppliers g done :=
        if_pos (Or.inr ((hd.included _).mp (List.contains_iff_mem.mp hold)))
      rw [if_pos hold] at hd'
      rw [hd', hsame]
      exact ⟨rfl, hd.library, hd.included⟩
    · have hnew : (operatorOf n).function ∉ (suppliers g done).map (operatorOf · |>.function) :=
        fun hmem => hold (List.contains_iff_mem.mpr ((hd.included _).mpr hmem))
      have hmore : addSupplier (suppliers g done) n = suppliers g done ++ [n] :=
        if_neg (not_or.mpr ⟨hmulti, hnew⟩)
      rw [if_neg hold] at hd'
      rw [hd', hmore]
      refine ⟨rfl, ?_, ?_⟩
      · have hown : contribution n = (operatorOf n).library ++ "\n" := if_neg hmulti
        show d.library ++ (operatorOf n).library ++ "\n" = _
        rw [libraryOf_concat, hown, hd.library, String.append_assoc]
      · intro f
        rw [List.map_append, List.mem_append, ← hd.included f, List.map_singleton,
          List.mem_singleton]
        show f ∈ _ :: d.included ↔ _
        rw [List.mem_cons, or_comm]

theorem Draft.emitter_uploading (d : Draft) (us : List Upload) (next : Nat) :
    (d.uploading us next).emitter =
      { d.emitter with uniforms := d.emitter.uniforms ++ us.flatMap Upload.uniforms } := rfl

/-- **The first pass**, one node. -/
theorem Declared.step (hd : Declared g done d)
    (h : (do
      collectLibrary g id
      declareUniforms g id
      declareOutputs g id : Generation Unit).Returns d () d') :
    Declared g (done ++ [id]) d' := by
  obtain ⟨_, d₁, hcollect, h⟩ := h.of_bind
  obtain ⟨_, d₂, huniforms, houtputs⟩ := h.of_bind
  obtain ⟨n, _, hnode, hparams⟩ := huniforms.of_bind
  obtain ⟨hn, rfl⟩ := nodeOf_cases hnode
  obtain ⟨hemitter, hlibrary, hincluded⟩ := hd.collect hn hcollect
  obtain ⟨us, next, rfl, hus⟩ := declareParams_cases hparams
  obtain rfl := declareOutputs_cases houtputs
  -- nothing is open, so the declarations go to the body
  have hframe : ((d₁.uploading us next).written (declarations g id)).emitter =
      { d.emitter with
        uniforms := d.emitter.uniforms ++ us.flatMap Upload.uniforms
        body := d.emitter.body ++ (declarations g id).map .line } := by
    have hclosed : (d₁.uploading us next).emitter.blocks = [] := by
      rw [Draft.emitter_uploading, hemitter]
      exact hd.blocks
    show (d₁.uploading us next).emitter.written _ = _
    rw [Emitter.written_of_closed hclosed, Draft.emitter_uploading, hemitter]
  refine ⟨hlibrary, hincluded, fun x => ?_, ?_, ?_, ?_, ?_⟩
  · rw [hframe, List.map_append, List.mem_append, hd.uniforms, hus, List.mem_flatMap]
    constructor
    · rintro (⟨m, hm, rest⟩ | hq)
      · exact ⟨m, List.mem_append_left _ hm, rest⟩
      · exact ⟨id, by simp, n, hn, hq⟩
    · rintro ⟨m, hm, k, hk, hq⟩
      rcases List.mem_append.mp hm with hm | hm
      · exact Or.inl ⟨m, hm, k, hk, hq⟩
      · obtain rfl := List.mem_singleton.mp hm
        obtain rfl := Option.some.inj (hn.symm.trans hk)
        exact Or.inr hq
  · rw [hframe, List.flatMap_append, List.flatMap_singleton, List.map_append, hd.body]
  · rw [hframe]
    exact hd.blocks
  · rw [hframe]
    exact hd.definitions
  · rw [hframe]
    exact hd.pasted

/-! ## The second pass -/

/-- The text of the libraries at some point of the second pass. -/
def Scanned (g : Graph β) (order : List Nat) (library : String) : Prop :=
  ∃ done, done <+: order ∧ library = libraryOf (sources g order done)

/-- The definition was copied from the text of the libraries at some point. The functions that it
calls have been pasted, if they were known then. -/
structure IsCopy (g : Graph β) (order : List Nat) (pasted : List String) (name text : String) :
    Prop where
  entry : ∃ library e, Scanned g order library ∧ Entry.find? (entries library) name = some e ∧
    e.text = text ∧
    ∀ called ∈ e.calls, (Entry.find? (entries library) called).isSome → called ∈ pasted

theorem IsCopy.mono {pasted pasted' : List String} {name text : String}
    (h : IsCopy g order pasted name text) (hsub : pasted ⊆ pasted') :
    IsCopy g order pasted' name text := by
  obtain ⟨library, e, hlibrary, hfind, htext, hcalls⟩ := h.entry
  exact ⟨library, e, hlibrary, hfind, htext, fun called hcalled hknown =>
    hsub (hcalls called hcalled hknown)⟩

/-- The draft in the second pass, once the nodes `done` have been called. -/
structure Assembled (g : Graph β) (order done : List Nat) (d : Draft) : Prop where
  library : d.library = libraryOf (sources g order done)
  functions : d.emitter.functions = functionsIn d.library
  uniforms : ∀ x, x ∈ d.emitter.uniforms.map UniformDecl.declares ↔
    ∃ id ∈ order, ∃ n, g.node? id = some n ∧ ∃ q ∈ n.params, x ∈ declared id q
  pasted : ∀ name, name ∈ d.emitter.pasted ↔ ∃ text, .definition name text ∈ d.emitter.definitions
  copies : ∀ name text, .definition name text ∈ d.emitter.definitions →
    IsCopy g order d.emitter.pasted name text

/-- Lines and blocks may come, functions stay as they are. -/
theorem Assembled.frame (hd : Assembled g order done d) (hlibrary : d'.library = d.library)
    (hfunctions : d'.emitter.functions = d.emitter.functions)
    (huniforms : d'.emitter.uniforms = d.emitter.uniforms)
    (hpasted : d'.emitter.pasted = d.emitter.pasted)
    (hdefinitions : ∀ name text, .definition name text ∈ d'.emitter.definitions ↔
      .definition name text ∈ d.emitter.definitions) :
    Assembled g order done d' where
  library := hlibrary.trans hd.library
  functions := by rw [hfunctions, hlibrary, hd.functions]
  uniforms x := by rw [huniforms, hd.uniforms]
  pasted name := by simp only [hpasted, hd.pasted, hdefinitions]
  copies name text h := hpasted ▸ hd.copies name text ((hdefinitions name text).mp h)

theorem Assembled.written (hd : Assembled g order done d) (lines : List Line) :
    Assembled g order done (d.written lines) := by
  have hframe := Emitter.written_frame d.emitter lines
  refine hd.frame rfl hframe.1 (Emitter.uniforms_written _ _) hframe.2 fun name text => ?_
  show _ ∈ (d.emitter.written lines).definitions ↔ _
  rw [Emitter.definitions_written]

theorem definition_mem_copied {e : Emitter} {es : List Entry} {q : List String}
    {name text : String} :
    .definition name text ∈ (e.copied es q).definitions ↔
      .definition name text ∈ e.definitions ∨ ∃ x ∈ es, x.name = name ∧ x.text = text := by
  simp [Emitter.copied, Entry.piece]

/-- What pasting leaves behind. -/
theorem Assembled.copied (hd : Assembled g order done d) (hdone : done <+: order)
    {names q : List String} {es : List Entry}
    (h : Walked (Entry.find? (entries d.library)) d.emitter.pasted names es q) :
    Assembled g order done { d with emitter := d.emitter.copied es q } where
  library := hd.library
  functions := hd.functions
  uniforms := hd.uniforms
  pasted name := by
    show name ∈ q ↔ ∃ text, _ ∈ (d.emitter.copied es q).definitions
    simp only [definition_mem_copied, exists_or, ← hd.pasted, h.mem_iff, List.mem_map]
    refine or_congr_right ⟨?_, ?_⟩
    · rintro ⟨x, hx, hname⟩
      exact ⟨x.text, x, hx, hname, rfl⟩
    · rintro ⟨_, x, hx, hname, _⟩
      exact ⟨x, hx, hname⟩
  copies name text hmem := by
    rcases definition_mem_copied.mp hmem with hold | ⟨x, hx, rfl, rfl⟩
    · exact (hd.copies name text hold).mono h.kept
    · exact ⟨d.library, x, ⟨done, hdone, hd.library⟩, h.found x hx, rfl, h.called x hx⟩

/-- What a call has done: it has pasted the function of the node and found arguments for the
parameters that the function has in the libraries. -/
theorem Assembled.emitCall_cases (hd : Assembled g order done d)
    (h : (emitCall g id).Returns d () d') :
    ∃ n es q f arguments, g.node? id = some n ∧
      Walked (Entry.find? (entries d.library)) d.emitter.pasted [calleeName n] es q ∧
      find? (functionsIn (libraryOf (sources g order done))) (calleeName n) = some f ∧
      Program.arguments g n 0 f.callParameters = .ok arguments ∧
      d' = Draft.written { d with emitter := d.emitter.copied es q }
        [.call (calleeName n) arguments] := by
  obtain ⟨n, _, hnode, h⟩ := h.of_bind
  obtain ⟨hn, rfl⟩ := nodeOf_cases hnode
  obtain ⟨_, _, hstate, h⟩ := h.of_bind
  obtain ⟨rfl, rfl⟩ := hstate.of_state
  obtain ⟨_, _, hemit, h⟩ := h.of_bind
  obtain ⟨e, hpaste, rfl⟩ := emitting_cases hemit
  obtain ⟨es, q, hwalked, rfl⟩ := Emitter.paste_cases hd.functions hpaste
  obtain ⟨_, _, hstate, h⟩ := h.of_bind
  obtain ⟨rfl, rfl⟩ := hstate.of_state
  obtain ⟨f, _, hlook, h⟩ := h.of_bind
  obtain ⟨hf, rfl⟩ := hlook.of_ofOption
  obtain ⟨arguments, _, hwrite, happend⟩ := h.of_bind
  obtain ⟨harguments, rfl⟩ := hwrite.of_ofExcept
  refine ⟨n, es, q, f, arguments, hn, hwalked, ?_, harguments, append_cases happend⟩
  rw [← hd.library, ← hd.functions]
  exact hf

/-- **The step.** The call of a node comes after its function and what that calls. -/
theorem Assembled.call (hd : Assembled g order done d) (hdone : done <+: order)
    (h : (emitCall g id).Returns d () d') :
    Assembled g order done d' ∧ d.emitter.pasted ⊆ d'.emitter.pasted ∧
      ∀ n, g.node? id = some n → calleeName n ∈ d'.emitter.pasted := by
  obtain ⟨n, es, q, f, arguments, hn, hwalked, _, _, rfl⟩ := hd.emitCall_cases h
  have hpasted : (Draft.written { d with emitter := d.emitter.copied es q }
      [.call (calleeName n) arguments]).emitter.pasted = q := (Emitter.written_frame _ _).2
  refine ⟨(hd.copied hdone hwalked).written _, ?_, fun m hm => ?_⟩
  · rw [hpasted]
    exact hwalked.kept
  · rw [hpasted, ← Option.some.inj (hn.symm.trans hm)]
    exact hwalked.asked List.mem_cons_self

theorem Assembled.callAll (hd : Assembled g order done d) (hdone : done <+: order) {ids : List Nat}
    (h : (Action.each (emitCall g) ids).Returns d () d') :
    Assembled g order done d' ∧ d.emitter.pasted ⊆ d'.emitter.pasted := by
  refine Action.Returns.of_each
    (P := fun _ x => Assembled g order done x ∧ d.emitter.pasted ⊆ x.emitter.pasted)
    (fun before id after hsplit x x' hx hcall => ?_) ⟨hd, fun _ hname => hname⟩ h
  obtain ⟨hx', hsub, _⟩ := hx.1.call hdone hcall
  exact ⟨hx', fun _ hname => hsub (hx.2 hname)⟩

/-- The draft with one more block. -/
def Draft.opened (d : Draft) (signature : String) : Draft :=
  { d with emitter := { d.emitter with blocks := ⟨some signature, []⟩ :: d.emitter.blocks } }

theorem Assembled.opened (hd : Assembled g order done d) (signature : String) :
    Assembled g order done (d.opened signature) :=
  hd.frame rfl rfl rfl rfl fun _ _ => Iff.rfl

theorem closeBlock_cases (h : (emitting (Emitter.closeBlock .definitions)).Returns d () d') :
    ∃ block outer, d.emitter.blocks = block :: outer ∧ d' = { d with emitter := { d.emitter with
      blocks := outer
      definitions := d.emitter.definitions ++ [.block block.signature block.lines] } } := by
  obtain ⟨e, hclose, rfl⟩ := emitting_cases h
  obtain ⟨block, outer, hblocks, rfl⟩ := Emitter.closeBlock_cases hclose
  exact ⟨block, outer, hblocks, rfl⟩

theorem Assembled.closeBlock (hd : Assembled g order done d)
    (h : (emitting (Emitter.closeBlock .definitions)).Returns d () d') :
    Assembled g order done d' ∧ d'.emitter.pasted = d.emitter.pasted := by
  obtain ⟨block, outer, -, rfl⟩ := Program.closeBlock_cases h
  exact ⟨hd.frame rfl rfl rfl rfl fun name text => by simp, rfl⟩

theorem load_cases {library : String} (h : (emitting (Emitter.load library)).Returns d () d') :
    d' = { d with emitter := { d.emitter with functions := functionsIn library } } :=
  h.2.symm.trans (emitting_returns (Emitter.load_returns library d.emitter)).2

theorem sources_concat (hn : g.node? id = some n) :
    sources g order (done ++ [id]) =
      sources g order done ++ if (operatorOf n).multiPass then [n] else [] := by
  rw [sources, multiPassNodes_concat hn, ← List.append_assoc, sources]

/-- What specialising a node has done: it has declared and called the members of its subtree in a
block, returned what feeds the node from there, and added the library of the node, renamed for
it. -/
theorem specialise_cases (h : (specialise g order n).Returns d () d') :
    ∃ d₁ d₂ value, (Action.each (emitCall g) (members g order n.id)).Returns
        ((d.opened (subtreeSignature n.id)).written
          ((members g order n.id).flatMap (declarations g)))
        () d₁ ∧
      subtreeResult g n = .ok value ∧
      (emitting (Emitter.closeBlock .definitions)).Returns (d₁.written [.ret value]) () d₂ ∧
      ∃ library, library = d₂.library ++ rename (rename (operatorOf n).library placeholder
          (subtreeName n.id)) (operatorOf n).function (specialisedName (operatorOf n).function n.id)
            ++ "\n" ∧
        d' =
        { d₂ with library, emitter := { d₂.emitter with functions := functionsIn library } } := by
  obtain ⟨_, _, hemit, h⟩ := h.of_bind
  obtain ⟨_, hopen, rfl⟩ := emitting_cases hemit
  obtain rfl := hopen.of_update
  obtain ⟨_, _, hdeclare, h⟩ := h.of_bind
  obtain rfl := declareAll_cases hdeclare
  obtain ⟨_, d₁, hcall, h⟩ := h.of_bind
  obtain ⟨value, _, hresult, h⟩ := h.of_bind
  obtain ⟨hvalue, rfl⟩ := hresult.of_ofExcept
  obtain ⟨_, _, happend, h⟩ := h.of_bind
  obtain rfl := append_cases happend
  obtain ⟨_, d₂, hclose, h⟩ := h.of_bind
  obtain ⟨_, _, hupdate, h⟩ := h.of_bind
  obtain rfl := hupdate.of_update
  obtain ⟨_, _, hstate, h⟩ := h.of_bind
  obtain ⟨rfl, rfl⟩ := hstate.of_state
  obtain ⟨_, _, hload, hreport⟩ := h.of_bind
  obtain rfl := load_cases hload
  obtain rfl := hreport.2
  exact ⟨d₁, d₂, value, hcall, hvalue, hclose, _, rfl, rfl⟩

/-- The members of a subtree are declared before they are called. -/
theorem Assembled.declared (hd : Assembled g order done d) (n : Node β) :
    Assembled g order done ((d.opened (subtreeSignature n.id)).written
      ((members g order n.id).flatMap (declarations g))) :=
  (hd.opened _).written _

/-- **Specialising** a node adds its contribution. -/
theorem Assembled.specialise (hd : Assembled g order done d) (hdone : done <+: order)
    (hn : g.node? id = some n) (hmulti : (operatorOf n).multiPass = true)
    (h : (specialise g order n).Returns d () d') :
    Assembled g order (done ++ [id]) d' ∧ d.emitter.pasted ⊆ d'.emitter.pasted := by
  obtain ⟨d₁, d₂, value, hcall, -, hclose, library, hlibrary, rfl⟩ := specialise_cases h
  obtain ⟨hd₁, hsub⟩ := (hd.declared n).callAll hdone hcall
  obtain ⟨hd₂, hpasted⟩ := (hd₁.written [.ret value]).closeBlock hclose
  have hown : contribution n = rename (rename (operatorOf n).library placeholder (subtreeName n.id))
      (operatorOf n).function (specialisedName (operatorOf n).function n.id) ++ "\n" :=
        if_pos hmulti
  refine ⟨⟨?_, rfl, hd₂.uniforms, hd₂.pasted, hd₂.copies⟩, fun name hname => ?_⟩
  · show library = _
    rw [hlibrary, sources_concat hn, if_pos hmulti, libraryOf_concat, hown, hd₂.library,
      String.append_assoc]
  · show name ∈ d₂.emitter.pasted
    have hreturn : (d₁.written [.ret value]).emitter.pasted = d₁.emitter.pasted :=
      (Emitter.written_frame _ _).2
    have hdeclared : ((d.opened (subtreeSignature n.id)).written
        ((members g order n.id).flatMap (declarations g))).emitter.pasted = d.emitter.pasted :=
      (Emitter.written_frame _ _).2
    rw [hpasted, hreturn]
    exact hsub (hdeclared.symm ▸ hname)

/-- The draft once the nodes `done` have been called, and their functions pasted. -/
structure AllCalled (g : Graph β) (order done : List Nat) (d : Draft) : Prop
    extends Assembled g order done d where
  called : ∀ id ∈ done, ∀ n, g.node? id = some n → calleeName n ∈ d.emitter.pasted

/-- What a node of the body has done: a multi-pass node has been specialised before its call. A
single-pass node leaves the text of the libraries as it is. -/
theorem Assembled.emitNode_cases (hd : Assembled g order done d) {rest : List Nat}
    (hsplit : done ++ id :: rest = order) (h : (emitNode g order id).Returns d () d') :
    ∃ n d₁, g.node? id = some n ∧ Assembled g order (done ++ [id]) d₁ ∧
      d.emitter.pasted ⊆ d₁.emitter.pasted ∧
      (if (operatorOf n).multiPass = true then (Program.specialise g order n).Returns d () d₁
        else d₁ = d) ∧
      (emitCall g id).Returns d₁ () d' := by
  have hbefore : done <+: order := ⟨id :: rest, hsplit⟩
  obtain ⟨n, _, hnode, h⟩ := h.of_bind
  obtain ⟨hn, rfl⟩ := nodeOf_cases hnode
  by_cases hmulti : (operatorOf n).multiPass = true
  · have hpass : (Operable.operator n.behavior).multiPass = true := hmulti
    rw [if_pos hpass] at h
    obtain ⟨_, d₁, hspecialise, hcall⟩ := h.of_bind
    obtain ⟨hd₁, hsub⟩ := hd.specialise hbefore hn hmulti hspecialise
    exact ⟨n, d₁, hn, hd₁, hsub, by rwa [if_pos hmulti], hcall⟩
  · have hpass : ¬ (Operable.operator n.behavior).multiPass = true := hmulti
    rw [if_neg hpass] at h
    have hsame : sources g order (done ++ [id]) = sources g order done := by
      rw [sources_concat hn, if_neg hmulti, List.append_nil]
    refine ⟨n, d, hn, { hd with library := ?_ }, fun _ hname => hname, by rw [if_neg hmulti], h⟩
    rw [hsame, hd.library]

/-- **One node of the body.** -/
theorem AllCalled.step (hd : AllCalled g order done d) {rest : List Nat}
    (hsplit : done ++ id :: rest = order) (h : (emitNode g order id).Returns d () d') :
    AllCalled g order (done ++ [id]) d' := by
  have hnow : done ++ [id] <+: order := ⟨rest, by rw [← hsplit]; simp⟩
  obtain ⟨_, d₁, _, hd₁, hsub, _, hcall⟩ := hd.toAssembled.emitNode_cases hsplit h
  obtain ⟨hd', hsub', hcallee⟩ := hd₁.call hnow hcall
  refine ⟨hd', fun m hm k hk => ?_⟩
  rcases List.mem_append.mp hm with hm | hm
  · exact hsub' (hsub (hd.called m hm k hk))
  · obtain rfl := List.mem_singleton.mp hm
    exact hcallee k hk

/-- The draft between the passes, once its libraries are at hand. -/
def Draft.loaded (d : Draft) : Draft :=
  { d with emitter := { d.emitter with functions := functionsIn d.library } }

theorem Declared.allCalled (hd : Declared g order d) : AllCalled g order [] d.loaded := by
  refine ⟨⟨?_, rfl, hd.uniforms, ?_, ?_⟩, fun m hm => absurd hm List.not_mem_nil⟩
  · show d.library = _
    rw [hd.library, sources]
    simp [multiPassNodes]
  · intro name
    show name ∈ d.emitter.pasted ↔ ∃ text, _ ∈ d.emitter.definitions
    simp [hd.pasted, hd.definitions]
  · intro name text hmem
    replace hmem : .definition name text ∈ d.emitter.definitions := hmem
    simp [hd.definitions] at hmem

/-! ## Programs -/

/-- What is known of a program, whatever its operators are. -/
structure Assembly (g : Graph β) (p : Program) : Prop where
  isOrder : g.IsEvaluationOrder p.order
  uniforms : ∀ x, x ∈ p.uniforms.map UniformDecl.declares ↔
    ∃ n ∈ g.nodes, ∃ q ∈ n.params, x ∈ declared n.id q
  /-- The function of every node is defined. -/
  called : ∀ n ∈ g.nodes, ∃ text, .definition (calleeName n) text ∈ p.definitions
  /-- Definitions come from the text of the libraries, and what they call is there if it was
  known. -/
  copies : ∀ name text, .definition name text ∈ p.definitions →
    ∃ library e, Scanned g p.order library ∧ Entry.find? (entries library) name = some e ∧
      e.text = text ∧ ∀ called ∈ e.calls, (Entry.find? (entries library) called).isSome →
        ∃ other, .definition called other ∈ p.definitions

theorem Declared.start : Declared g [] {} where
  library := rfl
  included _ := Iff.rfl
  uniforms x := by simp
  body := rfl
  blocks := rfl
  definitions := rfl
  pasted := rfl

omit [Operable β] in
theorem emitStore_cases (h : (emitStore g id).Returns d () d') :
    ∃ s value, g.output? id 0 = some s ∧
      Expr.converted s.kind .vec4 (.var (outputName id 0)) = .ok value ∧
      d' = d.written [.store value] := by
  obtain ⟨s, _, hfirst, h⟩ := h.of_bind
  obtain ⟨hs, rfl⟩ := hfirst.of_ofOption
  obtain ⟨value, _, hconvert, happend⟩ := h.of_bind
  obtain ⟨hvalue, rfl⟩ := hconvert.of_ofExcept
  exact ⟨s, value, hs, hvalue, append_cases happend⟩

/-- The result is stored at the end of the body. -/
theorem AllCalled.store (hd : AllCalled g order order d) (h : (emitStore g id).Returns d () d') :
    AllCalled g order order d' := by
  obtain ⟨s, value, _, _, rfl⟩ := emitStore_cases h
  refine ⟨hd.toAssembled.written _, fun m hm k hk => ?_⟩
  show _ ∈ (d.emitter.written _).pasted
  rw [(Emitter.written_frame _ _).2]
  exact hd.called m hm k hk

/-- The steps of building, if it returns: the second pass starts where the first one ends, with the
libraries loaded, and the result is stored at the end. -/
theorem build_steps {p : Program} (h : (build g order).Returns {} p d') :
    ∃ d₁ d₂, Declared g order d₁ ∧ (Action.each (emitNode g order) order).Returns d₁.loaded () d₂ ∧
      (emitStore g p.result).Returns d₂ () d' ∧ p.order = order ∧ p.uniforms = d'.emitter.uniforms ∧
      p.definitions = d'.emitter.definitions ∧ p.body = d'.emitter.body := by
  obtain ⟨last, _, hlast, h⟩ := h.of_bind
  obtain ⟨_, rfl⟩ := hlast.of_ofOption
  obtain ⟨_, d₁, hdeclare, h⟩ := h.of_bind
  have hd₁ : Declared g order d₁ :=
    Action.Returns.of_each (fun _ _ _ _ _ _ hx hstep => hx.step hstep) Declared.start hdeclare
  obtain ⟨_, _, hstate, h⟩ := h.of_bind
  obtain ⟨rfl, rfl⟩ := hstate.of_state
  obtain ⟨_, _, hload, h⟩ := h.of_bind
  obtain rfl := load_cases hload
  obtain ⟨_, d₂, hemit, h⟩ := h.of_bind
  obtain ⟨_, d₃, hstore, h⟩ := h.of_bind
  obtain ⟨_, _, hstate, h⟩ := h.of_bind
  obtain ⟨rfl, rfl⟩ := hstate.of_state
  obtain ⟨rfl, rfl⟩ := h.of_pure
  exact ⟨_, d₂, hd₁, hemit, hstore, rfl, rfl, rfl, rfl⟩

/-- What building leaves behind when it returns. -/
theorem build_cases {p : Program} (h : (build g order).Returns {} p d') :
    AllCalled g order order d' ∧ p.order = order ∧ p.uniforms = d'.emitter.uniforms ∧
      p.definitions = d'.emitter.definitions ∧ p.body = d'.emitter.body := by
  obtain ⟨d₁, d₂, hd₁, hemit, hstore, hrest⟩ := build_steps h
  have hd₂ : AllCalled g order order d₂ :=
    Action.Returns.of_each (fun _ _ _ hsplit _ _ hx hstep =>
      hx.step hsplit hstep) hd₁.allCalled hemit
  exact ⟨hd₂.store hstore, hrest⟩

theorem exists_order_of_generate (hwell : g.WellFormed) {p : Program}
    (h : (generate.run g).result = .ok p) :
    ∃ order, g.schedule = .ok order ∧ g.IsEvaluationOrder order ∧
      ((build g order).run {}).result = .ok p := by
  rw [result_generate, hwell.ordering_eq] at h
  rcases hwell.schedule with ⟨_, order, hschedule, horder⟩ | ⟨_, nodes, hcycle⟩
  · refine ⟨order, hschedule, horder, ?_⟩
    rw [hschedule] at h
    replace h : ((build g order).run {}).result.mapError Failure.code = .ok p := h
    cases hresult : ((build g order).run {}).result with
    | error e => rw [hresult] at h; cases h
    | ok q => rw [hresult] at h; exact congrArg Except.ok (Except.ok.inj h)
  · rw [hcycle] at h
    cases h

/-- Every output and every parameter has been declared in the first pass, so they have values. -/
theorem valued_of_build {p : Program} (h : (build g order).Returns {} p d') (hid : id ∈ order)
    (hn : g.node? id = some n) :
    (∀ s ∈ n.outputs, s.kind ≠ .none) ∧ ∀ q ∈ n.params, q.kind ≠ .none := by
  -- of the first pass, what it has done for this node: its library, its parameters, its outputs
  obtain ⟨_, _, _, h⟩ := h.of_bind
  obtain ⟨_, _, hpass, _⟩ := h.of_bind
  obtain ⟨_, _, hnode⟩ := hpass.exists_of_each hid
  obtain ⟨_, _, _, hnode⟩ := hnode.of_bind
  obtain ⟨_, _, huniforms, houtputs⟩ := hnode.of_bind
  have hself {m : Node β} {d d' : Draft} (hm : (nodeOf g id).Returns d m d') : m = n :=
    Option.some.inj ((nodeOf_cases hm).1.symm.trans hn)
  refine ⟨fun s hs => ?_, fun q hq => ?_⟩
  · obtain ⟨m, _, hm, houtputs⟩ := houtputs.of_bind
    obtain rfl := hself hm
    obtain ⟨_, _, hdeclare⟩ := houtputs.exists_of_each hs
    exact declareVariable_kind hdeclare
  · obtain ⟨m, _, hm, huniforms⟩ := huniforms.of_bind
    obtain rfl := hself hm
    obtain ⟨_, _, hdeclare⟩ := huniforms.exists_of_each hq
    exact declareParam_kind hdeclare

theorem valued_of_generate (hwell : g.WellFormed) {p : Program}
    (h : (generate.run g).result = .ok p) : g.Valued := by
  obtain ⟨order, -, horder, hbuild⟩ := exists_order_of_generate hwell h
  intro n hn
  exact valued_of_build ⟨hbuild, rfl⟩ (mem_order hwell horder hn) (node?_of_mem hwell hn)

/-- **Every program is put together this way.** -/
theorem assembly_of_generate (hwell : g.WellFormed) {p : Program}
    (h : (generate.run g).result = .ok p) : Assembly g p := by
  obtain ⟨order, -, horder, hbuild⟩ := exists_order_of_generate hwell h
  obtain ⟨hd, rfl, huniforms, hdefinitions, -⟩ := build_cases ⟨hbuild, rfl⟩
  refine ⟨horder, fun x => ?_, fun n hn => ?_, fun name text hmem => ?_⟩
  · rw [huniforms, hd.uniforms]
    constructor
    · rintro ⟨id, _, n, hn, q, hq, hx⟩
      obtain rfl := hwell.ids id n hn
      exact ⟨n, List.mem_of_getElem? hn, q, hq, hx⟩
    · rintro ⟨n, hn, q, hq, hx⟩
      exact ⟨n.id, mem_order hwell horder hn, n, node?_of_mem hwell hn, q, hq, hx⟩
  · rw [hdefinitions]
    exact (hd.pasted _).mp (hd.called n.id (mem_order hwell horder hn) n (node?_of_mem hwell hn))
  · rw [hdefinitions] at hmem ⊢
    obtain ⟨library, e, hlibrary, hfind, htext, hcalls⟩ := (hd.copies name text hmem).entry
    exact ⟨library, e, hlibrary, hfind, htext, fun called hcalled hknown =>
      (hd.pasted called).mp (hcalls called hcalled hknown)⟩

end Program
end Texel
