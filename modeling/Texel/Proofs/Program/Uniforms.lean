import Texel.Proofs.Glsl.Interruption
import Texel.Proofs.Graph.Params
import Texel.Proofs.Program.Calls

/-!
# Texel — every uniform has its own name

The first pass of generation declares the uniforms, node by node in the evaluation order; the second
pass declares none. So the list of all uniforms is known, and names tell nodes and parameters apart.
What is left are parameters of one node whose names become the same in camel case. The parameters of
an operator do not, and a node that has no others does not have the same one twice.

* **`keeps_uniforms_emitNode`** — the second pass declares nothing.
* **`eq_of_mem_declared`** — names that meet belong to one node and one camel-case form.
* **`uniforms_of_generate`** — all declarations of a program; **`nodup_uniforms`** follows.
* **`nodup_camelCase_of_subset`** — parameters that an operator has.
* **`names_apart`** — the whole account of names.
-/

namespace Texel

namespace Glsl.Emitter

open Texel.Action

variable {us : List UniformDecl}

/-! ## Code declares no uniforms -/

theorem keeps_uniforms_append (line : Line) :
    Keeps (fun e : Emitter => e.uniforms = us) (append line) := by
  intro e he
  rw [(append_returns line e).2, uniforms_written]
  exact he

theorem keeps_uniforms_declareVariable (kind : Kind) (name : String) :
    Keeps (fun e : Emitter => e.uniforms = us) (declareVariable kind name) := by
  unfold declareVariable
  split_ifs
  · exact keeps_uniforms_append _
  · exact Keeps.fail _

theorem keeps_uniforms_openBlock (signature : Option String) :
    Keeps (fun e : Emitter => e.uniforms = us) (openBlock signature) :=
  Keeps.update fun _ h => h

theorem keeps_uniforms_closeBlock (target : Section) :
    Keeps (fun e : Emitter => e.uniforms = us) (closeBlock target) := by
  refine Keeps.state.bind fun s => ?_
  cases s.blocks with
  | nil => exact Keeps.fail _
  | cons block outer =>
    cases target with
    | definitions => exact Keeps.update fun _ h => h
    | body => exact Keeps.update fun _ h => h

theorem keeps_uniforms_load (library : String) :
    Keeps (fun e : Emitter => e.uniforms = us) (load library) :=
  (Keeps.reportAll _).bind fun _ => Keeps.update fun _ h => h

theorem keeps_uniforms_paste (name library : String) :
    Keeps (fun e : Emitter => e.uniforms = us) (paste name library) := by
  refine Keeps.state.bind fun s e he => ?_
  rw [(grew_pasteWithin e library s.functions.length name e (Grew.refl e)).rest]
  exact he

end Glsl.Emitter

namespace Program

open Glsl Texel.Action

variable {β : Type} {g : Graph β} {order : List Nat} {id : Nat} {d d' : Draft}
  {us : List UniformDecl}

theorem keeps_uniforms_emitting {α : Type} {x : Action Emitter CodeError α}
    (h : Keeps (fun e : Emitter => e.uniforms = us) x) :
    Keeps (fun d : Draft => d.emitter.uniforms = us) (emitting x) :=
  fun d hd => h d.emitter hd

theorem keeps_uniforms_declareOutputs (g : Graph β) (id : Nat) :
    Keeps (fun d : Draft => d.emitter.uniforms = us) (declareOutputs g id) :=
  (Keeps.ofOption _ _).bind fun _ =>
    Keeps.each (fun _ => keeps_uniforms_emitting (Emitter.keeps_uniforms_declareVariable _ _)) _

theorem keeps_uniforms_emitStore (g : Graph β) (id : Nat) :
    Keeps (fun d : Draft => d.emitter.uniforms = us) (emitStore g id) :=
  (Keeps.ofOption _ _).bind fun _ => (Keeps.ofExcept _).bind fun _ =>
    keeps_uniforms_emitting (Emitter.keeps_uniforms_append _)

section

variable [Operable β]

theorem keeps_uniforms_emitCall (g : Graph β) (id : Nat) :
    Keeps (fun d : Draft => d.emitter.uniforms = us) (emitCall g id) := by
  refine (Keeps.ofOption _ _).bind fun n => Keeps.state.bind fun _ => ?_
  refine (keeps_uniforms_emitting (Emitter.keeps_uniforms_paste _ _)).bind fun _ => ?_
  refine Keeps.state.bind fun _ => (Keeps.ofOption _ _).bind fun _ =>
    (Keeps.ofExcept _).bind fun _ => ?_
  exact keeps_uniforms_emitting (Emitter.keeps_uniforms_append _)

theorem keeps_uniforms_specialise (g : Graph β) (order : List Nat) (n : Node β) :
    Keeps (fun d : Draft => d.emitter.uniforms = us) (specialise g order n) := by
  refine (keeps_uniforms_emitting (Emitter.keeps_uniforms_openBlock _)).bind fun _ => ?_
  refine (Keeps.each (keeps_uniforms_declareOutputs g) _).bind fun _ => ?_
  refine (Keeps.each (keeps_uniforms_emitCall g) _).bind fun _ => (Keeps.ofExcept _).bind fun _ =>
    ?_
  refine (keeps_uniforms_emitting (Emitter.keeps_uniforms_append _)).bind fun _ => ?_
  refine (keeps_uniforms_emitting (Emitter.keeps_uniforms_closeBlock _)).bind fun _ => ?_
  refine Keeps.bind (Keeps.update ?_) fun _ => Keeps.state.bind fun _ => ?_
  · exact fun _ h => h
  · exact (keeps_uniforms_emitting (Emitter.keeps_uniforms_load _)).bind fun _ => Keeps.report _

/-- **The second pass**, one node. -/
theorem keeps_uniforms_emitNode (g : Graph β) (order : List Nat) (id : Nat) :
    Keeps (fun d : Draft => d.emitter.uniforms = us) (emitNode g order id) := by
  refine (Keeps.ofOption _ _).bind fun n => ?_
  split_ifs
  · exact (keeps_uniforms_specialise g order n).bind fun _ => keeps_uniforms_emitCall g id
  · exact keeps_uniforms_emitCall g id

theorem keeps_emitter_collectLibrary {e : Emitter} (g : Graph β) (id : Nat) :
    Keeps (fun d : Draft => d.emitter = e) (collectLibrary g id) := by
  unfold collectLibrary
  split
  · exact Keeps.pure _
  · split_ifs
    · exact Keeps.pure _
    · refine Keeps.update fun d hd => ?_
      split_ifs
      · exact hd
      · exact hd

end

/-! ## Names of uniforms -/

/-- The labels of the uniforms of a parameter. -/
def labels (id : Nat) (q : Param) : List Label :=
  if q.kind = .image then [.uniform id q.name, .flag id q.name] else [.uniform id q.name]

theorem map_fst_declared (id : Nat) (q : Param) :
    (declared id q).map Prod.fst = (labels id q).map Label.text := by
  rw [declared, labels]
  split_ifs
  · rfl
  · rfl

theorem mem_labels {q : Param} {a : Label} (h : a ∈ labels id q) :
    a = .uniform id q.name ∨ a = .flag id q.name := by
  rw [labels] at h
  split_ifs at h
  · simpa using h
  · exact Or.inl (List.mem_singleton.mp h)

/-- Names that meet belong to one node and one camel-case form. -/
theorem eq_of_mem_declared {m : Nat} {q r : Param} {name : String}
    (hq : name ∈ (declared id q).map Prod.fst) (hr : name ∈ (declared m r).map Prod.fst) :
    id = m ∧ Identifier.camelCase q.name = Identifier.camelCase r.name := by
  rw [map_fst_declared, List.mem_map] at hq hr
  obtain ⟨a, ha, rfl⟩ := hq
  obtain ⟨b, hb, heq⟩ := hr
  have hcased := Label.text_eq_iff.mp heq
  rcases mem_labels ha with rfl | rfl
  · rcases mem_labels hb with rfl | rfl
    · exact (Label.uniform.inj hcased).imp Eq.symm Eq.symm
    · cases hcased
  · rcases mem_labels hb with rfl | rfl
    · cases hcased
    · exact (Label.flag.inj hcased).imp Eq.symm Eq.symm

theorem nodup_declared (id : Nat) (q : Param) : ((declared id q).map Prod.fst).Nodup := by
  rw [declared]
  split_ifs
  · refine List.nodup_cons.mpr ⟨?_, List.nodup_singleton _⟩
    rw [List.map_singleton, List.mem_singleton]
    exact (flagName_ne_uniformName _ _ _ _).symm
  · exact List.nodup_singleton _

/-- The names and types that the uniforms of a node have. -/
def declaredBy (g : Graph β) (id : Nat) : List (String × String) :=
  ((g.node? id).map fun n => n.params.flatMap (declared id)).getD []

theorem declaredBy_of_node? {n : Node β} (hn : g.node? id = some n) :
    declaredBy g id = n.params.flatMap (declared id) := by
  rw [declaredBy, hn]
  rfl

theorem nodup_declaredBy (hparams : ParamsApart g) (id : Nat) :
    ((declaredBy g id).map Prod.fst).Nodup := by
  cases hn : g.node? id with
  | none =>
    rw [declaredBy, hn]
    exact .nil
  | some n =>
    -- two parameters of the node differ in camel case
    have hapart := List.pairwise_map.mp (hparams n (List.mem_of_getElem? hn))
    rw [declaredBy_of_node? hn, List.map_flatMap, List.nodup_flatMap]
    refine ⟨fun q _ => nodup_declared id q, hapart.imp fun {q r} hqr => ?_⟩
    rw [Function.onFun, List.disjoint_left]
    exact fun name hq hr => hqr (eq_of_mem_declared hq hr).2

theorem mem_declaredBy {name : String} (h : name ∈ (declaredBy g id).map Prod.fst) :
    ∃ q, name ∈ (declared id q).map Prod.fst := by
  cases hn : g.node? id with
  | none =>
    rw [declaredBy, hn] at h
    cases h
  | some n =>
    rw [declaredBy_of_node? hn, List.map_flatMap, List.mem_flatMap] at h
    obtain ⟨q, _, hq⟩ := h
    exact ⟨q, hq⟩

/-! ## All declarations -/

variable [Operable β]

/-- **The first pass**, one node. -/
theorem uniforms_step
    (h : (do
      collectLibrary g id
      declareUniforms g id
      declareOutputs g id : Generation Unit).Returns d () d') :
    d'.emitter.uniforms.map UniformDecl.declares =
      d.emitter.uniforms.map UniformDecl.declares ++ declaredBy g id := by
  obtain ⟨_, d₁, hcollect, h⟩ := h.of_bind
  obtain ⟨_, d₂, huniforms, houtputs⟩ := h.of_bind
  obtain ⟨n, _, hnode, hparams⟩ := huniforms.of_bind
  obtain ⟨hn, rfl⟩ := nodeOf_cases hnode
  obtain ⟨us, next, rfl, hus⟩ := declareParams_cases hparams
  obtain rfl := declareOutputs_cases houtputs
  have hemitter : d₁.emitter = d.emitter := by
    rw [← hcollect.2]
    exact keeps_emitter_collectLibrary g id d rfl
  show ((d₁.uploading us next).emitter.written (declarations g id)).uniforms.map _ = _
  rw [Emitter.uniforms_written, Draft.emitter_uploading, hemitter, declaredBy_of_node? hn, ← hus,
    List.map_append]

theorem uniforms_of_build {p : Program} (h : (build g order).Returns {} p d') :
    p.uniforms.map UniformDecl.declares = order.flatMap (declaredBy g) := by
  obtain ⟨last, _, hlast, h⟩ := h.of_bind
  obtain ⟨_, rfl⟩ := hlast.of_ofOption
  obtain ⟨_, d₁, hdeclare, h⟩ := h.of_bind
  have hfirst : d₁.emitter.uniforms.map UniformDecl.declares = order.flatMap (declaredBy g) := by
    refine Returns.of_each
      (P := fun done d => d.emitter.uniforms.map UniformDecl.declares = done.flatMap (declaredBy g))
      (fun done id _ _ x x' hx hstep => ?_) rfl hdeclare
    rw [uniforms_step hstep, hx, List.flatMap_append, List.flatMap_singleton]
  obtain ⟨_, _, hstate, h⟩ := h.of_bind
  obtain ⟨rfl, rfl⟩ := hstate.of_state
  obtain ⟨_, _, hload, h⟩ := h.of_bind
  obtain ⟨_, _, hemit, h⟩ := h.of_bind
  obtain ⟨_, d₄, hstore, h⟩ := h.of_bind
  obtain ⟨_, _, hstate, h⟩ := h.of_bind
  obtain ⟨rfl, rfl⟩ := hstate.of_state
  obtain ⟨rfl, -⟩ := h.of_pure
  -- nothing after the first pass declares a uniform
  have hloaded := hload.kept (keeps_uniforms_emitting (Emitter.keeps_uniforms_load _)) rfl
  have hemitted := hemit.kept (Keeps.each (keeps_uniforms_emitNode g order) order) hloaded
  have hstored := hstore.kept (keeps_uniforms_emitStore g _) hemitted
  show d₄.emitter.uniforms.map _ = _
  rw [hstored, hfirst]

/-- **All declarations of a program**, in their order. -/
theorem uniforms_of_generate (hwell : g.WellFormed) {p : Program}
    (h : (generate.run g).result = .ok p) :
    g.IsEvaluationOrder p.order ∧
      p.uniforms.map UniformDecl.declares = p.order.flatMap (declaredBy g) := by
  obtain ⟨order, -, horder, hbuild⟩ := exists_order_of_generate hwell h
  have huniforms := uniforms_of_build ⟨hbuild, rfl⟩
  obtain ⟨_, hsame, -⟩ := build_cases ⟨hbuild, rfl⟩
  rw [hsame]
  exact ⟨horder, huniforms⟩

/-- **No name is declared twice**, if the parameters of every node can be told apart. -/
theorem nodup_uniforms (hwell : g.WellFormed) (hparams : ParamsApart g) {p : Program}
    (h : (generate.run g).result = .ok p) : (p.uniforms.map fun d => d.declares.1).Nodup := by
  obtain ⟨horder, huniforms⟩ := uniforms_of_generate hwell h
  have hnames : (p.uniforms.map fun d => d.declares.1) =
      p.order.flatMap fun id => (declaredBy g id).map Prod.fst := by
    rw [← List.map_flatMap, ← huniforms, List.map_map]
    rfl
  rw [hnames, List.nodup_flatMap]
  -- no node comes twice in the order, and two nodes have no name in common
  refine ⟨fun id _ => nodup_declaredBy hparams id, horder.nodup.imp fun {id m} hne => ?_⟩
  rw [Function.onFun, List.disjoint_left]
  intro name hid hm
  obtain ⟨q, hq⟩ := mem_declaredBy hid
  obtain ⟨r, hr⟩ := mem_declaredBy hm
  exact hne (eq_of_mem_declared hq hr).1

/-! ## Parameters of operators -/

/-- A node with no other parameters than an operator has. -/
theorem nodup_camelCase_of_subset {ps : Ports} {b : Builtin}
    (hordered : ps.paramNames.Pairwise (· < ·))
    (hsub : ps.paramNames ⊆ b.operator.ports.paramNames) :
    (ps.params.map fun q => Identifier.camelCase q.name).Nodup := by
  have hoperator : (b.operator.ports.paramNames.map Identifier.camelCase).Nodup := by
    have h := b.nodup_camelCase
    rw [Ports.outline, List.map_map] at h
    rwa [Ports.paramNames, List.map_map]
  -- each name is there once, so the names of the operator keep them apart
  have hnodup : ps.paramNames.Nodup := hordered.imp fun h => h.ne
  have hmap : (ps.paramNames.map Identifier.camelCase).Nodup :=
    hnodup.map_on fun s hs t ht heq => List.inj_on_of_nodup_map hoperator (hsub hs) (hsub ht) heq
  rwa [Ports.paramNames, List.map_map] at hmap

theorem mem_names {p : Program} (hwell : g.WellFormed) (h : (generate.run g).result = .ok p)
    (name : String) :
    name ∈ (p.uniforms.map fun d => d.declares.1) ↔
      ∃ n ∈ g.nodes, ∃ q ∈ n.params, ∃ a ∈ labels n.id q, a.text = name := by
  have hlabels : ∀ id q, (∃ a ∈ labels id q, a.text = name) ↔ ∃ x ∈ declared id q, x.1 = name := by
    intro id q
    rw [← List.mem_map, ← List.mem_map, map_fst_declared]
  have hmap : (p.uniforms.map fun d => d.declares.1) =
      (p.uniforms.map UniformDecl.declares).map Prod.fst := by
    rw [List.map_map]
    rfl
  simp only [hmap, List.mem_map (f := Prod.fst), (assembly_of_generate hwell h).uniforms, hlabels]
  constructor
  · rintro ⟨x, ⟨n, hn, q, hq, hx⟩, rfl⟩
    exact ⟨n, hn, q, hq, x, hx, rfl⟩
  · rintro ⟨n, hn, q, hq, x, hx, rfl⟩
    exact ⟨x, ⟨n, hn, q, hq, hx⟩, rfl⟩

/-- **Names.** Names meet only through camel case, and they are spelled as identifiers. A graph
whose nodes have no other parameters than operators have declares every uniform and every flag under
a name of its own, and no others. -/
theorem names_apart :
    (∀ n m p q, uniformName n p = uniformName m q ↔
      n = m ∧ Identifier.camelCase p = Identifier.camelCase q) ∧
    (∀ a b : Label, a.text = b.text ↔ a.cased = b.cased) ∧
    (∀ a : Label, Spelled a.text) ∧
    (∀ s, Identifier.camelCase (Identifier.camelCase s) = Identifier.camelCase s ∧
      Identifier.camelCase s ≠ "" ∧ ∀ c ∈ (Identifier.camelCase s).toList, c.isAlphanum = true) ∧
    ∀ (operations : List (Graph.Operation Builtin)) (p : Program),
      let g := Graph.ofOperations operations
      (∀ n ∈ g.nodes, ∃ b : Builtin, n.paramNames ⊆ b.operator.ports.paramNames) →
      (generate.run g).result = .ok p →
        (p.uniforms.map fun d => d.declares.1).Nodup ∧
        ∀ name, name ∈ (p.uniforms.map fun d => d.declares.1) ↔
          ∃ n ∈ g.nodes, ∃ q ∈ n.params, ∃ a ∈ labels n.id q, a.text = name := by
  refine ⟨fun n m p q => uniformName_inj, fun a b => Label.text_eq_iff, Label.spelled, fun s => ?_,
    fun operations p => ?_⟩
  · obtain ⟨hne, halphanum⟩ := Label.isPlainWord_camelCase s
    refine ⟨Identifier.camelCase_camelCase s, fun hempty => hne ?_, halphanum⟩
    rw [hempty]
    rfl
  · intro g hparams h
    have hwell := Graph.wellFormed_ofOperations operations
    have hapart : ParamsApart g := by
      intro n hn
      obtain ⟨b, hsub⟩ := hparams n hn
      exact nodup_camelCase_of_subset (Graph.inNameOrder_ofOperations operations n hn) hsub
    exact ⟨nodup_uniforms hwell hapart h, mem_names hwell h⟩

/-- An image that says where to look in another one, which has its parameter declared again. -/
def diptych : List (Graph.Operation Builtin) :=
  [.edit (.create .imageInput), .edit (.create .imageInput), .edit (.connect ⟨0, 0, 1, 0⟩),
    .addParam 1 "Image" .image .zero]

theorem diptych_names_apart :
    (∀ n ∈ (Graph.ofOperations diptych).nodes, ∃ b : Builtin,
      n.paramNames ⊆ b.operator.ports.paramNames) ∧
    ∃ p, (generate.run (.ofOperations diptych)).result = .ok p ∧
      (p.uniforms.map fun d => d.declares.1) =
        ["param_0_image", "param_0_image_conn", "param_1_image", "param_1_image_conn"] ∧
      (p.uniforms.map fun d => d.declares.1).Nodup := by
  have hparams : ∀ n ∈ (Graph.ofOperations diptych).nodes, ∃ b : Builtin,
      n.paramNames ⊆ b.operator.ports.paramNames := by
    have hall : ∀ n ∈ (Graph.ofOperations diptych).nodes,
        ∀ name ∈ n.paramNames, name ∈ n.behavior.operator.ports.paramNames := by decide +kernel
    exact fun n hn => ⟨n.behavior, hall n hn⟩
  have hnames : (generate.run (.ofOperations diptych)).result.toOption.map
      (fun p => p.uniforms.map fun d => d.declares.1) =
        some ["param_0_image", "param_0_image_conn", "param_1_image", "param_1_image_conn"] := by
    decide +kernel
  refine ⟨hparams, ?_⟩
  cases hresult : (generate.run (.ofOperations diptych)).result with
  | error e =>
    rw [hresult] at hnames
    cases hnames
  | ok p =>
    rw [hresult] at hnames
    exact ⟨p, rfl, Option.some.inj hnames, (names_apart.2.2.2.2 diptych p hparams hresult).1⟩

end Program
end Texel
