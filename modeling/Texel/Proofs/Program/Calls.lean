import Texel.Proofs.Graph.Marks
import Texel.Proofs.Program.Assembly
import Texel.Proofs.Program.Inputs
import Texel.Proofs.Program.Names
import Texel.Proofs.Program.Wording
import Texel.Proofs.Shader.Typing

/-!
# Texel — the types of arguments

Arguments come from connections, parameters, the coordinate or nowhere, and each is converted to the
kind that the function asks for. So they have the very types of the parameters, with no conversion
left to the compiler.

* **`types`** — the types of the names that expressions are made of; no name has two
  (**`Declares.unique`**).
* **`Fits`** — an expression can be read and has the type of a kind. One lemma for each way to get
  an argument, and **`fits_argument`** for all.
* **`Passes`** — arguments and parameters, one by one; **`Accepts`** — what a function can be called
  with.
-/

namespace Texel

open Shader (ValueType HasType Expression)

/-! ## Steps that have not failed -/

section Except

variable {ε α γ : Type} {x : Except ε α} {c : γ}

theorem exists_of_bind_eq_ok {f : α → Except ε γ} (h : (x >>= f) = .ok c) :
    ∃ a, x = .ok a ∧ f a = .ok c := by
  cases x with
  | error failure => cases h
  | ok a => exact ⟨a, rfl, h⟩

theorem exists_of_map_eq_ok {f : α → γ} (h : x.map f = .ok c) : ∃ a, x = .ok a ∧ f a = c := by
  cases x with
  | error failure => cases h
  | ok a => exact ⟨a, rfl, Except.ok.inj h⟩

end Except

/-! ## Conversions -/

/-- The type of the values that a variable of a kind holds. -/
def Kind.valueType (kind : Kind) : ValueType := .several .float kind.components

theorem Kind.ofName?_typeName {kind : Kind} (h : kind.isNumeric = true) :
    ValueType.ofName? kind.typeName = some kind.valueType := by
  cases kind with
  | none => cases h
  | scalar => decide
  | vec2 => decide
  | vec3 => decide
  | vec4 => decide
  | image => cases h

namespace Glsl

variable {scope : List (String × ValueType)} {e : Expression}

/-- The functions of the template that conversions and samples call. -/
theorem helper?_eq :
    Shader.helper? "rgb_to_float" = some ([.vector .float 3], .float) ∧
    Shader.helper? "rgba_to_float" = some ([.vector .float 4], .float) ∧
    Shader.helper? "uv_to_texel" = some ([.vector .float 2, .vector .int 2], .vector .int 2) := by
  simp only [Shader.helper?, Shader.templateSignatures_eq]
  decide +kernel

theorem hasType_one : HasType scope oneTree .float := .literal .float _

/-- The types of what a vector is made of are known from its parts. -/
theorem hasType_vector {name : String} {type first second : ValueType} {f : Expression}
    (hname : ValueType.ofName? name = some type) (he : HasType scope e first)
    (hf : HasType scope f second) (hmakes : type.makes [first, second] = true) :
    HasType scope (.construct name [] [e, f]) type :=
  .construct hname (.cons he (.cons hf .nil)) hmakes

theorem hasType_imageSize {image : Expression}
    (h : HasType scope image (.image .float 2 true true)) :
    HasType scope (.call "imageSize" [image]) (.vector .int 2) := by
  have harguments : List.Forall₂ (HasType scope) [image]
      ((Shader.Intrinsic.ImageUse.size.overload (.image .float 2 true true) .float 2).parameters.map
        (·.type)) := .cons h .nil
  exact .image rfl (fun hload => by cases hload) rfl harguments

theorem hasType_imageLoad {image : Expression} (h : HasType scope image (.image .float 2 true true))
    (he : HasType scope e (.vector .int 2)) :
    HasType scope (.call "imageLoad" [image, e]) (.vector .float 4) := by
  have harguments : List.Forall₂ (HasType scope) [image, e]
      ((Shader.Intrinsic.ImageUse.load.overload (.image .float 2 true true) .float 2).parameters.map
        (·.type)) := .cons h (.cons he .nil)
  exact .image rfl (fun _ => rfl) rfl harguments

/-- **A conversion** makes values of one type from values of another. -/
theorem Conversion.hasType_tree {source target : Kind} {conversion : Conversion}
    (h : table source target = some conversion) (he : HasType scope e source.valueType) :
    HasType scope (conversion.tree e) target.valueType := by
  obtain ⟨hrgb, hrgba, _⟩ := helper?_eq
  have hgray {e : Expression} (he : HasType scope e .float) :
      HasType scope (.construct "vec3" [] [e]) (.vector .float 3) :=
    .construct (by decide) (.cons he .nil) rfl
  revert h
  -- twelve pairs of distinct kinds are left
  cases source <;> cases target <;> intro h <;> cases h
  case scalar.vec2 => exact hasType_vector (by decide) he hasType_one rfl
  case scalar.vec3 => exact hgray he
  case scalar.vec4 => exact hasType_vector (by decide) (hgray he) hasType_one rfl
  case vec2.scalar => exact .field he (by decide)
  case vec2.vec3 => exact hgray (.field he (by decide))
  case vec2.vec4 =>
    have hx : HasType scope (.field e "x") .float := .field he (by decide)
    have hy : HasType scope (.field e "y") .float := .field he (by decide)
    exact hasType_vector (by decide) (hgray hx) hy rfl
  case vec3.scalar => exact .helper hrgb (.cons he .nil)
  case vec3.vec2 => exact hasType_vector (by decide) (.helper hrgb (.cons he .nil)) hasType_one rfl
  case vec3.vec4 => exact hasType_vector (by decide) he hasType_one rfl
  case vec4.scalar => exact .helper hrgba (.cons he .nil)
  case vec4.vec2 =>
    have hxyz : HasType scope (.field e "xyz") (.vector .float 3) := .field he (by decide)
    have hw : HasType scope (.field e "w") .float := .field he (by decide)
    exact hasType_vector (by decide) (.helper hrgb (.cons hxyz .nil)) hw rfl
  case vec4.vec3 => exact .field he (by decide)

theorem Conversion.between_cases {source target : Kind} {conversion : Conversion}
    (h : between source target = .ok conversion) :
    (source.held = target ∧ conversion = .identity) ∨
      table source.held target = some conversion := by
  unfold between at h
  split_ifs at h with hnone hheld
  · exact Or.inl ⟨hheld, (Except.ok.inj h).symm⟩
  · split at h
    · next hsome => exact Or.inr (hsome.trans (congrArg some (Except.ok.inj h)))
    · cases h

end Glsl

namespace Program

open Glsl

variable {β : Type} {g : Graph β} {p : Program}

/-! ## Names and their types -/

/-- The names that expressions are made of, with the types that the program gives them: the
coordinate, the variables for outputs, and the uniforms. -/
def typeNames (g : Graph β) (p : Program) : List (String × String) :=
  (coordName, Kind.vec2.typeName) ::
    (g.nodes.flatMap fun n => n.outputs.map fun s =>
      (outputName n.id s.index, s.kind.held.typeName)) ++
    p.uniforms.map UniformDecl.declares

def types (g : Graph β) (p : Program) : List (String × ValueType) :=
  (typeNames g p).filterMap fun entry => (ValueType.ofName? entry.2).map (entry.1, ·)

/-- Where a declaration comes from. -/
inductive Declares (g : Graph β) : (name type : String) → Prop
  | coord : Declares g coordName Kind.vec2.typeName
  | output {n : Node β} {s : Socket} (hn : n ∈ g.nodes) (hs : s ∈ n.outputs) :
    Declares g (outputName n.id s.index) s.kind.held.typeName
  | uniform {n : Node β} {q : Param} (hn : n ∈ g.nodes) (hq : q ∈ n.params) :
    Declares g (uniformName n.id q.name) q.kind.typeName
  | flag {n : Node β} {q : Param} (hn : n ∈ g.nodes) (hq : q ∈ n.params)
    (himage : q.kind = .image) :
    Declares g (flagName (uniformName n.id q.name)) "int"

/-- The parameters of a node can be told apart by the camel-case forms of their names. -/
def ParamsApart (g : Graph β) : Prop :=
  ∀ n ∈ g.nodes, (n.params.map fun q => Identifier.camelCase q.name).Nodup

instance : Decidable (ParamsApart g) := inferInstanceAs (Decidable (∀ n ∈ g.nodes, _))

theorem coordName_ne (name : String) (h : '_' ∈ name.toList) : coordName ≠ name := by
  rintro rfl
  exact absurd h (by decide)

/-- **No name has two types.** -/
theorem Declares.unique (hwell : g.WellFormed) (hparams : ParamsApart g) {name type type' : String}
    (h : Declares g name type) (h' : Declares g name type') : type' = type := by
  generalize hname : name = name' at h'
  cases h with
  | coord =>
    cases h' with
    | coord => rfl
    | output => exact absurd hname (coordName_ne _ (underscore_mem_outputName _ _))
    | uniform => exact absurd hname (coordName_ne _ (underscore_mem_uniformName _ _))
    | flag => exact absurd hname (coordName_ne _ (underscore_mem_flagName _))
  | @output n s hn hs =>
    cases h' with
    | coord => exact absurd hname.symm (coordName_ne _ (underscore_mem_outputName _ _))
    | @output m t hm ht =>
      obtain ⟨hid, hindex⟩ := outputName_inj.mp hname
      obtain rfl := eq_of_id hwell hn hm hid
      have hnodup : (n.outputs.map (·.index)).Nodup := by
        rw [hwell.outputs_numbered n.id n (node?_of_mem hwell hn)]
        exact List.nodup_range
      rw [List.inj_on_of_nodup_map hnodup ht hs hindex.symm]
    | uniform => exact absurd hname (outputName_ne_uniformName _ _ _ _)
    | flag => exact absurd hname (outputName_ne_flagName _ _ _ _)
  | @uniform n q hn hq =>
    cases h' with
    | coord => exact absurd hname.symm (coordName_ne _ (underscore_mem_uniformName _ _))
    | output => exact absurd hname.symm (outputName_ne_uniformName _ _ _ _)
    | @uniform m r hm hr =>
      obtain ⟨hid, hcamel⟩ := uniformName_inj.mp hname
      obtain rfl := eq_of_id hwell hn hm hid
      rw [List.inj_on_of_nodup_map (hparams n hn) hr hq hcamel.symm]
    | flag => exact absurd hname.symm (flagName_ne_uniformName _ _ _ _)
  | flag =>
    cases h' with
    | coord => exact absurd hname.symm (coordName_ne _ (underscore_mem_flagName _))
    | output => exact absurd hname.symm (outputName_ne_flagName _ _ _ _)
    | uniform => exact absurd hname (flagName_ne_uniformName _ _ _ _)
    | flag => rfl

variable [Operable β]

theorem mem_typeNames (hp : Assembly g p) {name type : String} :
    (name, type) ∈ typeNames g p ↔ Declares g name type := by
  rw [typeNames, List.mem_append, List.mem_cons, List.mem_flatMap, hp.uniforms]
  constructor
  · rintro ((h | ⟨n, hn, h⟩) | ⟨n, hn, q, hq, h⟩)
    · cases h
      exact .coord
    · obtain ⟨s, hs, h⟩ := List.mem_map.mp h
      cases h
      exact .output hn hs
    · rw [declared] at h
      split_ifs at h with himage
      · rcases List.mem_pair.mp h with h | h
        · cases h
          exact .uniform hn hq
        · cases h
          exact .flag hn hq himage
      · cases List.mem_singleton.mp h
        exact .uniform hn hq
  · intro h
    cases h with
    | coord => exact Or.inl (Or.inl rfl)
    | output hn hs => exact Or.inl (Or.inr ⟨_, hn, List.mem_map.mpr ⟨_, hs, rfl⟩⟩)
    | uniform hn hq =>
      refine Or.inr ⟨_, hn, _, hq, ?_⟩
      rw [declared]
      split_ifs
      · exact List.mem_cons_self
      · exact List.mem_cons_self
    | flag hn hq himage =>
      refine Or.inr ⟨_, hn, _, hq, ?_⟩
      rw [declared, if_pos himage]
      exact List.mem_cons_of_mem _ List.mem_cons_self

/-- What is declared can be looked up. -/
theorem lookup_types (hwell : g.WellFormed) (hparams : ParamsApart g) (hp : Assembly g p)
    {name typeName : String} {type : ValueType} (h : Declares g name typeName)
    (htype : ValueType.ofName? typeName = some type) : (types g p).lookup name = some type := by
  -- every entry of the name has the type, so it does not matter which is found
  have hmem : ∀ t, (name, t) ∈ types g p ↔ t = type := by
    intro t
    rw [types, List.mem_filterMap]
    constructor
    · rintro ⟨⟨name', other⟩, hother, ht⟩
      obtain ⟨t', ht', heq⟩ := Option.map_eq_some_iff.mp ht
      cases heq
      rw [h.unique hwell hparams ((mem_typeNames hp).mp hother)] at ht'
      exact Option.some.inj (ht'.symm.trans htype)
    · rintro rfl
      exact ⟨(name, typeName), (mem_typeNames hp).mpr h, by simp [htype]⟩
  rw [List.lookup_eq_findSome?]
  refine findSome?_eq_some_of_agree ⟨(name, type), (hmem type).mpr rfl, by simp⟩ ?_
  intro entry hentry t ht
  obtain ⟨rfl, rfl⟩ : name = entry.1 ∧ entry.2 = t := by simpa using ht
  exact (hmem entry.2).mp hentry

/-! ## Arguments -/

/-- The expression is read as one of the type that the kind has, where names have these types. -/
structure Fits (scope : List (String × ValueType)) (e : Expr) (kind : Kind) : Prop where
  plain : e.Plain
  hasType : HasType scope e.tree kind.valueType

theorem valueType_held (kind : Kind) : kind.held.valueType = kind.valueType := by
  cases kind <;> rfl

/-- What is converted fits the kind that it is converted to. -/
theorem Fits.converted {scope : List (String × ValueType)} {source target : Kind} {e e' : Expr}
    (h : Expr.converted source target e = .ok e') (hplain : e.Plain)
    (htype : source ≠ .none → HasType scope e.tree source.held.valueType) :
    Fits scope e' target := by
  obtain ⟨conversion, hbetween, rfl⟩ := exists_of_map_eq_ok h
  have hsource : source ≠ .none := by
    rintro rfl
    cases hbetween
  rcases Conversion.between_cases hbetween with ⟨rfl, rfl⟩ | htable
  · exact ⟨hplain, htype hsource⟩
  · exact ⟨hplain, Conversion.hasType_tree htable (htype hsource)⟩

theorem hasType_zero {scope : List (String × ValueType)} {kind : Kind} (h : kind.isNumeric = true) :
    HasType scope (Expr.zero kind).tree kind.valueType := by
  have hzero : HasType scope zeroTree .float := .literal .float _
  cases kind with
  | none => cases h
  | scalar => exact hzero
  | vec2 => exact .construct (by decide) (.cons hzero .nil) rfl
  | vec3 => exact .construct (by decide) (.cons hzero .nil) rfl
  | vec4 => exact .construct (by decide) (.cons hzero .nil) rfl
  | image => cases h

/-- Zero fits every kind that has one. -/
theorem fits_ofZero {scope : List (String × ValueType)} {kind : Kind} {e : Expr}
    (h : Expr.ofZero kind = .ok e) : Fits scope e kind := by
  unfold Expr.ofZero at h
  split_ifs at h with hnumeric
  cases h
  refine ⟨hnumeric, ?_⟩
  rw [← valueType_held]
  exact hasType_zero hnumeric

section

variable (hwell : g.WellFormed) (hparams : ParamsApart g) (hp : Assembly g p)

include hwell hparams hp

theorem hasType_declared {name : String} {kind : Kind} (h : Declares g name kind.typeName)
    (hkind : kind.isNumeric = true) : HasType (types g p) (.variable name) kind.valueType :=
  .named (lookup_types hwell hparams hp h (Kind.ofName?_typeName hkind))

/-- An output of a node, converted. -/
theorem fits_output {id k : Nat} {n : Node β} {s : Socket} (hn : g.node? id = some n)
    (hs : n.outputs[k]? = some s) {target : Kind} {e : Expr}
    (h : Expr.converted s.kind target (.var (outputName id k)) = .ok e) :
    Fits (types g p) e target := by
  refine .converted h (isName_outputName id k) fun hkind => ?_
  obtain rfl := hwell.ids id n hn
  obtain rfl := Graph.index_of_numbered (hwell.outputs_numbered n.id n hn) hs
  exact hasType_declared hwell hparams hp
    (.output (List.mem_of_getElem? hn) (List.mem_of_getElem? hs))
    (isNumeric_held hkind)

theorem fits_coord {target : Kind} {e : Expr} (h : Expr.converted .vec2 target .coord = .ok e) :
    Fits (types g p) e target :=
  .converted h trivial fun _ => hasType_declared hwell hparams hp .coord rfl

/-- What a connection brings. -/
theorem fits_connected {n : Node β} {input : String} {kind : Kind} {e : Expr}
    (h : connected? g n input kind = .ok (some e)) : Fits (types g p) e kind := by
  unfold connected? at h
  split at h
  · cases h
  · next c _ =>
    split at h
    · cases h
    · next source hsource =>
      split at h
      · cases h
      · next socket hsocket =>
        obtain ⟨value, hconverted, hvalue⟩ := exists_of_map_eq_ok h
        cases hvalue
        exact fits_output hwell hparams hp hsource hsocket hconverted

/-- The color of an image, converted. -/
theorem fits_sample {n : Node β} {q : Param} (hn : n ∈ g.nodes) (hq : q ∈ n.params)
    (himage : q.kind = .image) {position e : Expr} (hposition : Fits (types g p) position .vec2)
    {target : Kind}
    (h : Expr.converted .image target (.sample (uniformName n.id q.name) position) = .ok e) :
    Fits (types g p) e target := by
  obtain ⟨_, _, htexel⟩ := helper?_eq
  have hdeclared : Declares g (uniformName n.id q.name) Kind.image.typeName :=
    himage ▸ .uniform hn hq
  have huniform : HasType (types g p) (.variable (uniformName n.id q.name))
      (.image .float 2 true true) :=
    .named (lookup_types hwell hparams hp hdeclared (by decide))
  have hflag : HasType (types g p) (.variable (flagName (uniformName n.id q.name))) .int :=
    .named (lookup_types hwell hparams hp (.flag hn hq himage) (by decide))
  have hsize : HasType (types g p) (.call "imageSize" [.variable (uniformName n.id q.name)])
      (.vector .int 2) :=
    hasType_imageSize huniform
  have hplace := HasType.helper htexel (.cons hposition.hasType (.cons hsize .nil))
  have hload := hasType_imageLoad huniform hplace
  have hfactor : HasType (types g p)
      (.construct "float" [] [.variable (flagName (uniformName n.id q.name))]) .float :=
    .construct (by decide) (.cons hflag .nil) rfl
  refine .converted h ?_ fun _ => .scale hload hfactor
  exact ⟨isName_uniformName _ _, isName_flagName _ _, hposition.plain⟩

/-- **An argument** has the type of its parameter, wherever it comes from. -/
theorem fits_argument {n : Node β} (hn : n ∈ g.nodes) {binding : Binding} {kind : Kind} {e : Expr}
    (h : argument g n binding kind = .ok e) : Fits (types g p) e kind := by
  unfold argument at h
  obtain ⟨found, hconnected, h⟩ := exists_of_bind_eq_ok h
  cases found with
  | some value =>
    cases h
    exact fits_connected hwell hparams hp hconnected
  | none =>
    simp only at h
    split at h
    · next q hq =>
      have hmem : q ∈ n.params := List.mem_of_find?_eq_some hq
      split_ifs at h with himage
      · obtain ⟨place, hplace, h⟩ := exists_of_bind_eq_ok h
        refine fits_sample hwell hparams hp hn hmem himage ?_ h
        -- the input for the coordinate may bring one
        cases place with
        | none => exact ⟨trivial, hasType_declared hwell hparams hp .coord rfl⟩
        | some position => exact fits_connected hwell hparams hp hplace
      · refine .converted h (isName_uniformName _ _) fun hnone => ?_
        rw [valueType_held]
        exact hasType_declared hwell hparams hp (.uniform hn hmem)
          (Kind.isNumeric_of_ne hnone himage)
    · split_ifs at h
      · exact fits_coord hwell hparams hp h
      · exact fits_ofZero h

end

/-! ## Lines -/

/-- The expressions are arguments for the parameters: each has the very type of its parameter, and
for outputs there are the variables of the node, from the output `next` on. -/
inductive Passes (scope : List (String × ValueType)) (n : Node β) :
    (next : Nat) → (parameters : List (String × Parameter)) → (es : List Expression) → Prop
  | nil {next : Nat} : Passes scope n next [] []
  | output {next : Nat} {name : String} {parameter : Parameter} {rest : List (String × Parameter)}
    {es : List Expression} (hqualifier : parameter.qualifier = .output)
    (hnext : next < n.outputs.length) (h : Passes scope n (next + 1) rest es) :
    Passes scope n next ((name, parameter) :: rest) (.variable (outputName n.id next) :: es)
  | input {next : Nat} {name : String} {parameter : Parameter} {rest : List (String × Parameter)}
    {e : Expression} {es : List Expression} (hqualifier : parameter.qualifier ≠ .output)
    (htype : ∀ type, HasType scope e type ↔ type = parameter.kind.valueType)
    (h : Passes scope n next rest es) : Passes scope n next ((name, parameter) :: rest) (e :: es)

theorem Fits.iff {scope : List (String × ValueType)} {e : Expr} {kind : Kind}
    (h : Fits scope e kind) (type : ValueType) :
    HasType scope e.tree type ↔ type = kind.valueType := by
  constructor
  · exact fun htype => h.hasType.unique htype
  · rintro rfl
    exact h.hasType

/-- **Arguments**, one by one. -/
theorem passes_arguments (hwell : g.WellFormed) (hparams : ParamsApart g) (hp : Assembly g p)
    {n : Node β} (hn : n ∈ g.nodes) {next : Nat} {parameters : List (String × Parameter)}
    {es : List Expr} (h : arguments g n next parameters = .ok es) :
    (∀ e ∈ es, e.Plain) ∧ Passes (types g p) n next parameters (es.map Expr.tree) := by
  induction parameters generalizing next es with
  | nil =>
    cases h
    exact ⟨fun e he => absurd he List.not_mem_nil, .nil⟩
  | cons first rest ih =>
    obtain ⟨name, parameter⟩ := first
    rw [arguments] at h
    split_ifs at h with houtput hnext
    · obtain ⟨others, hrest, h⟩ := exists_of_bind_eq_ok h
      cases h
      obtain ⟨hplain, hpasses⟩ := ih hrest
      exact ⟨List.forall_mem_cons.mpr ⟨isName_outputName _ _, hplain⟩,
        .output houtput (Nat.lt_of_not_le hnext) hpasses⟩
    · obtain ⟨value, hvalue, h⟩ := exists_of_bind_eq_ok h
      obtain ⟨others, hrest, h⟩ := exists_of_bind_eq_ok h
      cases h
      have hfits := fits_argument hwell hparams hp hn hvalue
      obtain ⟨hplain, hpasses⟩ := ih hrest
      exact ⟨List.forall_mem_cons.mpr ⟨hfits.plain, hplain⟩, .input houtput hfits.iff hpasses⟩

theorem fits_subtreeResult (hwell : g.WellFormed) (hparams : ParamsApart g) (hp : Assembly g p)
    {n : Node β} {e : Expr} (h : subtreeResult g n = .ok e) : Fits (types g p) e .vec4 := by
  unfold subtreeResult at h
  split at h
  · cases h
    exact ⟨rfl, hasType_zero rfl⟩
  · next c _ =>
    split at h
    · cases h
    · next source hsource =>
      cases hsocket : source.outputs[c.output]? with
      | none =>
        rw [hsocket] at h
        cases h
      | some socket =>
        rw [hsocket] at h
        exact fits_output hwell hparams hp hsource hsocket h

theorem fits_stored (hwell : g.WellFormed) (hparams : ParamsApart g) (hp : Assembly g p)
    {id : Nat} {s : Socket} {e : Expr} (hs : g.output? id 0 = some s)
    (h : Expr.converted s.kind .vec4 (.var (outputName id 0)) = .ok e) :
    Fits (types g p) e .vec4 := by
  obtain ⟨n, hn, hsocket⟩ := Option.bind_eq_some_iff.mp hs
  exact fits_output hwell hparams hp hn hsocket h

/-- A call has one argument for each parameter, in the order in which they are declared. -/
theorem names_callParameters (f : Function) :
    f.callParameters.map (·.1) = f.parameters.map (·.1) := by
  have hknown : ∀ x ∈ f.parameters, ∃ q, f.parameter? x.1 = some q := by
    intro x hx
    have hfind : (f.parameters.reverse.find? (·.1 = x.1)).isSome := by
      rw [List.find?_isSome]
      exact ⟨x, List.mem_reverse.mpr hx, by simp⟩
    obtain ⟨y, hy⟩ := Option.isSome_iff_exists.mp hfind
    exact ⟨y.2, by rw [Function.parameter?, hy]; rfl⟩
  rw [Function.callParameters, List.map_filterMap, ← List.filterMap_eq_map]
  refine List.filterMap_congr fun x hx => ?_
  obtain ⟨q, hq⟩ := hknown x hx
  simp [hq]

/-- The expressions are what a function can be called with: arguments for its parameters, in the
order in which they are declared. -/
def Accepts (scope : List (String × ValueType)) (n : Node β) (f : Function) (es : List Expression) :
    Prop :=
  f.callParameters.map (·.1) = f.parameters.map (·.1) ∧ Passes scope n 0 f.callParameters es

omit [Operable β] in
theorem Passes.length_eq {scope : List (String × ValueType)} {n : Node β} {next : Nat}
    {parameters : List (String × Parameter)} {es : List Expression}
    (h : Passes scope n next parameters es) : es.length = parameters.length := by
  induction h with
  | nil => rfl
  | output _ _ _ ih => rw [List.length_cons, List.length_cons, ih]
  | input _ _ _ ih => rw [List.length_cons, List.length_cons, ih]

end Program
end Texel
