import Texel.Proofs.Program.Calls

/-!
# Texel — parameters that no value fits

A function may ask for a type that no value has: an unknown one, or an image. Such a parameter can
be bound to a connection, to a parameter of the node, to the coordinate or to nothing, and each of
these ways converts in its own place. Nothing converts to such a kind; but a missing image has a
zero, which is a color.

* **`CallSite`** — where a node is called: in the body, and in the subtree functions above it.
* **`Served`**, **`AllServed.step`** — if generation goes on, every call has found its arguments.
* **`argument_cases`** — an argument for such a kind is the zero of an image that nothing is bound
  to.
* **`unsupported_refused`** — so generation fails, this one case apart.
-/

namespace Texel

namespace Glsl

/-- Nothing converts to a kind without values. -/
theorem Conversion.between_of_not_isNumeric {target : Kind} (h : target.isNumeric = false)
    (source : Kind) : between source target = .error (.noConversion source target) := by
  cases target with
  | none => cases source <;> rfl
  | image => cases source <;> rfl
  | scalar => cases h
  | vec2 => cases h
  | vec3 => cases h
  | vec4 => cases h

theorem Expr.converted_ne_ok {target : Kind} (h : target.isNumeric = false) (source : Kind)
    (e e' : Expr) : converted source target e ≠ .ok e' := by
  rw [converted, Conversion.between_of_not_isNumeric h]
  intro hok
  cases hok

/-- The kind of a parameter is that of its type. -/
theorem Function.kind_of_parameter? {f : Function} {name : String} {parameter : Parameter}
    (h : f.parameter? name = some parameter) :
    parameter.kind = (Kind.ofTypeName? parameter.typeName).getD .none := by
  obtain ⟨x, hx, rfl⟩ := Option.map_eq_some_iff.mp h
  have hmem : x ∈ f.parameters := List.mem_reverse.mp (List.mem_of_find?_eq_some hx)
  obtain ⟨words, _, hwords⟩ := List.mem_filterMap.mp hmem
  unfold Parameter.ofWords? at hwords
  split at hwords
  · cases hwords
    rfl
  · cases hwords

theorem Function.mem_callParameters {f : Function} {name : String} {parameter : Parameter}
    (h : f.parameter? name = some parameter) : (name, parameter) ∈ f.callParameters := by
  obtain ⟨x, hx, hparameter⟩ := Option.map_eq_some_iff.mp h
  have hmem : x ∈ f.parameters := List.mem_reverse.mp (List.mem_of_find?_eq_some hx)
  have hname : x.1 = name := by simpa using List.find?_some hx
  refine List.mem_filterMap.mpr ⟨x, hmem, ?_⟩
  show (f.parameter? x.1).map (x.1, ·) = _
  rw [hname, h, Option.map_some]

/-- The types that values have are those of the numeric kinds. -/
theorem isNumeric_of_typeName {typeName : String} :
    ((Kind.ofTypeName? typeName).getD .none).isNumeric = true ↔
      typeName ∈ ["float", "vec2", "vec3", "vec4"] := by
  unfold Kind.ofTypeName?
  split_ifs with hfloat hvec2 hvec3 hvec4 himage
  all_goals simp_all [Kind.isNumeric]

theorem image_iff_typeName {typeName : String} :
    (Kind.ofTypeName? typeName).getD .none = .image ↔ typeName = "image2D" := by
  unfold Kind.ofTypeName?
  split_ifs with hfloat hvec2 hvec3 hvec4 himage
  all_goals simp_all

end Glsl

namespace Program

open Glsl

variable {β : Type} [Operable β] {g : Graph β} {order done known : List Nat} {id : Nat} {n : Node β}
  {d d' : Draft}

/-! ## Calls -/

/-- The calls of the first nodes of an evaluation order: each node is called in the body, and once
more in the subtree function of every multi-pass node that it leads to. The libraries of the nodes
`known` have been added by then. -/
inductive CallSite (g : Graph β) (done : List Nat) : (known : List Nat) → (id : Nat) → Prop
  | body {before : List Nat} {id : Nat} (hturn : before ++ [id] <+: done) :
    CallSite g done (before ++ [id]) id
  | subtree {before : List Nat} {id : Nat} {m : Node β} (hturn : before ++ [m.id] <+: done)
    (hm : m ∈ g.nodes) (hmulti : (operatorOf m).multiPass = true) (hid : id ∈ g.ancestors m.id) :
    CallSite g done before id

/-- The function of a node at one of its calls. -/
def Calling (g : Graph β) (order : List Nat) (n : Node β) (f : Function) : Prop :=
  ∃ known, CallSite g order known n.id ∧
    find? (functionsIn (libraryOf (sources g order known))) (calleeName n) = some f

/-- The calls that come with one more node. -/
theorem CallSite.of_concat {x : Nat} (h : CallSite g (done ++ [id]) known x) :
    CallSite g done known x ∨ (known = done ++ [id] ∧ x = id) ∨
      (known = done ∧ x ∈ g.ancestors id ∧
        ∃ m ∈ g.nodes, m.id = id ∧ (operatorOf m).multiPass = true) := by
  cases h with
  | body hturn =>
    rcases List.prefix_concat_iff.mp hturn with hlast | hbefore
    · have hid := (List.append_inj' hlast rfl).2
      exact Or.inr (Or.inl ⟨hlast, List.singleton_inj.mp hid⟩)
    · exact Or.inl (.body hbefore)
  | @subtree _ _ m hturn hm hmulti hid =>
    rcases List.prefix_concat_iff.mp hturn with hlast | hbefore
    · obtain ⟨hknown, hlast⟩ := List.append_inj' hlast rfl
      have hm' : m.id = id := List.singleton_inj.mp hlast
      exact Or.inr (Or.inr ⟨hknown, hm' ▸ hid, m, hm, hm', hmulti⟩)
    · exact Or.inl (.subtree hbefore hm hmulti hid)

/-- There are arguments for the parameters that the function of a node has at this time. -/
def Served (g : Graph β) (order known : List Nat) (id : Nat) : Prop :=
  ∀ n f, g.node? id = some n →
    find? (functionsIn (libraryOf (sources g order known))) (calleeName n) = some f →
    ∃ found, arguments g n 0 f.callParameters = .ok found

theorem Assembled.served (hd : Assembled g order done d) (h : (emitCall g id).Returns d () d') :
    Served g order done id := by
  obtain ⟨n, _, _, f, found, hn, _, hf, hfound, _⟩ := hd.emitCall_cases h
  intro m f' hm hf'
  obtain rfl := Option.some.inj (hn.symm.trans hm)
  obtain rfl := Option.some.inj (hf.symm.trans hf')
  exact ⟨found, hfound⟩

theorem Assembled.servedAll (hd : Assembled g order done d) (hdone : done <+: order)
    {ids : List Nat} (h : (Action.each (emitCall g) ids).Returns d () d') :
    ∀ id ∈ ids, Served g order done id := by
  refine (Action.Returns.of_each
    (P := fun before x => Assembled g order done x ∧ ∀ id ∈ before, Served g order done id)
    (fun before id after hsplit x x' hx hcall => ?_) ⟨hd, ?_⟩ h).2
  · refine ⟨(hx.1.call hdone hcall).1, ?_⟩
    rw [List.forall_mem_append, List.forall_mem_singleton]
    exact ⟨hx.2, hx.1.served hcall⟩
  · exact fun id hid => absurd hid List.not_mem_nil

/-- The calls in a subtree function. They come before the library of its node is added. -/
theorem Assembled.servedMembers (hd : Assembled g order done d) (hdone : done <+: order)
    (hbefore : ∀ m ∈ g.ancestors n.id, m ∈ done)
    (h : (Program.specialise g order n).Returns d () d') :
    ∀ id ∈ g.ancestors n.id, Served g order done id := by
  obtain ⟨_, _, _, hcall, _⟩ := specialise_cases h
  intro id hid
  have hmember : id ∈ members g order n.id :=
    List.mem_filter.mpr ⟨hdone.subset (hbefore id hid), decide_eq_true hid⟩
  exact (hd.declared n).servedAll hdone hcall id hmember

/-- The draft once the nodes `done` have been called, with arguments for all parameters. -/
structure AllServed (g : Graph β) (order done : List Nat) (d : Draft) : Prop
    extends AllCalled g order done d where
  served : ∀ known id, CallSite g done known id → Served g order known id

/-- **One node of the body**, and what feeds it. -/
theorem AllServed.step (hwell : g.WellFormed) (horder : g.IsEvaluationOrder order)
    (hd : AllServed g order done d) {rest : List Nat} (hsplit : done ++ id :: rest = order)
    (h : (emitNode g order id).Returns d () d') : AllServed g order (done ++ [id]) d' := by
  refine ⟨hd.toAllCalled.step hsplit h, fun known x hsite => ?_⟩
  obtain ⟨n, d₁, hn, hd₁, _, hspecialise, hcall⟩ :=
    hd.toAssembled.emitNode_cases hsplit h
  rcases hsite.of_concat with hsite | ⟨rfl, rfl⟩ | ⟨rfl, hx, m, hm, hid, hmulti⟩
  · exact hd.served known x hsite
  · exact hd₁.served hcall
  · -- the node at hand is the one whose subtree function has the call
    have hm' : g.node? id = some m := hid ▸ node?_of_mem hwell hm
    obtain rfl := Option.some.inj (hn.symm.trans hm')
    have hbefore : ∀ k ∈ g.ancestors n.id, k ∈ known := by
      rw [hid]
      exact fun k => mem_done_of_ancestor hwell horder hsplit
    rw [if_pos hmulti] at hspecialise
    exact hd.toAssembled.servedMembers ⟨id :: rest, hsplit⟩ hbefore hspecialise x (hid.symm ▸ hx)

/-- **All calls** of a program have found their arguments. -/
theorem served_of_generate (hwell : g.WellFormed) {p : Program}
    (h : (generate.run g).result = .ok p) :
    ∃ order, g.schedule = .ok order ∧ ∀ known id, CallSite g order known id →
      Served g order known id := by
  obtain ⟨order, hschedule, horder, hbuild⟩ := exists_order_of_generate hwell h
  obtain ⟨d₁, d₂, hd₁, hemit, _⟩ := build_steps ⟨hbuild, rfl⟩
  have hstart : AllServed g order [] d₁.loaded := by
    refine ⟨hd₁.allCalled, fun known id hsite => ?_⟩
    cases hsite with
    | body hturn => simp at hturn
    | subtree hturn => simp at hturn
  have hend : AllServed g order order d₂ :=
    Action.Returns.of_each (fun _ _ _ hsplit _ _ hx hstep => hx.step hwell horder hsplit hstep)
      hstart hemit
  exact ⟨order, hschedule, hend.served⟩

/-! ## Arguments -/

/-- Nothing is bound to the parameter: no connection, no parameter of the node, and not the
coordinate. -/
def Unbound (g : Graph β) (n : Node β) (binding : Binding) : Prop :=
  (n.inputIndex? binding.name).bind (g.feeding? n.id) = none ∧ n.param? binding.name = none ∧
    binding.coords = false

omit [Operable β] in
/-- A connection brings no value of such a kind. -/
theorem feeding?_of_connected? (hwell : g.WellFormed) {input : String} {kind : Kind}
    {found : Option Expr} (hkind : kind.isNumeric = false)
    (h : connected? g n input kind = .ok found) :
    found = none ∧ (n.inputIndex? input).bind (g.feeding? n.id) = none := by
  unfold connected? at h
  split at h
  · next hnone => exact ⟨(Except.ok.inj h).symm, hnone⟩
  · next c hc =>
    obtain ⟨index, _, hfeeding⟩ := Option.bind_eq_some_iff.mp hc
    have hmem : c ∈ g.connections := List.mem_of_find?_eq_some hfeeding
    obtain ⟨source, hsource, houtput⟩ := hwell.leaves c hmem
    -- the output is there, so its value would have to be converted
    rw [show g.node? c.source = some source from hsource] at h
    simp only [List.getElem?_eq_getElem houtput] at h
    obtain ⟨value, hvalue, _⟩ := exists_of_map_eq_ok h
    exact absurd hvalue (Expr.converted_ne_ok hkind _ _ _)

omit [Operable β] in
/-- **Arguments** for a kind that has no values: only the zero of an image is left. -/
theorem argument_cases (hwell : g.WellFormed) {binding : Binding} {kind : Kind} {e : Expr}
    (hkind : kind.isNumeric = false) (h : argument g n binding kind = .ok e) :
    kind = .image ∧ Unbound g n binding := by
  unfold argument at h
  obtain ⟨found, hfound, h⟩ := exists_of_bind_eq_ok h
  obtain ⟨rfl, hfeeding⟩ := feeding?_of_connected? hwell hkind hfound
  simp only at h
  split at h
  · -- a parameter of the node: an image is sampled, a value is read
    split_ifs at h with himage
    · obtain ⟨place, _, h⟩ := exists_of_bind_eq_ok h
      exact absurd h (Expr.converted_ne_ok hkind _ _ _)
    · exact absurd h (Expr.converted_ne_ok hkind _ _ _)
  · next hparam =>
    split_ifs at h with hcoords
    · exact absurd h (Expr.converted_ne_ok hkind _ _ _)
    · -- nothing is left but zero, which an unknown kind does not have
      refine ⟨?_, hfeeding, hparam, Bool.not_eq_true _ ▸ hcoords⟩
      cases kind with
      | none => cases h
      | image => rfl
      | scalar => cases hkind
      | vec2 => cases hkind
      | vec3 => cases hkind
      | vec4 => cases hkind

omit [Operable β] in
/-- An image that nothing is bound to is a color. -/
theorem argument_unbound {binding : Binding} (h : Unbound g n binding) :
    argument g n binding .image = .ok (.zero .vec4) := by
  obtain ⟨hfeeding, hparam, hcoords⟩ := h
  simp [argument, connected?, hfeeding, hparam, hcoords, Expr.ofZero, Kind.held, Kind.isNumeric,
    bind, Except.bind]

/-- Arguments have been found one by one. -/
theorem exists_argument {next : Nat} {parameters : List (String × Parameter)} {found : List Expr}
    (h : arguments g n next parameters = .ok found) {name : String} {parameter : Parameter}
    (hmem : (name, parameter) ∈ parameters) (hin : parameter.qualifier ≠ .output) :
    ∃ e, argument g n ((operatorOf n).binding name) parameter.kind = .ok e := by
  induction parameters generalizing next found with
  | nil => exact absurd hmem List.not_mem_nil
  | cons first rest ih =>
    obtain ⟨other, otherParameter⟩ := first
    rw [arguments] at h
    rcases List.mem_cons.mp hmem with hfirst | hrest
    · cases hfirst
      rw [if_neg hin] at h
      obtain ⟨e, he, _⟩ := exists_of_bind_eq_ok h
      exact ⟨e, he⟩
    · split_ifs at h with houtput hcount
      · obtain ⟨others, hothers, _⟩ := exists_of_bind_eq_ok h
        exact ih hothers hrest
      · obtain ⟨_, _, h⟩ := exists_of_bind_eq_ok h
        obtain ⟨others, hothers, _⟩ := exists_of_bind_eq_ok h
        exact ih hothers hrest

/-! ## Programs -/

/-- **Types without values.** Take an input parameter, of the function of a node at one of its
calls, whose type is none of those that values have. Generation fails, whatever the parameter is
bound to, unless it is an image and bound to nothing; then its argument is a color. -/
theorem unsupported_refused (operations : List (Graph.Operation β)) {n : Node β}
    (hn : n ∈ (Graph.ofOperations operations).nodes) {f : Function}
    (hf : ∀ order, (Graph.ofOperations operations).schedule = .ok order →
      Calling (Graph.ofOperations operations) order n f)
    {name : String} {parameter : Parameter} (hparameter : f.parameter? name = some parameter)
    (hin : parameter.qualifier ≠ .output)
    (htype : parameter.typeName ∉ ["float", "vec2", "vec3", "vec4"]) :
    (¬ (parameter.typeName = "image2D" ∧
        Unbound (Graph.ofOperations operations) n ((operatorOf n).binding name)) →
      ∃ failure, (generate.run (Graph.ofOperations operations)).result = .error failure) ∧
    (parameter.typeName = "image2D" →
      Unbound (Graph.ofOperations operations) n ((operatorOf n).binding name) →
      argument (Graph.ofOperations operations) n ((operatorOf n).binding name) parameter.kind =
        .ok (.zero .vec4)) := by
  have hwell := Graph.wellFormed_ofOperations operations
  have hkind := Function.kind_of_parameter? hparameter
  refine ⟨fun hbound => ?_, fun himage hunbound => ?_⟩
  · cases hresult : (generate.run (Graph.ofOperations operations)).result with
    | error failure => exact ⟨failure, rfl⟩
    | ok p =>
      -- all calls have found their arguments, this one as well
      obtain ⟨order, hschedule, hserved⟩ := served_of_generate hwell hresult
      obtain ⟨known, hsite, hfind⟩ := hf order hschedule
      obtain ⟨found, hfound⟩ := hserved known n.id hsite n f (node?_of_mem hwell hn) hfind
      obtain ⟨e, he⟩ := exists_argument hfound (Function.mem_callParameters hparameter) hin
      have hnumeric : parameter.kind.isNumeric = false := by
        rw [hkind, ← Bool.not_eq_true, isNumeric_of_typeName]
        exact htype
      obtain ⟨himage, hunbound⟩ := argument_cases hwell hnumeric he
      rw [hkind] at himage
      exact absurd ⟨image_iff_typeName.mp himage, hunbound⟩ hbound
  · rw [hkind, image_iff_typeName.mpr himage]
    exact argument_unbound hunbound

/-- Brings a color. -/
def paint : Operator where
  function := "paint"
  library := "void paint(out vec4 r)\x7b\x7d"
  outputs := [("Color", .vec4)]

/-- Asks for an image where the others ask for a color. -/
def tile : Operator where
  function := "tile"
  library := "void tile(image2D i,out vec4 r)\x7b\x7d"
  inputs := [("i", .vec4)]
  outputs := [("Color", .vec4)]

/-- A tile that is fed a color. -/
def painted : List (Graph.Operation Operator) :=
  [.edit (.create paint), .edit (.create tile), .edit (.connect ⟨0, 0, 1, 0⟩)]

/-- The color does not convert to an image. -/
theorem painted_refused :
    ∃ f, (∀ order, (Graph.ofOperations painted).schedule = .ok order →
        ∃ n ∈ (Graph.ofOperations painted).nodes, Calling (Graph.ofOperations painted) order n f) ∧
      f.parameter? "i" = some ⟨.image, .none, "image2D"⟩ ∧
      ∃ failure, (generate.run (Graph.ofOperations painted)).result = .error failure := by
  obtain ⟨n, hn, hid, hcallee, hbound⟩ : ∃ n ∈ (Graph.ofOperations painted).nodes, n.id = 1 ∧
      calleeName n = "tile" ∧
      ¬ (n.inputIndex? ((operatorOf n).binding "i").name).bind
        ((Graph.ofOperations painted).feeding? n.id) = none := by decide +kernel
  have hschedule : (Graph.ofOperations painted).schedule = .ok [0, 1] := by decide +kernel
  have hparameter :
      ((find? (functionsIn (libraryOf (sources (Graph.ofOperations painted) [0, 1] [0, 1])))
      "tile").bind (·.parameter? "i")) = some ⟨.image, .none, "image2D"⟩ := by decide +kernel
  obtain ⟨f, hfind, hparameter⟩ := Option.bind_eq_some_iff.mp hparameter
  have hf : ∀ order, (Graph.ofOperations painted).schedule = .ok order →
      Calling (Graph.ofOperations painted) order n f := by
    intro order horder
    obtain rfl := Except.ok.inj (hschedule.symm.trans horder)
    refine ⟨[0] ++ [1], ?_, ?_⟩
    · rw [hid]
      exact .body List.prefix_rfl
    · rw [hcallee]
      exact hfind
  refine ⟨f, fun order horder => ⟨n, hn, hf order horder⟩, hparameter, ?_⟩
  refine (unsupported_refused painted hn hf hparameter (by decide) (by decide)).1 ?_
  exact fun hunbound => hbound hunbound.2.1

/-- A tile that nothing feeds. Its function asks for an image and is given a color. -/
theorem tile_given_color :
    (find? (functionsIn tile.library) "tile").bind (·.parameter? "i") =
        some ⟨.image, .none, "image2D"⟩ ∧
      ∃ p, (generate.run (Graph.ofOperations [.edit (.create tile)])).result = .ok p ∧
        .line (.call "tile" [.zero .vec4, .var "out_0_0"]) ∈ p.body := by
  refine ⟨by decide +kernel, ?_⟩
  have hbody :
      (generate.run (Graph.ofOperations [.edit (.create tile)])).result.toOption.map (·.body) =
      some [.line (.declare .vec4 "out_0_0"), .line (.call "tile" [.zero .vec4, .var "out_0_0"]),
        .line (.store (.convert .identity (.var "out_0_0")))] := by decide +kernel
  cases hresult : (generate.run (Graph.ofOperations [.edit (.create tile)])).result with
  | error failure => rw [hresult] at hbody; cases hbody
  | ok p =>
    rw [hresult] at hbody
    refine ⟨p, rfl, ?_⟩
    rw [show p.body = _ from Option.some.inj hbody]
    decide

end Program
end Texel
