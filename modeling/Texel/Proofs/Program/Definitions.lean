import Texel.Proofs.Program.Wording
import Texel.Proofs.Shader.Typing

/-!
# Texel — what the definitions of a program define

The text of the definitions of a program is scanned like a library. What is found there are the
functions of the libraries that the program needs, and two functions for each multi-pass node. All
results go along `Defined`, node after node.

* **`Defines.exists_defined`** — the functions that are found in the text.
* **`Defined.mem_names_iff`**, **`Defined.nodup_names`** — their names, each once.
* **`Defined.callsKnown`** — functions are defined before they are called.
* **`Defined.hasFunction`** — the function of a node has the parameters that its call supplies.
-/

namespace Texel.Program

open Glsl Builtin

variable {g : Graph Builtin} {order done : List Nat} {pieces : List Piece} {es : List Entry}
  {id : Nat} {n : Node Builtin}

/-- The functions in the definitions of some nodes, in the order of the text. -/
inductive Defined (g : Graph Builtin) (order : List Nat) : List Nat → List Entry → Prop
  | nil : Defined g order [] []
  /-- A single-pass node whose operator has come before. -/
  | again {done : List Nat} {es : List Entry} {id : Nat} {n : Node Builtin}
    (h : Defined g order done es) (hn : g.node? id = some n)
    (hsingle : n.behavior ≠ .heightGradient) (hold : n.behavior ∈ operators g done) :
    Defined g order (done ++ [id]) es
  /-- The first node of a single-pass operator brings the library. -/
  | library {done : List Nat} {es : List Entry} {id : Nat} {n : Node Builtin}
    (h : Defined g order done es) (hn : g.node? id = some n)
    (hsingle : n.behavior ≠ .heightGradient) (hnew : n.behavior ∉ operators g done) :
    Defined g order (done ++ [id]) (es ++ n.behavior.entriesOf)
  /-- A multi-pass node brings its subtree function and its own function. -/
  | subtree {done : List Nat} {es : List Entry} {id : Nat} {n : Node Builtin} {e : Entry}
    (h : Defined g order done es) (hn : g.node? id = some n)
    (hmulti : n.behavior = .heightGradient)
    (he : e.IsBlock (subtreeName id) (scope g (members g order id) (.ret (returned g n)))) :
    Defined g order (done ++ [id]) (es ++ [e, gradientEntry id])

theorem holding_entries {source : String} (hes : ∀ e ∈ es, e ∈ entries source) :
    Holding (renderPieces (es.map Entry.piece)) es := by
  induction es with
  | nil => exact holding_empty
  | cons e es ih =>
    rw [List.forall_mem_cons] at hes
    rw [renderPieces, List.map_cons, List.map_cons, String.join_cons]
    exact (holding_definition hes.1).append (ih hes.2)

theorem renderPieces_append (as bs : List Piece) :
    renderPieces (as ++ bs) = renderPieces as ++ renderPieces bs := by
  rw [renderPieces, List.map_append, String.join_append]
  rfl

/-- **What is found** in the text of the definitions. -/
theorem Defines.exists_defined (h : Defines g order done pieces) (hplanned : Planned g order) :
    ∃ es, Defined g order done es ∧ Holding (renderPieces pieces) es := by
  induction h with
  | nil => exact ⟨[], .nil, holding_empty⟩
  | again _ hn hsingle hold ih =>
    obtain ⟨es, hdefined, hholding⟩ := ih
    exact ⟨es, hdefined.again hn hsingle hold, hholding⟩
  | @library done pieces id n _ hn hsingle hnew ih =>
    obtain ⟨es, hdefined, hholding⟩ := ih
    refine ⟨_, hdefined.library hn hsingle hnew, ?_⟩
    rw [renderPieces_append]
    exact hholding.append (holding_entries fun e he => he)
  | @subtree done pieces id n _ hn hmulti ih =>
    obtain ⟨es, hdefined, hholding⟩ := ih
    have hreturn : (Line.ret (returned g n)).Plain := plain_returned n
    have hplain : ∀ line ∈ scope g (members g order n.id) (.ret (returned g n)), line.Plain :=
      hplanned.plain_scope hreturn
    obtain ⟨e, hblock, he⟩ := exists_holding_block (isName_subtreeName n.id).1 hplain
    have hgradient : gradientEntry n.id ∈ entries (gradientLibrary n.id) := by
      rw [entries_gradientLibrary]
      exact List.mem_singleton_self _
    have htext : renderPieces [subtreeBlock g order n, (gradientEntry n.id).piece] =
        (subtreeBlock g order n).render ++ (gradientEntry n.id).piece.render := by
      rw [renderPieces, List.map_cons, List.map_singleton, String.join_cons, String.join_cons,
        String.join_nil, String.append_empty]
    rw [hplanned.id_eq hn] at he hblock
    refine ⟨_, hdefined.subtree hn hmulti he, ?_⟩
    rw [renderPieces_append, htext, subtreeBlock, subtreeSignature_eq, hplanned.id_eq hn]
    exact hholding.append (hblock.append (holding_definition (hplanned.id_eq hn ▸ hgradient)))

/-! ## Texts -/

theorem renderPieces_lines (lines : List Line) :
    renderPieces (lines.map .line) = renderLines lines := by
  rw [renderPieces, List.map_map, renderLines]
  rfl

theorem isFree_imageStore : Shader.Parse.IsFree "imageStore" := by decide +kernel

/-- The last line of a body. -/
theorem isFree_callees_store {value : Expr} :
    ∀ f ∈ (Line.store value).callees, Shader.Parse.IsFree f :=
  List.forall_mem_singleton.mpr isFree_imageStore

theorem plain_store (g : Graph Builtin) (kind : Kind) (id index : Nat) :
    (Line.store (fetched g kind id index)).Plain :=
  plain_fetched g kind id index

/-- The text of a body that follows the blueprint, and the statements that are read from it. -/
theorem Blueprint.statementsOf?_bodyText {p : Program} (hp : Blueprint g order p)
    (h : Planned g order) : statementsOf? p.bodyText =
      some ((scope g order (.store (fetched g .vec4 p.result 0))).map Line.tree) := by
  rw [Program.bodyText, hp.body, renderPieces_lines]
  exact statementsOf?_renderLines (h.plain_scope (plain_store g .vec4 p.result 0))
    (isFree_callees_scope isFree_callees_store)

/-- The text of a subtree function is read as its statements. -/
theorem Planned.listOf?_subtree (h : Planned g order) (id : Nat) (n : Node Builtin)
    (ids : List Nat) :
    Shader.Item.listOf? (blockText (subtreeName id) (scope g ids (.ret (returned g n)))) =
      some [.function (blockSignature (subtreeName id))
        ((scope g ids (.ret (returned g n))).map Line.tree)] := by
  have hreturn : (Line.ret (returned g n)).Plain := plain_returned n
  exact listOf?_blockText (isName_subtreeName id) (h.plain_scope hreturn)
    (isFree_callees_scope fun f hf => absurd hf List.not_mem_nil)

/-- What the body calls. -/
theorem Blueprint.calls_bodyText {p : Program} (hp : Blueprint g order p) (h : Planned g order)
    {name : String} (hname : name ∈ callsIn "main" (tokens p.bodyText)) :
    name ∈ helperNames ∨ (∃ id ∈ order, ∃ n, g.node? id = some n ∧ name = calleeName n) ∨
      name = "imageStore" := by
  have hplain : ∀ line ∈ scope g order (.store (fetched g .vec4 p.result 0)), line.Plain :=
    h.plain_scope (plain_store g .vec4 p.result 0)
  generalize hlines : scope g order (.store (fetched g .vec4 p.result 0)) = lines at hplain
  have hcallees : ∀ line ∈ lines, ∀ name ∈ line.callees,
      name ∈ helperNames ++ lines.flatMap Line.callees := fun line hline name hname =>
    List.mem_append_right _ (List.mem_flatMap.mpr ⟨line, hline, hname⟩)
  have hended := ended_renderLines hplain (fun name hname => List.mem_append_left _ hname) hcallees
  rw [Program.bodyText, hp.body, renderPieces_lines, hlines] at hname
  rcases List.mem_append.mp (callsIn_subset hended.utters.tokens name hname).1 with hname | hname
  · exact Or.inl hname
  · obtain ⟨line, hline, hname⟩ := List.mem_flatMap.mp hname
    rw [← hlines] at hline
    exact Or.inr ((callees_scope hline hname).imp id List.mem_singleton.mp)

/-! ## Names -/

theorem names_subtree {e : Entry} {lines : List Line} (he : e.IsBlock (subtreeName id) lines) :
    [e, gradientEntry id].map (·.name) = [subtreeName id, specialisedName gradient id] := by
  rw [List.map_cons, he.name]
  rfl

/-- What is defined for the nodes that are done. -/
theorem Defined.mem_names_iff (h : Defined g order done es) {name : String} :
    name ∈ es.map (·.name) ↔
      Provided g done name ∨ ∃ m ∈ gradients g done, name = subtreeName m := by
  induction h with
  | nil => simp [Provided, operators, gradients]
  | @again done es id n _ hn hsingle hold ih =>
    have hgradients : gradients g (done ++ [id]) = gradients g done := by
      rw [gradients_snoc hn, if_neg hsingle, List.append_nil]
    rw [ih, provided_snoc hn, hgradients]
    refine or_congr_left ⟨Or.inl, ?_⟩
    rintro (hname | ⟨_, hname⟩ | ⟨hmulti, _⟩)
    · exact hname
    · exact Or.inl ⟨n.behavior, hold, hsingle, hname⟩
    · exact absurd hmulti hsingle
  | @library done es id n _ hn hsingle _ ih =>
    have hgradients : gradients g (done ++ [id]) = gradients g done := by
      rw [gradients_snoc hn, if_neg hsingle, List.append_nil]
    rw [List.map_append, List.mem_append, ih, map_name_entriesOf, provided_snoc hn, hgradients]
    simp only [hsingle, ne_eq, not_false_eq_true, true_and, false_and, or_false]
    exact or_right_comm
  | @subtree done es id n e _ hn hmulti he ih =>
    have hgradients : gradients g (done ++ [id]) = gradients g done ++ [id] := by
      rw [gradients_snoc hn, if_pos hmulti]
    rw [List.map_append, List.mem_append, ih, names_subtree he, provided_snoc hn, hgradients]
    simp only [hmulti, List.mem_cons, List.not_mem_nil, List.mem_append, or_false, ne_eq,
      not_true_eq_false, false_and, true_and, false_or]
    constructor
    · rintro ((h | ⟨m, hm, rfl⟩) | rfl | rfl)
      · exact Or.inl (Or.inl h)
      · exact Or.inr ⟨m, Or.inl hm, rfl⟩
      · exact Or.inr ⟨id, Or.inr rfl, rfl⟩
      · exact Or.inl (Or.inr rfl)
    · rintro ((h | rfl) | ⟨m, hm | rfl, rfl⟩)
      · exact Or.inl (Or.inl h)
      · exact Or.inr (Or.inr rfl)
      · exact Or.inl (Or.inr ⟨m, hm, rfl⟩)
      · exact Or.inr (Or.inl rfl)

/-- **Names are defined once.** -/
theorem Defined.nodup_names (h : Defined g order done es) (hdone : done.Nodup) :
    (es.map (·.name)).Nodup := by
  induction h with
  | nil => exact .nil
  | again _ _ _ _ ih => exact ih (List.nodup_append.mp hdone).1
  | @library done es id n h _ hsingle hnew ih =>
    rw [List.map_append, map_name_entriesOf]
    refine (ih (List.nodup_append.mp hdone).1).append n.behavior.nodup_names fun name hold hname =>
      ?_
    rcases h.mem_names_iff.mp hold with hprovided | ⟨m, _, rfl⟩
    · exact notMem_names_of_provided hsingle hnew hprovided hname
    · exact notMem_mentions_of_not_plain hsingle (subtreeName_not_plain m)
        (names_subset_mentions _ _ hname)
  | @subtree done es id n e h hn _ he ih =>
    have hid : id ∉ done := fun hmem =>
      (List.nodup_append.mp hdone).2.2 id hmem id (List.mem_singleton_self id) rfl
    have hnew : [subtreeName id, specialisedName gradient id].Nodup := by
      simpa using subtreeName_ne_specialisedName id id
    rw [List.map_append, names_subtree he]
    refine (ih (List.nodup_append.mp hdone).1).append hnew fun name hold hname => ?_
    rw [List.mem_cons, List.mem_singleton] at hname
    -- names made for a node are not those of a library, nor those made for another node
    rcases h.mem_names_iff.mp hold with (⟨b, _, hb, hname'⟩ | ⟨m, hm, rfl⟩) | ⟨m, hm, rfl⟩
    · have hmention := names_subset_mentions b name hname'
      rcases hname with rfl | rfl
      · exact notMem_mentions_of_not_plain hb (subtreeName_not_plain id) hmention
      · exact notMem_mentions_of_not_plain hb (specialisedName_not_plain id) hmention
    · rcases hname with hname | hname
      · exact subtreeName_ne_specialisedName id m hname.symm
      · exact hid (specialisedName_inj.mp hname ▸ (mem_gradients.mp hm).1)
    · rcases hname with hname | hname
      · exact hid (subtreeName_inj.mp hname ▸ (mem_gradients.mp hm).1)
      · exact subtreeName_ne_specialisedName m id hname

/-! ## Calls -/

/-- The functions that a program has to define itself: those of the libraries and those made for a
node. -/
def IsOwn (name : String) : Prop :=
  (∃ b : Builtin, ∃ f ∈ functionsIn b.operator.library, f.name = name) ∨
    ∃ m, name = specialisedName gradient m ∨ name = subtreeName m

/-- The function is there without a definition, and is none that a program defines. -/
def IsForeign (name : String) : Prop := Shader.isPredefined name = true ∧ ¬ IsOwn name

theorem names_of_mem_library {b : Builtin} {f : Function}
    (hf : f ∈ functionsIn b.operator.library) :
    f.name ∈ b.names := by
  obtain ⟨text, htext⟩ := Option.isSome_iff_exists.mp (b.library_holds.texts f hf)
  rw [← map_name_entriesOf]
  refine List.mem_map.mpr ⟨⟨f.heading, text⟩, List.mem_filterMap.mpr ⟨f, hf, ?_⟩, rfl⟩
  rw [Function.entryIn?, htext]
  rfl

theorem isOwn_of_mem_names {b : Builtin} {name : String} (h : name ∈ b.names) : IsOwn name := by
  rw [← map_name_entriesOf] at h
  obtain ⟨e, he, rfl⟩ := List.mem_map.mp h
  obtain ⟨f, hf, hentry⟩ := List.mem_filterMap.mp he
  obtain ⟨_, _, rfl⟩ := Option.map_eq_some_iff.mp hentry
  exact Or.inl ⟨b, f, hf, rfl⟩

/-- What a program defines is its own. -/
theorem Defined.isOwn (h : Defined g order done es) {name : String}
    (hname : name ∈ es.map (·.name)) :
    IsOwn name := by
  rcases h.mem_names_iff.mp hname with (⟨b, _, _, hname⟩ | ⟨m, _, rfl⟩) | ⟨m, _, rfl⟩
  · exact isOwn_of_mem_names hname
  · exact Or.inr ⟨m, Or.inl rfl⟩
  · exact Or.inr ⟨m, Or.inr rfl⟩

/-- Functions call what has been defined before them, `known` being defined before all, or what
needs no definition. -/
def CallsKnown : (known : List String) → List Entry → Prop
  | _, [] => True
  | known, e :: es =>
    (∀ name ∈ e.calls, name ∈ known ∨ IsForeign name) ∧ CallsKnown (known ++ [e.name]) es

theorem callsKnown_append {known : List String} {as bs : List Entry} :
    CallsKnown known (as ++ bs) ↔
      CallsKnown known as ∧ CallsKnown (known ++ as.map (·.name)) bs := by
  induction as generalizing known with
  | nil => simp [CallsKnown]
  | cons e as ih =>
    rw [List.cons_append, CallsKnown, CallsKnown, ih, and_assoc, List.map_cons,
      List.append_assoc, List.singleton_append]

/-- Is the function there without a definition, with a name that no library and no node has? -/
def isForeign (name : String) : Bool :=
  (["rgb_to_float", "rgba_to_float", "uv_to_texel"].contains name ||
    !(Shader.Intrinsic.overloads name).isEmpty || (Shader.Intrinsic.imageUse? name).isSome) &&
  isPlain name.toList && all.all fun b => !b.names.contains name

theorem isForeign_iff {name : String} (h : isForeign name = true) : IsForeign name := by
  simp only [isForeign, Bool.and_eq_true, Bool.or_eq_true, List.all_eq_true] at h
  obtain ⟨⟨hthere, hplain⟩, hnone⟩ := h
  refine ⟨?_, ?_⟩
  · have hhelpers : ∀ name ∈ ["rgb_to_float", "rgba_to_float", "uv_to_texel"],
        (Shader.helper? name).isSome = true := by
      simp only [Shader.helper?, Shader.templateSignatures_eq]
      decide +kernel
    simp only [Shader.isPredefined, Bool.or_eq_true]
    rcases hthere with (hthere | hthere) | hthere
    · exact Or.inl (Or.inl (Or.inl (hhelpers name (List.contains_iff_mem.mp hthere))))
    · exact Or.inl (Or.inl (Or.inr hthere))
    · exact Or.inl (Or.inr hthere)
  · rintro (⟨b, f, hf, rfl⟩ | ⟨m, rfl | rfl⟩)
    · have hb := hnone b b.mem_all
      rw [List.contains_iff_mem.mpr (names_of_mem_library hf)] at hb
      cases hb
    · rw [specialisedName_not_plain] at hplain
      cases hplain
    · rw [subtreeName_not_plain] at hplain
      cases hplain

/-- Do functions call what has been defined before them, or what is there without? -/
def inOrder : (known : List String) → List Heading → Bool
  | _, [] => true
  | known, h :: hs =>
    h.calls.all (fun name => known.contains name || isForeign name) &&
      inOrder (known ++ [h.name]) hs

theorem inOrder_headings {b : Builtin} (hb : b ≠ heightGradient) :
    inOrder [] b.headings = true := by
  have hall : ∀ b ∈ all, b ≠ heightGradient → inOrder [] b.headings = true := by decide +kernel
  exact hall b b.mem_all hb

theorem callsKnown_of_inOrder {known before : List String}
    (hbefore : ∀ name ∈ before, name ∈ known) (h : inOrder before (es.map (·.toHeading)) = true) :
    CallsKnown known es := by
  induction es generalizing known before with
  | nil => trivial
  | cons e es ih =>
    rw [List.map_cons, inOrder, Bool.and_eq_true, List.all_eq_true] at h
    refine ⟨fun name hname => ?_, ih ?_ h.2⟩
    · rcases Bool.or_eq_true_iff.mp (h.1 name hname) with hknown | hforeign
      · exact Or.inl (hbefore name (List.contains_iff_mem.mp hknown))
      · exact Or.inr (isForeign_iff hforeign)
    · intro name hname
      rcases List.mem_append.mp hname with hname | hname
      · exact List.mem_append_left _ (hbefore name hname)
      · exact List.mem_append_right _ hname

theorem isForeign_imageStore : IsForeign "imageStore" := isForeign_iff (by decide +kernel)

theorem isForeign_helpers : ∀ name ∈ helperNames, IsForeign name := by
  have hall : ∀ name ∈ helperNames, isForeign name = true := by decide +kernel
  exact fun name hname => isForeign_iff (hall name hname)

/-- **Definitions before uses.** -/
theorem Defined.callsKnown (h : Defined g order done es) (hids : Planned g order)
    {rest : List Nat} (horder : done ++ rest = order) : CallsKnown [] es := by
  induction h generalizing rest with
  | nil => trivial
  | again _ _ _ _ ih => exact ih (by rwa [List.append_assoc] at horder)
  | library _ _ hsingle _ ih =>
    rw [List.append_assoc] at horder
    refine callsKnown_append.mpr ⟨ih horder, ?_⟩
    refine callsKnown_of_inOrder (fun _ h => absurd h List.not_mem_nil) ?_
    rw [map_toHeading_entriesOf]
    exact inOrder_headings hsingle
  | @subtree done es id n e h hn hmulti he ih =>
    rw [List.append_assoc] at horder
    refine callsKnown_append.mpr ⟨ih horder, fun name hname => ?_, fun name hname => ?_, trivial⟩
    · -- what the subtree function calls belongs to nodes that are done, or helps to write
      -- expressions
      rcases he.calls name hname with hhelper | ⟨line, hline, hname⟩
      · exact Or.inr (isForeign_helpers name hhelper)
      · rcases callees_scope hline hname with ⟨m, hm, k, hk, rfl⟩ | hname
        · have hdone := hids.mem_done_of_mem_members horder hm
          exact Or.inl (h.mem_names_iff.mpr (Or.inl (hids.provided_calleeName hk hdone)))
        · cases hname
    · -- the specialised function calls the subtree function, and nothing else of the program
      simp only [gradientEntry, specialisedHeading, List.mem_cons, List.not_mem_nil,
        or_false] at hname
      have hforeign : ∀ name ∈ ["max", "rgb_to_float"], isForeign name = true := by decide +kernel
      rcases hname with rfl | rfl | rfl
      · exact Or.inr (isForeign_iff (hforeign _ (by simp)))
      · exact Or.inr (isForeign_iff (hforeign _ (by simp)))
      · rw [he.name]
        exact Or.inl (List.mem_append_right _ (List.mem_singleton_self _))

/-! ## Functions -/

/-- The function of a node is defined, with the parameters that its call supplies. -/
def HasFunction (es : List Entry) (n : Node Builtin) : Prop :=
  ∃ e ∈ es, e.name = calleeName n ∧ e.parameters = n.behavior.signature

theorem HasFunction.append_right (h : HasFunction es n) (more : List Entry) :
    HasFunction (es ++ more) n := by
  obtain ⟨e, he, hfacts⟩ := h
  exact ⟨e, List.mem_append_left _ he, hfacts⟩

/-- Single-pass nodes of one operator share its function. -/
theorem HasFunction.of_behavior {k : Node Builtin} (h : HasFunction es k)
    (hsame : k.behavior = n.behavior) (hsingle : n.behavior ≠ heightGradient) :
    HasFunction es n := by
  obtain ⟨e, he, hname, hparameters⟩ := h
  rw [calleeName_single (hsame ▸ hsingle), hsame] at hname
  rw [hsame] at hparameters
  exact ⟨e, he, hname.trans (calleeName_single hsingle).symm, hparameters⟩

/-- **The function of a node** takes what its call supplies. -/
theorem Defined.hasFunction (h : Defined g order done es) (hids : Planned g order) :
    ∀ id ∈ done, ∀ n, g.node? id = some n → HasFunction es n := by
  have hsnoc : ∀ {done : List Nat} {es : List Entry} {last : Nat} {k : Node Builtin},
      g.node? last = some k → (∀ id ∈ done, ∀ n, g.node? id = some n → HasFunction es n) →
      HasFunction es k → ∀ id ∈ done ++ [last], ∀ n, g.node? id = some n → HasFunction es n := by
    intro done es last k hk hold hlast
    rw [List.forall_mem_append, List.forall_mem_singleton]
    refine ⟨hold, fun n hn => ?_⟩
    rw [hk, Option.some.injEq] at hn
    exact hn ▸ hlast
  induction h with
  | nil => exact fun _ hid => absurd hid List.not_mem_nil
  | again _ hk hsingle hold ih =>
    obtain ⟨m, hm, k', hk', hsame⟩ := mem_operators.mp hold
    exact hsnoc hk ih ((ih m hm k' hk').of_behavior hsame hsingle)
  | @library done es last k _ hk hsingle _ ih =>
    obtain ⟨entry, hentry, hparameters⟩ := exists_find?_entriesOf k.behavior
    have hmem : entry ∈ k.behavior.entriesOf := Entry.mem_of_find? hentry
    have hname : entry.name = calleeName k :=
      (Entry.name_of_find? hentry).trans (calleeName_single hsingle).symm
    refine hsnoc hk (fun id hid n hn => (ih id hid n hn).append_right _) ?_
    exact ⟨entry, List.mem_append_right _ hmem, hname, hparameters⟩
  | @subtree done es last k e _ hk hmulti he ih =>
    refine hsnoc hk (fun id hid n hn => (ih id hid n hn).append_right _) ?_
    refine ⟨gradientEntry last, by simp, ?_, hmulti ▸ rfl⟩
    rw [calleeName_multi hmulti, hids.id_eq hk]
    rfl

end Texel.Program
