import Texel.Proofs.Program.Simulation

/-!
# Texel — what the definitions of a program make known

The functions in the definitions of a program are linked one after the other. After those of some
nodes, the name that the call of each of these nodes uses stands for the function of the node: that
of its operator, or, for a multi-pass node, that of its operator on the function that computes what
feeds the node. The latter runs with what is known before it, which is enough, since what feeds a
node comes first.

* **`meaning?_single`**, **`meaning?_multi`** — which function a text is.
* **`link_entries`** — functions that are not of the coordinate.
* **`Linked`** — what is known after the definitions of some nodes.
* **`Defined.linked`** — linking gets there.
-/

namespace Texel.Program

open Glsl Builtin UniformValue

/-! ## Texts -/

/-- The text of a function tells all that is known of it. -/
theorem entry_eq_of_text {source other : String} {e f : Entry} (he : e ∈ entries source)
    (hf : f ∈ entries other) (h : e.text = f.text) : e = f := by
  have hpiece : e.piece.render = f.piece.render := by
    show e.text ++ _ = f.text ++ _
    rw [h]
  have hentries := (holding_definition he).entries_eq
  rw [hpiece, (holding_definition hf).entries_eq] at hentries
  exact (List.cons.inj hentries).1.symm

theorem definitionOf_heightGradient : definitionOf heightGradient = some gradientText := by
  obtain ⟨f, _, hf, -⟩ := exists_operatorFunction heightGradient
  have hlibrary : heightGradient.operator.library = Source.heightGradient := rfl
  rw [definitionOf, hf, Option.bind_some, hlibrary]
  rw [hlibrary] at hf
  exact definitionText?_gradient f (mem_of_find? hf)

variable {I : Interpretation} {environment : Environment}

/-- The text of a function can be that of one single-pass operator. -/
theorem meaning?_single {b : Builtin} (hb : b ≠ heightGradient) {e : Entry} (he : e ∈ b.entriesOf)
    (htext : definitionOf b = some e.text) (hname : e.name = b.operator.function)
    (hcalls : ∀ name ∈ e.calls, environment.subtrees name = none) :
    meaning? I environment e = some (I.single b) := by
  refine findSome?_eq_some_of_agree ⟨b, b.mem_all, ?_⟩ fun b' _ run hrun => ?_
  · rw [htext, Option.bind_some, if_neg (mt (multiPass_iff b).mp hb), if_pos rfl]
  · obtain ⟨plain, hplain, hrun⟩ := Option.bind_eq_some_iff.mp hrun
    split_ifs at hrun with hmulti hsame
    · -- a multi-pass operator would need a function that this one does not call
      obtain ⟨name, hname, hrun⟩ := List.exists_of_findSome?_eq_some hrun
      rw [hcalls name hname] at hrun
      cases hrun
    · obtain ⟨_, e', -, -, htext', he', hname', -⟩ := exists_operatorFunction b'
      rw [hplain, Option.some.injEq] at htext'
      have hentry : e' = e := entry_eq_of_text he' he (htext'.symm.trans hsame)
      rw [hentry, hname] at hname'
      rw [← Option.some.inj hrun, function_injective hname']

/-- The text of the function of a multi-pass node. -/
theorem meaning?_multi {m : Nat} {subtree : Coord → Option UniformValue}
    (hsubtree : environment.subtrees (subtreeName m) = some subtree)
    (hothers : ∀ name, isPlain name.toList = true → environment.subtrees name = none) :
    meaning? I environment (gradientEntry m) = some (I.multi heightGradient subtree) := by
  have hsearch : ((gradientEntry m).calls.findSome? fun name =>
      (environment.subtrees name).bind fun known =>
        if rename (rename gradientText placeholder name) heightGradient.operator.function
            (gradientEntry m).name = (gradientEntry m).text then
          some (I.multi heightGradient known)
        else none) = some (I.multi heightGradient subtree) := by
    have hspecialised : rename (rename gradientText placeholder (subtreeName m))
        heightGradient.operator.function (gradientEntry m).name = (gradientEntry m).text := rfl
    show List.findSome? _ ["max", "rgb_to_float", subtreeName m] = _
    rw [List.findSome?_cons, hothers "max" (by decide), Option.bind_none, List.findSome?_cons,
      hothers "rgb_to_float" (by decide), Option.bind_none, List.findSome?_cons, hsubtree,
      Option.bind_some, if_pos hspecialised]
  refine findSome?_eq_some_of_agree ⟨heightGradient, heightGradient.mem_all, ?_⟩ fun b _ run hrun =>
    ?_
  · rw [definitionOf_heightGradient, Option.bind_some, if_pos ((multiPass_iff _).mpr rfl), hsearch]
  · obtain ⟨plain, hplain, hrun⟩ := Option.bind_eq_some_iff.mp hrun
    split_ifs at hrun with hmulti hsame
    · obtain rfl := (multiPass_iff b).mp hmulti
      rw [definitionOf_heightGradient, Option.some.injEq] at hplain
      rw [← hplain, hsearch] at hrun
      exact (Option.some.inj hrun).symm
    · -- a function of a library has a plain name
      have hb : b ≠ heightGradient := mt (multiPass_iff b).mpr hmulti
      obtain ⟨_, e, -, -, htext, he, hname, -⟩ := exists_operatorFunction b
      have hgradient : gradientEntry m ∈ entries (gradientLibrary m) := by
        rw [entries_gradientLibrary]
        exact List.mem_singleton_self _
      rw [hplain, Option.some.injEq] at htext
      have hentry : e = gradientEntry m := entry_eq_of_text he hgradient (htext.symm.trans hsame)
      rw [hentry] at hname
      refine absurd (names_subset_mentions b _ b.function_mem_names) ?_
      rw [← hname]
      exact notMem_mentions_of_not_plain hb (specialisedName_not_plain m)

/-- Only functions of the coordinate matter for what a text means. -/
theorem meaning?_congr {linked : Environment} (h : linked.subtrees = environment.subtrees)
    (e : Entry) : meaning? I linked e = meaning? I environment e := by
  rw [meaning?, h, meaning?]

/-! ## Entries -/

/-- The names that expressions and stores use are not taken by what a program defines. -/
theorem IsOwn.notMem_reserved {name : String} (h : IsOwn name) :
    name ∉ "imageStore" :: helperNames := by
  intro hmem
  rcases List.mem_cons.mp hmem with rfl | hmem
  · exact isForeign_imageStore.2 h
  · exact (isForeign_helpers name hmem).2 h

/-- Nothing stands against linking a function. -/
structure Linkable (environment : Environment) (e : Entry) : Prop where
  new : e.name ∉ environment.names
  own : IsOwn e.name
  ready : environment.Ready e

theorem Linkable.accepts {e : Entry} (h : Linkable environment e) :
    ¬ (e.name ∈ environment.names ∨ e.name ∈ "imageStore" :: helperNames ∨
      ¬ environment.Ready e) := by
  rintro (hnew | hreserved | hready)
  · exact h.new hnew
  · exact h.own.notMem_reserved hreserved
  · exact hready h.ready

theorem ready_of_known {known : List String} {e : Entry}
    (hcalls : ∀ name ∈ e.calls, name ∈ known ∨ IsForeign name)
    (hknown : ∀ name ∈ known, name ∈ environment.names) : environment.Ready e := fun name hname =>
  (hcalls name hname).imp (hknown name) And.left

/-- Entries have become known under their names, and nothing else has changed. -/
structure Grown (I : Interpretation) (environment : Environment) (es : List Entry)
    (linked : Environment) : Prop where
  subtrees : linked.subtrees = environment.subtrees
  names : ∀ name, name ∈ linked.names ↔ name ∈ environment.names ∨ name ∈ es.map (·.name)
  others : ∀ name, name ∉ es.map (·.name) → linked.callables name = environment.callables name
  entries : ∀ e ∈ es,
    linked.callables e.name = (meaning? I environment e).map (callable e.parameters)

/-- One function that is not of the coordinate. -/
theorem link_entry (I : Interpretation) (inputs : Inputs) {e : Entry} (he : Linkable environment e)
    (hparameters : e.parameters ≠ coordParameters) :
    ∃ linked, environment.link I inputs e = some linked ∧ Grown I environment [e] linked := by
  refine ⟨_, (if_neg he.accepts).trans (if_neg hparameters), rfl, fun name => ?_, fun name hother =>
    ?_, fun e' he' => ?_⟩
  · rw [List.map_singleton, List.mem_singleton, List.mem_cons, or_comm]
  · rw [List.map_singleton, List.mem_singleton] at hother
    exact Function.update_of_ne hother _ _
  · rw [List.mem_singleton.mp he']
    exact Function.update_self _ _ _

/-- Entries after another one. -/
theorem Grown.cons {e : Entry} {es : List Entry} {between linked : Environment}
    (hfirst : Grown I environment [e] between) (hrest : Grown I between es linked)
    (he : e.name ∉ es.map (·.name)) : Grown I environment (e :: es) linked where
  subtrees := hrest.subtrees.trans hfirst.subtrees
  names name := by
    rw [hrest.names, hfirst.names, or_assoc, ← List.mem_append, ← List.map_append,
      List.singleton_append]
  others name hname := by
    rw [List.map_cons, List.mem_cons, not_or] at hname
    rw [hrest.others name hname.2]
    exact hfirst.others name (by simpa using hname.1)
  entries e' he' := by
    rcases List.mem_cons.mp he' with rfl | he'
    · rw [hrest.others _ he]
      exact hfirst.entries e' (List.mem_singleton_self e')
    · rw [hrest.entries e' he', meaning?_congr hfirst.subtrees]

/-- **Functions** with new names that call what is known can be linked. -/
theorem link_entries (I : Interpretation) (inputs : Inputs) {es : List Entry}
    (hown : ∀ e ∈ es, IsOwn e.name) (hparameters : ∀ e ∈ es, e.parameters ≠ coordParameters)
    (hnodup : (es.map (·.name)).Nodup) : ∀ {known : List String} {environment : Environment},
      CallsKnown known es → (∀ name ∈ known, name ∈ environment.names) →
      (∀ e ∈ es, e.name ∉ environment.names) →
      ∃ linked, es.foldlM (Environment.link I inputs) environment = some linked ∧
        Grown I environment es linked := by
  induction es with
  | nil =>
    intro known environment _ _ _
    exact ⟨environment, rfl, rfl, by simp, fun _ _ => rfl, fun _ h => absurd h List.not_mem_nil⟩
  | cons e es ih =>
    intro known environment hcalls hknown hnew
    rw [List.forall_mem_cons] at hown hparameters hnew
    rw [List.map_cons, List.nodup_cons] at hnodup
    obtain ⟨between, hlink, hfirst⟩ :=
      link_entry I inputs ⟨hnew.1, hown.1, ready_of_known hcalls.1 hknown⟩ hparameters.1
    have hbetween : ∀ name, name ∈ between.names ↔ name ∈ environment.names ∨ name = e.name := by
      intro name
      rw [hfirst.names, List.map_singleton, List.mem_singleton]
    have hlater : ∀ e' ∈ es, e'.name ∉ between.names := by
      intro e' he' hmem
      rcases (hbetween _).mp hmem with hmem | hsame
      · exact hnew.2 e' he' hmem
      · exact hnodup.1 (hsame ▸ List.mem_map_of_mem he')
    have hmore : ∀ name ∈ known ++ [e.name], name ∈ between.names := by
      intro name hname
      refine (hbetween name).mpr
        ((List.mem_append.mp hname).imp (hknown name) List.mem_singleton.mp)
    obtain ⟨linked, hrun, hrest⟩ := ih hown.2 hparameters.2 hnodup.2 hcalls.2 hmore hlater
    refine ⟨linked, ?_, hfirst.cons hrest hnodup.1⟩
    rw [List.foldlM_cons, hlink]
    exact hrun

/-! ## Nodes -/

variable {g : Graph Builtin} {order done : List Nat} {es : List Entry} {p : Program}
  {den : Nat → Coord → UniformValue} {id : Nat} {n : Node Builtin}

/-- What is known after the definitions of some nodes. -/
structure Linked (I : Interpretation) (g : Graph Builtin) (den : Nat → Coord → UniformValue)
    (done : List Nat) (es : List Entry) (environment : Environment) : Prop where
  names : ∀ name, name ∈ environment.names ↔ name ∈ es.map (·.name)
  plain : ∀ name, isPlain name.toList = true → environment.subtrees name = none
  knows : Knows I g den environment.callables done

theorem callableOf_single (hsingle : n.behavior ≠ heightGradient) :
    callableOf I g den n = callable n.behavior.signature (I.single n.behavior) := by
  rw [callableOf, nodeFunction, if_neg (mt (multiPass_iff _).mp hsingle)]

theorem callableOf_multi (hmulti : n.behavior = heightGradient) :
    callableOf I g den n = callable n.behavior.signature
      (I.multi heightGradient fun c => some (subtreeValue I g den n c)) := by
  rw [callableOf, nodeFunction, if_pos ((multiPass_iff _).mpr hmulti), hmulti]

theorem Knows.snoc {callables : String → Option Callable} (h : Knows I g den callables done)
    (hn : g.node? id = some n)
    (hcallable : callables (calleeName n) = some (callableOf I g den n)) :
    Knows I g den callables (done ++ [id]) := by
  intro m hm k hk
  rcases List.mem_append.mp hm with hm | hm
  · exact h m hm k hk
  · rw [List.mem_singleton.mp hm, hn, Option.some.injEq] at hk
    exact hk ▸ hcallable

/-- New names leave what is known alone. -/
theorem Knows.grown {linked : Environment} {added : List Entry}
    (hknows : Knows I g den environment.callables done) (hgrown : Grown I environment added linked)
    (h : Defined g order done es) (hplanned : Regular g order)
    (hnew : ∀ e ∈ added, e.name ∉ es.map (·.name)) : Knows I g den linked.callables done := by
  intro m hm k hk
  have hdefined : calleeName k ∈ es.map (·.name) :=
    h.mem_names_iff.mpr (Or.inl (hplanned.provided_calleeName hk hm))
  rw [hgrown.others]
  · exact hknows m hm k hk
  · intro hmem
    obtain ⟨e, he, hname⟩ := List.mem_map.mp hmem
    exact hnew e he (hname ▸ hdefined)

/-- The function of another node of the same operator is there. -/
theorem Linked.again (hlinked : Linked I g den done es environment) (hn : g.node? id = some n)
    (hsingle : n.behavior ≠ heightGradient) (hold : n.behavior ∈ operators g done) :
    Linked I g den (done ++ [id]) es environment := by
  obtain ⟨m, hm, k, hk, hsame⟩ := mem_operators.mp hold
  refine ⟨hlinked.names, hlinked.plain, hlinked.knows.snoc hn ?_⟩
  have hknown := hlinked.knows m hm k hk
  rw [calleeName_single (hsame ▸ hsingle), callableOf_single (hsame ▸ hsingle), hsame] at hknown
  rw [calleeName_single hsingle, callableOf_single hsingle, hknown]

/-- A library calls nothing that looks like a subtree function. -/
theorem isPlain_calls {b : Builtin} (hb : b ≠ heightGradient) {e : Entry} (he : e ∈ b.entriesOf) :
    ∀ name ∈ e.calls, isPlain name.toList = true := by
  intro name hname
  refine isPlain_mentions hb name
    (List.mem_flatMap.mpr ⟨e.toHeading, ?_, List.mem_cons_of_mem _ hname⟩)
  rw [← map_toHeading_entriesOf]
  exact List.mem_map_of_mem he

/-- The functions of a library are no functions of the coordinate. -/
theorem parameters_ne_coordParameters {b : Builtin} {e : Entry} (he : e ∈ b.entriesOf) :
    e.parameters ≠ coordParameters := by
  have hall : ∀ b ∈ all, ∀ h ∈ b.headings, h.parameters ≠ coordParameters := by decide +kernel
  refine hall b b.mem_all e.toHeading ?_
  rw [← map_toHeading_entriesOf]
  exact List.mem_map_of_mem he

/-- **A library** brings the function of its operator. -/
theorem Linked.library (hlinked : Linked I g den done es environment) (h : Defined g order done es)
    (hplanned : Regular g order) (hn : g.node? id = some n) (hsingle : n.behavior ≠ heightGradient)
    (inputs : Inputs) (hnodup : ((es ++ n.behavior.entriesOf).map (·.name)).Nodup)
    (hcalls : CallsKnown (es.map (·.name)) n.behavior.entriesOf) :
    ∃ linked, n.behavior.entriesOf.foldlM (Environment.link I inputs) environment = some linked ∧
      Linked I g den (done ++ [id]) (es ++ n.behavior.entriesOf) linked := by
  rw [List.map_append, List.nodup_append] at hnodup
  have hnew : ∀ e ∈ n.behavior.entriesOf, e.name ∉ es.map (·.name) := fun e he hmem =>
    hnodup.2.2 _ hmem _ (List.mem_map_of_mem he) rfl
  have hown : ∀ e ∈ n.behavior.entriesOf, IsOwn e.name := fun e he =>
    isOwn_of_mem_names (map_name_entriesOf n.behavior ▸ List.mem_map_of_mem he)
  obtain ⟨linked, hrun, hgrown⟩ := link_entries I inputs hown
    (fun _ he => parameters_ne_coordParameters he) hnodup.2.1 hcalls
    (fun name hname => (hlinked.names name).mpr hname)
    fun e he hmem => hnew e he ((hlinked.names _).mp hmem)
  refine ⟨linked, hrun, fun name => ?_, fun name hname => ?_, ?_⟩
  · rw [hgrown.names, hlinked.names, List.map_append, List.mem_append]
  · rw [hgrown.subtrees]
    exact hlinked.plain name hname
  · refine (hlinked.knows.grown hgrown h hplanned hnew).snoc hn ?_
    obtain ⟨-, entry, -, -, htext, hentry, hname, hparameters⟩ := exists_operatorFunction n.behavior
    have hcallees : ∀ name ∈ entry.calls, environment.subtrees name = none := fun name hmem =>
      hlinked.plain name (isPlain_calls hsingle hentry name hmem)
    rw [calleeName_single hsingle, callableOf_single hsingle, ← hname, hgrown.entries entry hentry,
      meaning?_single hsingle hentry htext hname hcallees, hparameters]
    rfl

/-- The subtree function of a node computes what feeds the node. -/
theorem Linked.link_block (hlinked : Linked I g den done es environment)
    (hplanned : Regular g order) (hn : g.node? id = some n) (hp : Blueprint g order p)
    (hden : IsDenotation I g den) {rest : List Nat} (horder : done ++ id :: rest = order)
    {e : Entry}
    (he : e.IsBlock (subtreeName id) (scope g (members g order id) (.ret (returned g n))))
    (hlinkable : Linkable environment e) :
    environment.link I (p.inputs g) e = some { environment with
      names := subtreeName id :: environment.names
      subtrees := Function.update environment.subtrees (subtreeName id)
        (some fun c => some (subtreeValue I g den n c)) } := by
  have hknows : Knows I g den environment.callables (members g order id) := fun m hm k hk =>
    hlinked.knows m (hplanned.mem_done_of_mem_members horder hm) k hk
  have hfirst : ∀ connection, firstFeeder? g n = some connection →
      connection.source ∈ members g order id := by
    intro connection hc
    obtain ⟨hmem, hdestination⟩ := firstFeeder?_spec hc
    rw [hplanned.id_eq hn] at hdestination
    exact hdestination ▸ hplanned.source_mem_members hmem
  have hread := hplanned.listOf?_subtree id n (members g order id)
  have hfunction : colorFunction? I (p.inputs g) environment e.text =
      some fun c => some (subtreeValue I g den n c) := by
    rw [he.text, colorFunction?, hread]
    refine (if_pos rfl).trans (congrArg some (funext fun c => ?_))
    obtain ⟨frame, hrun, hstored, hreturned⟩ := returned_scope hplanned hp hden hknows
      (fun m hm => (List.mem_filter.mp hm).1) (hplanned.closed_members id)
      (hplanned.isOrder.nodup.filter _) hfirst c
    rw [hrun, Option.bind_some, if_pos hstored, hreturned]
  rw [Environment.link, if_neg hlinkable.accepts, if_pos he.parameters, hfunction, Option.map_some,
    he.name]

/-- **A multi-pass node** brings its subtree function and its own function. -/
theorem Linked.subtree (hlinked : Linked I g den done es environment) (h : Defined g order done es)
    (hplanned : Regular g order) (hn : g.node? id = some n) (hmulti : n.behavior = heightGradient)
    (hp : Blueprint g order p) (hden : IsDenotation I g den) {rest : List Nat}
    (horder : done ++ id :: rest = order) {e : Entry}
    (he : e.IsBlock (subtreeName id) (scope g (members g order id) (.ret (returned g n))))
    (hnodup : ((es ++ [e, gradientEntry id]).map (·.name)).Nodup)
    (hcalls : CallsKnown (es.map (·.name)) [e, gradientEntry id]) :
    ∃ linked, [e, gradientEntry id].foldlM (Environment.link I (p.inputs g)) environment =
        some linked ∧ Linked I g den (done ++ [id]) (es ++ [e, gradientEntry id]) linked := by
  have hadded :
      [e, gradientEntry id].map (·.name) = [subtreeName id, specialisedName gradient id] :=
    names_subtree he
  rw [List.map_append, hadded, List.nodup_append] at hnodup
  have hnew : ∀ name ∈ [subtreeName id, specialisedName gradient id], name ∉ es.map (·.name) :=
    fun name hname hmem => hnodup.2.2 name hmem name hname rfl
  have hentry : (gradientEntry id).name ∉ es.map (·.name) :=
    hnew _ (List.mem_cons_of_mem _ (List.mem_singleton_self _))
  have hblock := hlinked.link_block hplanned hn hp hden horder he
    ⟨fun hmem => hnew _ List.mem_cons_self ((hlinked.names _).mp (he.name ▸ hmem)),
      he.name ▸ Or.inr ⟨id, Or.inr rfl⟩, ready_of_known hcalls.1 fun name hname =>
        (hlinked.names name).mpr hname⟩
  generalize hbetween : ({ environment with
      names := subtreeName id :: environment.names
      subtrees := Function.update environment.subtrees (subtreeName id)
        (some fun c => some (subtreeValue I g den n c)) } : Environment) = between at hblock
  have hnames : between.names = subtreeName id :: environment.names := hbetween ▸ rfl
  have hsubtrees : between.subtrees = Function.update environment.subtrees (subtreeName id)
      (some fun c => some (subtreeValue I g den n c)) := hbetween ▸ rfl
  -- the subtree function is the only new function of the coordinate
  have hplain : ∀ name, isPlain name.toList = true → between.subtrees name = none := by
    intro name hname
    have hne : name ≠ subtreeName id := by
      rintro rfl
      rw [subtreeName_not_plain] at hname
      cases hname
    rw [hsubtrees, Function.update_of_ne hne]
    exact hlinked.plain name hname
  have hlinkable : Linkable between (gradientEntry id) := by
    refine ⟨?_, Or.inr ⟨id, Or.inl rfl⟩, ready_of_known hcalls.2.1 fun name hname => ?_⟩
    · rw [hnames, List.mem_cons, not_or]
      exact ⟨(subtreeName_ne_specialisedName id id).symm, mt (hlinked.names _).mp hentry⟩
    · rw [hnames, List.mem_cons, hlinked.names, ← he.name]
      exact (List.mem_append.mp hname).symm.imp List.mem_singleton.mp fun hmem => hmem
  have hparameters : heightGradient.signature ≠ coordParameters := by decide +kernel
  obtain ⟨linked, hlink, hgrown⟩ := link_entry I (p.inputs g) hlinkable hparameters
  refine ⟨linked, ?_, fun name => ?_, fun name hname => ?_, ?_⟩
  · rw [List.foldlM_cons, hblock, Option.bind_eq_bind, Option.bind_some, List.foldlM_cons, hlink]
    rfl
  · rw [hgrown.names, hnames, List.map_append, List.mem_append, ← hlinked.names, hadded]
    simp only [List.map_singleton, List.mem_cons, List.not_mem_nil, or_false]
    rw [or_assoc, or_left_comm]
    rfl
  · rw [hgrown.subtrees]
    exact hplain name hname
  · have hknows : Knows I g den between.callables done := hbetween ▸ hlinked.knows
    refine (hknows.grown hgrown h hplanned fun e he => ?_).snoc hn ?_
    · rw [List.mem_singleton.mp he]
      exact hentry
    · have hknown : between.subtrees (subtreeName id) =
          some fun c => some (subtreeValue I g den n c) := by
        rw [hsubtrees, Function.update_self]
      rw [calleeName_multi hmulti, callableOf_multi hmulti, hplanned.id_eq hn]
      show linked.callables (gradientEntry id).name = _
      rw [hgrown.entries _ (List.mem_singleton_self _), meaning?_multi hknown hplain, hmulti]
      rfl

/-- **Linking** makes the functions of all nodes known. -/
theorem Defined.linked (h : Defined g order done es) (hplanned : Regular g order)
    (hp : Blueprint g order p) (hden : IsDenotation I g den) {rest : List Nat}
    (horder : done ++ rest = order) :
    ∃ environment, es.foldlM (Environment.link I (p.inputs g)) {} = some environment ∧
      Linked I g den done es environment := by
  have hdone : done.Nodup := (List.nodup_append.mp (horder.symm ▸ hplanned.isOrder.nodup)).1
  -- what is defined once and before it is used, in the whole of what has been defined so far
  have hnodup := h.nodup_names hdone
  have hcalls := h.callsKnown hplanned.toPlanned horder
  induction h generalizing rest with
  | nil => exact ⟨{}, rfl, by simp, fun _ _ => rfl, fun _ h => absurd h List.not_mem_nil⟩
  | again h hn hsingle hold ih =>
    rw [List.append_assoc] at horder
    obtain ⟨environment, hrun, hlinked⟩ := ih horder (List.nodup_append.mp hdone).1 hnodup hcalls
    exact ⟨environment, hrun, hlinked.again hn hsingle hold⟩
  | @library done es id n h hn hsingle hnew ih =>
    rw [List.append_assoc] at horder
    rw [callsKnown_append] at hcalls
    have hbefore := List.nodup_append.mp (List.map_append ▸ hnodup)
    obtain ⟨environment, hrun, hlinked⟩ :=
      ih horder (List.nodup_append.mp hdone).1 hbefore.1 hcalls.1
    obtain ⟨linked, hlink, hlinked⟩ :=
      hlinked.library h hplanned hn hsingle (p.inputs g) hnodup hcalls.2
    refine ⟨linked, ?_, hlinked⟩
    rw [List.foldlM_append, hrun, Option.bind_eq_bind, Option.bind_some, hlink]
  | @subtree done es id n e h hn hmulti he ih =>
    rw [List.append_assoc] at horder
    rw [callsKnown_append] at hcalls
    have hbefore := List.nodup_append.mp (List.map_append ▸ hnodup)
    obtain ⟨environment, hrun, hlinked⟩ :=
      ih horder (List.nodup_append.mp hdone).1 hbefore.1 hcalls.1
    obtain ⟨linked, hlink, hlinked⟩ :=
      hlinked.subtree h hplanned hn hmulti hp hden horder he hnodup hcalls.2
    refine ⟨linked, ?_, hlinked⟩
    rw [List.foldlM_append, hrun, Option.bind_eq_bind, Option.bind_some, hlink]

end Texel.Program
