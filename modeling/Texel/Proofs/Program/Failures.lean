import Texel.Proofs.Glsl.Interruption
import Texel.Proofs.Program.Descent

/-!
# Texel — why there is no program

The operators of a graph may bring any library and any names, so generation has many ways to fail.
But some of its errors are about itself: a text that is out of the range of its library, a block
that is closed without having been opened, a node that is not there. None of these can come up. The
functions at hand are always those of the text as it is now, every block that is opened is closed
again, and the nodes that are looked up are nodes of the graph.

* **`Unwritten`** — the errors that are left, each with its reason.
* **`Balanced`** — a step fails for such a reason only, and leaves as many blocks open as before.
* **`Assembled.emitCall_balanced`**, **`Assembled.specialise_balanced`**, **`build_balanced`** —
  from one call to the whole of building.
* **`generate_outcomes`** — the outcomes of generation.
-/

namespace Texel

/-! ## Steps that have failed -/

section Except

variable {ε α γ : Type} {x : Except ε α} {e : ε}

/-- A computation that stops has stopped at its first step or after it. -/
theorem error_of_bind_eq {f : α → Except ε γ} (h : (x >>= f) = .error e) :
    x = .error e ∨ ∃ a, x = .ok a ∧ f a = .error e := by
  cases x with
  | error e' => exact Or.inl (congrArg Except.error (Except.error.inj h))
  | ok a => exact Or.inr ⟨a, rfl, h⟩

theorem error_of_map_eq {f : α → γ} (h : x.map f = .error e) : x = .error e := by
  cases x with
  | error e' => exact congrArg Except.error (Except.error.inj h)
  | ok a => cases h

end Except

/-! ## Emitters -/

namespace Glsl

theorem Conversion.error_of_between {source target : Kind} {e : CodeError}
    (h : between source target = .error e) :
    e = .noConversion source target ∧ (source = .none ∨ target.isNumeric = false) := by
  cases source <;> cases target <;> cases h <;> simp [Kind.isNumeric]

namespace Emitter

variable {e : Emitter}

theorem depth_written (e : Emitter) (lines : List Line) : (e.written lines).depth = e.depth := by
  unfold written depth
  cases e.blocks with
  | nil => rfl
  | cons block outer => rfl

/-- With the functions of the library at hand, pasting stops for an unknown function only. -/
theorem paste_meets {library : String} (hfunctions : e.functions = functionsIn library)
    (name : String) : (paste name library).Meets e
      (fun err => err = .unknownFunction name ∧ find? (functionsIn library) name = none)
      fun _ e' => e'.depth = e.depth ∧ e'.functions = e.functions where
  stops err herr := by
    have hstate : (Action.state : Action Emitter CodeError Emitter).Returns e e e := .state e
    rw [paste, hstate.result_bind] at herr
    cases hknown : e.function? name with
    | none =>
      rw [(pasteWithin_unknown (notMem_pasted_of_error herr) hknown _).1] at herr
      rw [function?, hfunctions] at hknown
      exact ⟨(Except.error.inj herr).symm, hknown⟩
    | some f =>
      -- the text of a function can be cut out of the library that it was found in
      obtain ⟨f', hf', hnone, _⟩ :=
        exists_outOfRange (Option.isSome_iff_exists.mpr ⟨f, hknown⟩) herr
      rw [hfunctions] at hf'
      have hsome := isSome_definitionText? hf'
      rw [hnone] at hsome
      cases hsome
  returns _ e' h := by
    obtain ⟨es, q, _, rfl⟩ := paste_cases hfunctions h
    exact ⟨rfl, rfl⟩

theorem closeBlock_meets {Q : CodeError → Prop} {k : Nat} (h : e.depth = k + 1) :
    (closeBlock .definitions).Meets e Q fun _ e' => e'.depth = k := by
  obtain ⟨block, outer, hblocks⟩ := List.exists_cons_of_length_eq_add_one h
  refine (closeBlock_returns hblocks).meets ?_
  rw [depth, hblocks] at h
  exact Nat.succ.inj h

end Emitter
end Glsl

namespace Program

open Glsl

variable {β : Type} {g : Graph β} {order done : List Nat} {id : Nat} {n : Node β} {d : Draft}

/-! ## Failures -/

/-- Why no program can be written for a graph that has an evaluation order. -/
inductive Unwritten [Operable β] (g : Graph β) (order : List Nat) : (error : CodeError) → Prop
  | emptyGraph (h : g.nodes = []) : Unwritten g order .emptyGraph
  /-- The libraries did not define the function of a node when it was to be called. -/
  | unknownFunction {n : Node β} {library : String} (hn : n ∈ g.nodes)
    (hlibrary : Scanned g order library) (h : find? (functionsIn library) (calleeName n) = none) :
    Unwritten g order (.unknownFunction (calleeName n))
  | noConversion {source target : Kind} (h : source = .none ∨ target.isNumeric = false) :
    Unwritten g order (.noConversion source target)
  | undeclarable : Unwritten g order (.undeclarable .none)
  | noOutput {n : Node β} (hn : n ∈ g.nodes) : Unwritten g order (.noOutput n.id)

/-- The step fails for such a reason only, and otherwise leaves as many blocks open as before. -/
def Balanced [Operable β] {α : Type} (g : Graph β) (order : List Nat) (x : Generation α)
    (d : Draft) :
    Prop :=
  x.Meets d (Unwritten g order) fun _ d' => d'.emitter.depth = d.emitter.depth

theorem emitting_meets {α : Type} {x : Action Emitter CodeError α} {Q : CodeError → Prop}
    {R : α → Emitter → Prop} (h : x.Meets d.emitter Q R) :
    (emitting x).Meets d Q fun a d' => R a d'.emitter where
  stops := h.stops
  returns a d' ha := by
    obtain ⟨e, he, rfl⟩ := emitting_cases ha
    exact h.returns a e he

variable [Operable β]

/-- Steps that leave as many blocks open as before, one after another. -/
theorem Balanced.bind {α γ : Type} {x : Generation α} {f : α → Generation γ}
    (hx : Balanced g order x d)
    (hf : ∀ a d', x.Returns d a d' → Balanced g order (f a) d') : Balanced g order (x >>= f) d :=
  Action.Meets.bind hx fun a d' ha hdepth => (hf a d' ha).mono fun _ _ h => h.trans hdepth

theorem Balanced.each {α : Type} {f : α → Generation Unit} {P : List α → Draft → Prop} {xs : List α}
    (hf : ∀ done x rest, done ++ x :: rest = xs → ∀ d, P done d →
      Balanced g order (f x) d ∧ ∀ d', (f x).Returns d () d' → P (done ++ [x]) d') (hd : P [] d) :
    Balanced g order (Action.each f xs) d := by
  refine (Action.Meets.each (P := fun done x => P done x ∧ x.emitter.depth = d.emitter.depth)
    (fun done x rest hsplit d' hd' => ?_) ⟨hd, rfl⟩).mono fun _ _ h => h.2
  obtain ⟨hx, hP⟩ := hf done x rest hsplit d' hd'.1
  exact ⟨hx.stops, fun _ d'' h => ⟨hP d'' h, (hx.returns _ d'' h).trans hd'.2⟩⟩

theorem Balanced.all {α : Type} {f : α → Generation Unit} {xs : List α}
    (hf : ∀ x ∈ xs, ∀ d, Balanced g order (f x) d) : Balanced g order (Action.each f xs) d := by
  refine .each (P := fun _ _ => True) (fun done x rest hsplit d _ =>
    ⟨?_, fun _ _ => trivial⟩) trivial
  exact hf x (by simp [← hsplit]) d

theorem Balanced.of_returns {α : Type} {x : Generation α} {a : α} {d' : Draft}
    (h : x.Returns d a d') (hdepth : d'.emitter.depth = d.emitter.depth) : Balanced g order x d :=
  h.meets hdepth

theorem Balanced.ofExcept {α : Type} {x : Except CodeError α}
    (h : ∀ err, x = .error err → Unwritten g order err) : Balanced g order (.ofExcept x) d :=
  Action.Meets.ofExcept h fun _ _ => rfl

theorem Balanced.ofOption {α : Type} {o : Option α} {err : CodeError}
    (h : o = none → Unwritten g order err) : Balanced g order (.ofOption err o) d :=
  Action.Meets.ofOption h fun _ _ => rfl

theorem state_balanced : Balanced g order Action.state d := .of_returns (.state d) rfl

theorem nodeOf_balanced (hn : g.node? id = some n) : Balanced g order (nodeOf g id) d :=
  .of_returns (.ofOption hn _ d) rfl

theorem append_balanced (line : Line) : Balanced g order (emitting (Emitter.append line)) d :=
  .of_returns (append_returns line d) (Emitter.depth_written _ _)

theorem load_balanced (library : String) :
    Balanced g order (emitting (Emitter.load library)) d :=
  .of_returns (emitting_returns (Emitter.load_returns library d.emitter)) rfl

/-! ## The first pass -/

theorem collectLibrary_balanced (id : Nat) : Balanced g order (collectLibrary g id) d := by
  unfold collectLibrary
  split
  · exact .of_returns (.pure () d) rfl
  · split_ifs
    · exact .of_returns (.pure () d) rfl
    · refine .of_returns (.update _ d) ?_
      split_ifs <;> rfl

theorem declareVariable_balanced (kind : Kind) (name : String) :
    Balanced g order (emitting (Emitter.declareVariable kind name)) d := by
  rw [Emitter.declareVariable]
  split_ifs with hnumeric
  · exact append_balanced _
  · refine ⟨fun err herr => ?_, fun _ _ h => absurd h.1 (by intro hok; cases hok)⟩
    cases herr
    cases kind <;> simp_all [Kind.held, Kind.isNumeric, Unwritten.undeclarable]

theorem declareOutputs_balanced (hn : g.node? id = some n) :
    Balanced g order (declareOutputs g id) d := by
  refine (nodeOf_balanced hn).bind fun n d' _ => ?_
  exact .all fun s _ _ => declareVariable_balanced s.kind _

theorem declareParam_balanced (id : Nat) (q : Param) : Balanced g order (declareParam id q) d := by
  by_cases hkind : q.kind = .none
  · -- the uniform is refused, and nothing follows
    rw [declareParam, hkind]
    refine Action.Meets.bind (M := fun _ _ => False) ⟨fun err herr => ?_, fun _ _ h => ?_⟩
      fun _ _ _ hfalse => hfalse.elim
    · cases herr
      exact .undeclarable
    · cases h.1
  · obtain ⟨_, _, _, _, hreturns⟩ := declareParam_returns id hkind d
    exact .of_returns hreturns rfl

theorem declareUniforms_balanced (hn : g.node? id = some n) :
    Balanced g order (declareUniforms g id) d := by
  refine (nodeOf_balanced hn).bind fun n d' _ => ?_
  exact .all fun q _ _ => declareParam_balanced id q

/-! ## Arguments -/

theorem unwritten_of_converted {source target : Kind} {e : Expr} {err : CodeError}
    (h : Expr.converted source target e = .error err) : Unwritten g order err := by
  obtain ⟨rfl, hkinds⟩ := Conversion.error_of_between (error_of_map_eq h)
  exact .noConversion hkinds

theorem unwritten_of_ofZero {kind : Kind} {err : CodeError} (h : Expr.ofZero kind = .error err) :
    Unwritten g order err := by
  cases kind <;> cases h
  exact .undeclarable

theorem unwritten_of_connected? (hwell : g.WellFormed) {input : String} {kind : Kind}
    {err : CodeError} (h : connected? g n input kind = .error err) : Unwritten g order err := by
  unfold connected? at h
  split at h
  · cases h
  · next c hc =>
    -- the connection leaves an output, so there is something to convert
    obtain ⟨index, _, hfeeding⟩ := Option.bind_eq_some_iff.mp hc
    obtain ⟨source, hsource, houtput⟩ := hwell.leaves c (List.mem_of_find?_eq_some hfeeding)
    rw [show g.node? c.source = some source from hsource] at h
    simp only [List.getElem?_eq_getElem houtput] at h
    exact unwritten_of_converted (error_of_map_eq h)

theorem unwritten_of_argument (hwell : g.WellFormed) {binding : Binding} {kind : Kind}
    {err : CodeError} (h : argument g n binding kind = .error err) : Unwritten g order err := by
  unfold argument at h
  rcases error_of_bind_eq h with h | ⟨found, _, h⟩
  · exact unwritten_of_connected? hwell h
  · cases found with
    | some e => cases h
    | none =>
      simp only at h
      split at h
      · -- a parameter of the node: an image is sampled, a value is read
        split_ifs at h with himage
        · rcases error_of_bind_eq h with h | ⟨_, _, h⟩
          · exact unwritten_of_connected? hwell h
          · exact unwritten_of_converted h
        · exact unwritten_of_converted h
      · split_ifs at h with hcoords
        · exact unwritten_of_converted h
        · exact unwritten_of_ofZero h

theorem unwritten_of_arguments (hwell : g.WellFormed) (hn : n ∈ g.nodes) {next : Nat}
    {parameters : List (String × Parameter)} {err : CodeError}
    (h : arguments g n next parameters = .error err) : Unwritten g order err := by
  induction parameters generalizing next with
  | nil => cases h
  | cons first rest ih =>
    obtain ⟨name, parameter⟩ := first
    rw [arguments] at h
    split_ifs at h with houtput hcount
    · cases h
      exact .noOutput hn
    · rcases error_of_bind_eq h with h | ⟨_, _, h⟩
      · exact ih h
      · cases h
    · rcases error_of_bind_eq h with h | ⟨_, _, h⟩
      · exact unwritten_of_argument hwell h
      · rcases error_of_bind_eq h with h | ⟨_, _, h⟩
        · exact ih h
        · cases h

theorem unwritten_of_subtreeResult (hwell : g.WellFormed) {err : CodeError}
    (h : subtreeResult g n = .error err) : Unwritten g order err := by
  unfold subtreeResult at h
  split at h
  · cases h
  · next c hc =>
    obtain ⟨s, _, hfeeding⟩ := List.exists_of_findSome?_eq_some hc
    obtain ⟨source, hsource, _⟩ := hwell.leaves c (List.mem_of_find?_eq_some hfeeding)
    rw [show g.node? c.source = some source from hsource] at h
    exact unwritten_of_converted h

/-! ## The second pass -/

theorem Assembled.emitCall_balanced (hwell : g.WellFormed) (hd : Assembled g order done d)
    (hdone : done <+: order) (hn : g.node? id = some n) : Balanced g order (emitCall g id) d := by
  have hmem : n ∈ g.nodes := List.mem_of_getElem? hn
  have hlibrary : Scanned g order d.library := ⟨done, hdone, hd.library⟩
  refine (nodeOf_balanced hn).bind fun m _ hnode => ?_
  obtain ⟨hm, rfl⟩ := nodeOf_cases hnode
  obtain rfl := Option.some.inj (hn.symm.trans hm)
  refine state_balanced.bind fun _ _ hstate => ?_
  obtain ⟨rfl, rfl⟩ := hstate.of_state
  have hpaste := Emitter.paste_meets hd.functions (calleeName n)
  refine Balanced.bind ⟨fun err herr => ?_, fun _ _ h => ?_⟩ fun _ _ hemit => ?_
  · obtain ⟨rfl, hunknown⟩ := hpaste.stops err herr
    exact .unknownFunction hmem hlibrary hunknown
  · obtain ⟨e, he, rfl⟩ := emitting_cases h
    exact (hpaste.returns _ e he).1
  · obtain ⟨e, he, rfl⟩ := emitting_cases hemit
    refine state_balanced.bind fun _ _ hstate => ?_
    obtain ⟨rfl, rfl⟩ := hstate.of_state
    -- pasting has not touched the table
    refine (Balanced.ofOption fun hunknown => ?_).bind fun f _ _ => ?_
    · refine .unknownFunction hmem hlibrary ?_
      rw [← hd.functions, ← (hpaste.returns _ e he).2]
      exact hunknown
    · refine (Balanced.ofExcept fun err herr => ?_).bind fun arguments _ _ => append_balanced _
      exact unwritten_of_arguments hwell hmem herr

theorem declareAll_balanced (horder : g.IsEvaluationOrder order) {ids : List Nat}
    (hids : ∀ id ∈ ids, id ∈ order) : Balanced g order (Action.each (declareOutputs g) ids) d := by
  refine .all fun id hid d' => ?_
  obtain ⟨n, hn⟩ := exists_node horder (hids id hid)
  exact declareOutputs_balanced hn

theorem Assembled.callAll_balanced (hwell : g.WellFormed) (horder : g.IsEvaluationOrder order)
    (hd : Assembled g order done d) (hdone : done <+: order) {ids : List Nat}
    (hids : ∀ id ∈ ids, id ∈ done) : Balanced g order (Action.each (emitCall g) ids) d := by
  refine .each (P := fun _ => Assembled g order done) (fun before id after hsplit x hx => ?_) hd
  have hid : id ∈ done := hids id (by simp [← hsplit])
  obtain ⟨n, hn⟩ := exists_node horder (hdone.subset hid)
  exact ⟨hx.emitCall_balanced hwell hdone hn, fun x' hcall => (hx.call hdone hcall).1⟩

/-- Specialising opens a block and closes it again. -/
theorem Assembled.specialise_balanced (hwell : g.WellFormed) (horder : g.IsEvaluationOrder order)
    (hd : Assembled g order done d) (hdone : done <+: order)
    (hbefore : ∀ m ∈ g.ancestors n.id, m ∈ done) :
    Balanced g order (Program.specialise g order n) d := by
  have hmembers : ∀ m ∈ order.filter (· ∈ g.ancestors n.id), m ∈ done := fun m hm =>
    hbefore m (of_decide_eq_true (List.mem_filter.mp hm).2)
  refine Action.Meets.bind (M := fun _ d' => d' = { d with emitter := { d.emitter with
      blocks := ⟨some s!"vec4 {subtreeName n.id}(vec2 {coordName})", []⟩ :: d.emitter.blocks } })
    ((emitting_returns (.update _ d.emitter)).meets rfl) fun _ d₀ _ hd₀ => ?_
  subst hd₀
  refine Action.Meets.bind (declareAll_balanced horder fun m hm => hdone.subset (hmembers m hm))
    fun _ d₁ hdeclare hdepth₁ => ?_
  obtain rfl := declareAll_cases hdeclare
  refine Action.Meets.bind ((hd.declared n).callAll_balanced hwell horder hdone hmembers)
    fun _ d₂ _ hdepth₂ => ?_
  refine Action.Meets.bind (Balanced.ofExcept fun err => unwritten_of_subtreeResult hwell)
    fun value _ hresult _ => ?_
  obtain ⟨_, rfl⟩ := hresult.of_ofExcept
  refine Action.Meets.bind (append_balanced _) fun _ d₃ _ hdepth₃ => ?_
  -- as many blocks are open as just behind the opening, so there is one to close
  have hdepth : d₃.emitter.depth = d.emitter.depth + 1 := hdepth₃.trans (hdepth₂.trans hdepth₁)
  refine Action.Meets.bind (emitting_meets (Emitter.closeBlock_meets hdepth))
    fun _ d₄ _ hdepth₄ => ?_
  refine Action.Meets.mono (Balanced.bind ?_ fun _ d₅ _ => state_balanced.bind fun _ _ _ =>
    (load_balanced _).bind fun _ _ _ => .of_returns (.report _ _) rfl) fun _ _ h => h.trans hdepth₄
  exact .of_returns (.update _ d₄) rfl

theorem Assembled.emitNode_balanced (hwell : g.WellFormed) (horder : g.IsEvaluationOrder order)
    (hd : Assembled g order done d) {rest : List Nat} (hsplit : done ++ id :: rest = order) :
    Balanced g order (emitNode g order id) d := by
  have hdone : done <+: order := ⟨id :: rest, hsplit⟩
  have hnow : done ++ [id] <+: order := ⟨rest, by rw [← hsplit]; simp⟩
  obtain ⟨n, hn⟩ := exists_node horder (hnow.subset (by simp) : id ∈ order)
  refine (nodeOf_balanced hn).bind fun m _ hnode => ?_
  obtain ⟨hm, rfl⟩ := nodeOf_cases hnode
  obtain rfl := Option.some.inj (hn.symm.trans hm)
  split_ifs with hmulti
  · have hbefore : ∀ m ∈ g.ancestors n.id, m ∈ done := by
      rw [hwell.ids id n hn]
      exact fun m => mem_done_of_ancestor hwell horder hsplit
    refine (hd.specialise_balanced hwell horder hdone hbefore).bind fun _ d₁ hspecialise => ?_
    have hd₁ := (hd.specialise hdone hn hmulti hspecialise).1
    exact hd₁.emitCall_balanced hwell hnow hn
  · exact hd.emitCall_balanced hwell hdone hn

theorem emitStore_balanced (hwell : g.WellFormed) (hn : g.node? id = some n) :
    Balanced g order (emitStore g id) d := by
  refine (Balanced.ofOption fun _ => ?_).bind fun first _ _ => ?_
  · rw [← hwell.ids id n hn]
    exact .noOutput (List.mem_of_getElem? hn)
  · refine (Balanced.ofExcept fun err => unwritten_of_converted).bind fun _ _ _ => ?_
    exact append_balanced _

theorem build_balanced (hwell : g.WellFormed) (horder : g.IsEvaluationOrder order) :
    Balanced g order (build g order) {} := by
  refine (Balanced.ofOption fun hnone => ?_).bind fun last _ hlast => ?_
  · refine .emptyGraph (List.eq_nil_iff_forall_not_mem.mpr fun n hn => ?_)
    have hid := mem_order hwell horder hn
    rw [List.getLast?_eq_none_iff.mp hnone] at hid
    exact absurd hid List.not_mem_nil
  obtain ⟨hsome, rfl⟩ := hlast.of_ofOption
  refine (Balanced.all fun id hid d => ?_).bind fun _ d₁ hdeclare => ?_
  · obtain ⟨n, hn⟩ := exists_node horder hid
    exact (collectLibrary_balanced id).bind fun _ _ _ => (declareUniforms_balanced hn).bind
      fun _ _ _ => declareOutputs_balanced hn
  have hd₁ : Declared g order d₁ :=
    Action.Returns.of_each (fun _ _ _ _ _ _ hx hstep => hx.step hstep) Declared.start hdeclare
  refine state_balanced.bind fun _ _ hstate => ?_
  obtain ⟨rfl, rfl⟩ := hstate.of_state
  refine (load_balanced _).bind fun _ _ hload => ?_
  obtain rfl := load_cases hload
  -- the libraries are loaded, and each node finds them as the nodes before it have left them
  refine (Balanced.each (P := AllCalled g order) (fun done id rest hsplit d hd =>
    ⟨hd.toAssembled.emitNode_balanced hwell horder hsplit, fun d' => hd.step hsplit⟩)
    hd₁.allCalled).bind fun _ d₂ _ => ?_
  obtain ⟨n, hn⟩ := exists_node horder (resultNode_mem g hsome)
  exact (emitStore_balanced hwell hn).bind fun _ _ _ => state_balanced.bind fun _ _ _ =>
    .of_returns (.pure _ _) rfl

/-! ## Outcomes -/

/-- **Outcomes.** Take a graph with a history, of operators with any libraries and names.

Generation ends: done on demand, it stays within some depth and comes to the same outcome. If it
fails, there is a cycle, or the program cannot be written for one of the reasons in `Unwritten`; a
span that is out of range, a block that is not open and a node that is not there are not among them.
If it succeeds, all blocks have been closed. -/
theorem generate_outcomes (operations : List (Graph.Operation β)) :
    let g := Graph.ofOperations operations
    (∃ bound, ∀ depth, bound ≤ depth →
      generateDown g depth = (generate.run g).result.mapError some) ∧
    (∀ failure, (generate.run g).result = .error failure →
      (∃ nodes, failure = .graph (.cycle nodes) ∧ ¬ g.Acyclic) ∨
      ∃ order err, failure = .code err ∧ g.schedule = .ok order ∧ Unwritten g order err) ∧
    ∀ p, (generate.run g).result = .ok p →
      ∃ order d, g.schedule = .ok order ∧ (build g order).Returns {} p d ∧ d.emitter.depth = 0 := by
  intro g
  have hwell : g.WellFormed := Graph.wellFormed_ofOperations operations
  refine ⟨exists_depth hwell, fun failure hfailure => ?_, fun p hp => ?_⟩
  · rw [result_generate, hwell.ordering_eq] at hfailure
    rcases hwell.schedule with ⟨_, order, hschedule, horder⟩ | ⟨hcyclic, nodes, hcycle⟩
    · rw [hschedule] at hfailure
      replace hfailure : ((build g order).run {}).result.mapError Failure.code = .error failure :=
        hfailure
      cases hbuild : ((build g order).run {}).result with
      | ok p => rw [hbuild] at hfailure; cases hfailure
      | error err =>
        rw [hbuild] at hfailure
        cases hfailure
        exact Or.inr ⟨order, err, rfl, hschedule, (build_balanced hwell horder).stops err hbuild⟩
    · rw [hcycle] at hfailure
      cases hfailure
      exact Or.inl ⟨nodes, rfl, hcyclic⟩
  · obtain ⟨order, hschedule, horder, hbuild⟩ := exists_order_of_generate hwell hp
    exact ⟨order, _, hschedule, ⟨hbuild, rfl⟩,
      (build_balanced hwell horder).returns p _ ⟨hbuild, rfl⟩⟩

/-- Samples what feeds it. -/
def probe : Operator where
  function := "probe"
  library := "void probe(out vec4 r)\x7br=$subtree(r.xy);\x7d"
  inputs := [("Value", .vec4)]
  outputs := [("Color", .vec4)]
  multiPass := true

/-- Has no function. -/
def ghost : Operator where
  function := "ghost"
  library := ""
  outputs := [("Color", .vec4)]

/-- One probe feeds another, which stands before it. -/
def probed : List (Graph.Operation Operator) :=
  [.edit (.create probe), .edit (.create probe), .edit (.connect ⟨1, 0, 0, 0⟩)]

/-- With too little room the descent stops; generation ends all the same, with all blocks closed. A
node without a function is refused. -/
theorem probed_outcomes :
    (generateDown (Graph.ofOperations probed) 1 = .error none ∧
      ∃ p, (generate.run (Graph.ofOperations probed)).result = .ok p ∧
        ∃ order d, (build (Graph.ofOperations probed) order).Returns {} p d ∧ d.emitter.depth = 0) ∧
    Unwritten (Graph.ofOperations [.edit (.create ghost)]) [0] (.unknownFunction "ghost") := by
  refine ⟨⟨by decide +kernel, ?_⟩, ?_⟩
  · have hok : (generate.run (Graph.ofOperations probed)).result.toOption.isSome := by
      decide +kernel
    cases hp : (generate.run (Graph.ofOperations probed)).result with
    | error failure => rw [hp] at hok; cases hok
    | ok p =>
      obtain ⟨order, d, _, hbuild, hdepth⟩ := (generate_outcomes probed).2.2 p hp
      exact ⟨p, rfl, order, d, hbuild, hdepth⟩
  · have hfailure : (generate.run (Graph.ofOperations [.edit (.create ghost)])).result =
        .error (.code (.unknownFunction "ghost")) := by decide +kernel
    have hschedule : (Graph.ofOperations [.edit (.create ghost)]).schedule = .ok [0] := by
      decide +kernel
    rcases (generate_outcomes [.edit (.create ghost)]).2.1 _ hfailure with
      ⟨_, hcycle, _⟩ | ⟨order, err, herr, horder, hunwritten⟩
    · cases hcycle
    · cases herr
      rw [hschedule] at horder
      cases horder
      exact hunwritten

end Program
end Texel
