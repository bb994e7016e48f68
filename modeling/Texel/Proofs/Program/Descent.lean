import Texel.Proofs.Glsl.Emission
import Texel.Proofs.Program.Assembly

/-!
# Texel — calling nodes on demand

There is another way to write a program, which follows the calls: a multi-pass node is specialised
when it is first called, and the nodes of its subtree function are called in the same way, which may
specialise others. Pasting a function descends in the same manner into the functions that it calls.
Nothing in such a descent bounds it from the start, so it is written here with a depth, and stops
without an error where the depth is used up.

It never is, if there is room enough: what feeds a node has had its turn before, so a subtree
function finds all its nodes specialised, and functions that are being pasted are not pasted again.
Generation in the evaluation order is the same as on demand.

* **`pasteDown`**, **`callDown`**, **`generateDown`** — pasting, calling and generating on demand.
* **`Agrees`** — from some depth on, the descent has the outcome of generation; with rules for steps
  (**`Agrees.bind`**), loops (**`Agrees.each`**) and levels (**`Agrees.succ`**).
* **`agrees_emitCall`**, **`Assembled.agrees_emitNode`** — a node that has been specialised, and one
  whose turn has come.
* **`exists_depth`** — the whole of generation.
-/

namespace Texel

/-! ## Pasting -/

namespace Glsl.Emitter

variable {library name : String} {e : Emitter}

/-- `paste`, one level of calls for each unit of depth. -/
def pasteDown (library : String) : Nat → String → Action Emitter (Option CodeError) Unit
  | 0, _ => .fail none
  | depth + 1, name => do
    let e ← .state
    if e.isPasted name then
      return
    let f ← .ofOption (some (.unknownFunction name)) (e.function? name)
    .update fun e => { e with pasted := name :: e.pasted }
    Action.each (pasteDown library depth)
      (f.calls.filter fun callee => (e.function? callee).isSome)
    (copy library f).mapError some

theorem isPasting_pasteDown (library : String) :
    IsPasting library fun depth => pasteDown library (depth + 1) where
  pasted {name e} h depth := by
    have hpasted : e.isPasted name = true := List.contains_iff_mem.mpr h
    refine (Action.Returns.state e).bind ?_
    rw [if_pos hpasted]
    exact .pure () e
  fresh {name e} h f hf text htext depth e' hcalls := by
    have hpasted : ¬ e.isPasted name = true := mt List.contains_iff_mem.mp h
    refine (Action.Returns.state e).bind ?_
    rw [if_neg hpasted]
    refine (Action.Returns.ofOption hf _ e).bind ((Action.Returns.update _ e).bind (hcalls.bind ?_))
    refine Action.Returns.mapError ?_ some
    rw [copy, htext]
    exact .update _ e'

/-- A name that nobody knows is refused at once. -/
theorem pasteDown_unknown (hpasted : name ∉ e.pasted) (hunknown : e.function? name = none)
    (depth : Nat) :
    ((pasteDown library (depth + 1) name).run e).result =
    .error (some (.unknownFunction name)) := by
  have hstate : (Action.state : Action Emitter (Option CodeError) Emitter).Returns e e e := .state e
  have hfresh : ¬ e.isPasted name = true := mt List.contains_iff_mem.mp hpasted
  rw [pasteDown, hstate.result_bind, if_neg hfresh, hunknown]
  rfl

end Glsl.Emitter

namespace Program

open Glsl

/-! ## Calling -/

/-- A draft, and the nodes that have been specialised. A descent stops with an error of generation,
or with none where it has become too deep. -/
abbrev Descent := Action (Draft × List Nat) (Option CodeError)

/-- A step that does not descend. -/
def Descent.of {α : Type} (x : Generation α) : Descent α :=
  (x.mapError some).within Prod.fst fun s d => (d, s.2)

/-- Works on the emitter of the draft. -/
def Descent.emitting (x : Action Emitter (Option CodeError) Unit) : Descent Unit :=
  x.within (·.1.emitter) fun s emitter => ({ s.1 with emitter }, s.2)

variable {β : Type} [Operable β]

/-- The call of a node whose function has been pasted. -/
def invoke (g : Graph β) (node : Node β) : Generation Unit := do
  let function ← .ofOption (.unknownFunction (calleeName node))
    ((← .state).emitter.function? (calleeName node))
  let arguments ← .ofExcept (arguments g node 0 function.callParameters)
  emitting (Emitter.append (.call (calleeName node) arguments))

/-- What comes behind the calls in a subtree function, and the library of its node. -/
def finishSubtree (g : Graph β) (order : List Nat) (node : Node β) : Generation Unit := do
  let op := Operable.operator node.behavior
  let result ← .ofExcept (subtreeResult g node)
  emitting (Emitter.append (.ret result))
  emitting (Emitter.closeBlock .definitions)
  let renamed := rename (rename op.library placeholder (subtreeName node.id)) op.function
    (specialisedName op.function node.id)
  .update fun d => { d with library := d.library ++ renamed ++ "\n" }
  emitting (Emitter.load (← .state).library)
  .report (.nodeSpecialised node.id (order.filter (· ∈ g.ancestors node.id)).length)

/-- Specialises a node, with the given way to call the nodes of its subtree function. -/
def specialiseDown (call : Nat → Descent Unit) (g : Graph β) (order : List Nat) (node : Node β) :
    Descent Unit := do
  let members := order.filter (· ∈ g.ancestors node.id)
  .of (emitting (Emitter.openBlock (some s!"vec4 {subtreeName node.id}(vec2 {coordName})")))
  .of (Action.each (declareOutputs g) members)
  Action.each call members
  .of (finishSubtree g order node)
  .update fun s => (s.1, s.2 ++ [node.id])

/-- Calls a node, and specialises it first if that has not been done. -/
def callDown (g : Graph β) (order : List Nat) : Nat → Nat → Descent Unit
  | 0, _ => .fail none
  | depth + 1, id => do
    let node ← .of (nodeOf g id)
    let specialised := (← .state).2
    if (Operable.operator node.behavior).multiPass ∧ node.id ∉ specialised then
      specialiseDown (callDown g order depth) g order node
    .emitting (Emitter.pasteDown (← .state).1.library depth (calleeName node))
    .of (invoke g node)

/-- Stores the result and puts the program together. -/
def finish (g : Graph β) (order : List Nat) (result : Nat) : Generation Program := do
  emitStore g result
  let d ← .state
  return {
    uniforms := d.emitter.uniforms
    definitions := d.emitter.definitions
    body := d.emitter.body
    uploads := d.uploads
    order
    result }

/-- `build`, with nodes that are specialised on demand. -/
def buildDown (g : Graph β) (order : List Nat) (depth : Nat) : Descent Program := do
  let last ← .of (.ofOption .emptyGraph order.getLast?)
  .of (Action.each (fun id => do
    collectLibrary g id
    declareUniforms g id
    declareOutputs g id) order)
  let d ← .of .state
  .of (emitting (Emitter.load d.library))
  Action.each (callDown g order depth) order
  .of (finish g order (resultNode g order last))

/-- The program of a graph or an error, or nothing at all if the depth is used up. -/
def generateDown (g : Graph β) (depth : Nat) : Except (Option Failure) Program :=
  match g.schedule with
  | .ok order => ((buildDown g order depth).run ({}, [])).result.mapError (Option.map .code)
  | .error e => .error (some (.graph e))

theorem emitCall_eq (g : Graph β) (id : Nat) : emitCall g id = (do
    let node ← nodeOf g id
    let d ← .state
    emitting (Emitter.paste (calleeName node) d.library)
    invoke g node) := rfl

theorem specialise_eq (g : Graph β) (order : List Nat) (node : Node β) :
    specialise g order node = (do
      emitting (Emitter.openBlock (some s!"vec4 {subtreeName node.id}(vec2 {coordName})"))
      Action.each (declareOutputs g) (order.filter (· ∈ g.ancestors node.id))
      Action.each (emitCall g) (order.filter (· ∈ g.ancestors node.id))
      finishSubtree g order node) := rfl

theorem build_eq (g : Graph β) (order : List Nat) : build g order = (do
    let last ← .ofOption .emptyGraph order.getLast?
    Action.each (fun id => do
      collectLibrary g id
      declareUniforms g id
      declareOutputs g id) order
    let d ← .state
    emitting (Emitter.load d.library)
    Action.each (emitNode g order) order
    finish g order (resultNode g order last)) := rfl

/-! ## Agreement -/

section Agreement

variable {α γ : Type} {x : Nat → Descent α} {y : Generation α} {d : Draft} {l l' l'' : List Nat}

/-- From some depth on, the descent `x` has the outcome of `y`. Where `l` has been specialised
before, `l'` has been afterwards. -/
inductive Agrees (x : Nat → Descent α) (y : Generation α) (d : Draft) (l l' : List Nat) : Prop
  | stops {e : CodeError} (bound : Nat) (hy : (y.run d).result = .error e)
    (hx : ∀ depth, bound ≤ depth → ((x depth).run (d, l)).result = .error (some e))
  | returns {a : α} {d' : Draft} (bound : Nat) (hy : y.Returns d a d')
    (hx : ∀ depth, bound ≤ depth → (x depth).Returns (d, l) a (d', l'))

theorem Agrees.of (y : Generation α) (d : Draft) (l : List Nat) :
    Agrees (fun _ => .of y) y d l l := by
  cases hy : (y.run d).result with
  | error e =>
    refine .stops 0 hy fun _ _ => ?_
    show (y.run d).result.mapError some = _
    rw [hy]
    rfl
  | ok a =>
    have hreturns : y.Returns d a (y.run d).state := ⟨hy, rfl⟩
    exact .returns 0 hreturns fun _ _ => (hreturns.mapError some).within

/-- One step after another. The larger of the two bounds will do. -/
theorem Agrees.bind {f : Nat → α → Descent γ} {k : α → Generation γ} (hx : Agrees x y d l l')
    (hf : ∀ a d', y.Returns d a d' → Agrees (f · a) (k a) d' l' l'') :
    Agrees (fun depth => x depth >>= f depth) (y >>= k) d l l'' := by
  cases hx with
  | stops bound hy hx =>
    exact .stops bound (Action.result_bind_of_error hy) fun depth hdepth =>
      Action.result_bind_of_error (hx depth hdepth)
  | @returns a d' bound hy hx =>
    cases hf a d' hy with
    | stops bound' hk hf =>
      refine .stops (max bound bound') (hy.result_bind.trans hk) fun depth hdepth => ?_
      rw [(hx depth ((le_max_left _ _).trans hdepth)).result_bind]
      exact hf depth ((le_max_right _ _).trans hdepth)
    | returns bound' hk hf =>
      refine .returns (max bound bound') (hy.bind hk) fun depth hdepth => ?_
      exact (hx depth ((le_max_left _ _).trans hdepth)).bind
        (hf depth ((le_max_right _ _).trans hdepth))

/-- **Loops.** Which nodes have been specialised depends on the items that have been dealt with. -/
theorem Agrees.each {f : Nat → γ → Descent Unit} {k : γ → Generation Unit} {xs : List γ}
    {P : List γ → Draft → Prop} {K : List γ → List Nat}
    (hf : ∀ done c rest, done ++ c :: rest = xs → ∀ d, P done d →
      Agrees (f · c) (k c) d (K done) (K (done ++ [c])) ∧
        ∀ d', (k c).Returns d () d' → P (done ++ [c]) d') (hd : P [] d) :
    Agrees (fun depth => Action.each (f depth) xs) (Action.each k xs) d (K []) (K xs) := by
  suffices hloop : ∀ rest done, done ++ rest = xs → ∀ d, P done d →
      Agrees (fun depth => Action.each (f depth) rest) (Action.each k rest) d (K done) (K xs)
    from hloop xs [] rfl d hd
  intro rest
  induction rest with
  | nil =>
    intro done hdone d _
    rw [← hdone, List.append_nil]
    exact .returns 0 (.each_nil k d) fun depth _ => .each_nil (f depth) _
  | cons c rest ih =>
    intro done hdone d hd
    obtain ⟨hc, hP⟩ := hf done c rest hdone d hd
    exact hc.bind fun _ d' hd' => ih (done ++ [c]) (by rw [← hdone]; simp) d' (hP d' hd')

/-- One level further down. -/
theorem Agrees.succ {x' : Nat → Descent α} (hx : ∀ depth, x (depth + 1) = x' depth)
    (h : Agrees x' y d l l') : Agrees x y d l l' := by
  have hdown : ∀ {bound depth : Nat}, bound + 1 ≤ depth → ∃ k, bound ≤ k ∧ x depth = x' k := by
    intro bound depth hdepth
    obtain ⟨k, rfl⟩ : ∃ k, depth = k + 1 := ⟨depth - 1, by omega⟩
    exact ⟨k, by omega, hx k⟩
  cases h with
  | stops bound hy h =>
    refine .stops (bound + 1) hy fun depth hdepth => ?_
    obtain ⟨k, hk, heq⟩ := hdown hdepth
    rw [heq]
    exact h k hk
  | returns bound hy h =>
    refine .returns (bound + 1) hy fun depth hdepth => ?_
    obtain ⟨k, hk, heq⟩ := hdown hdepth
    rw [heq]
    exact h k hk

/-- A step of the descent alone, which does not touch the draft. -/
theorem Agrees.apart {z : Nat → Descent γ} {f : Nat → γ → Descent α} {c : γ}
    (hz : ∀ depth, (z depth).Returns (d, l) c (d, l')) (h : Agrees (f · c) y d l' l'') :
    Agrees (fun depth => z depth >>= f depth) y d l l'' := by
  cases h with
  | stops bound hy h =>
    refine .stops bound hy fun depth hdepth => ?_
    rw [(hz depth).result_bind]
    exact h depth hdepth
  | returns bound hy h =>
    exact .returns bound hy fun depth hdepth => (hz depth).bind (h depth hdepth)

/-- A step of generation alone, which does not touch the draft. -/
theorem Agrees.beside {z : Generation γ} {k : γ → Generation α} {c : γ} (hz : z.Returns d c d)
    (h : Agrees x (k c) d l l') : Agrees x (z >>= k) d l l' := by
  cases h with
  | stops bound hy h => exact .stops bound (hz.result_bind.trans hy) h
  | returns bound hy h => exact .returns bound (hz.bind hy) h

/-- One more node has been specialised in the end. -/
theorem Agrees.add {x : Nat → Descent Unit} {y : Generation Unit} (h : Agrees x y d l l')
    (id : Nat) :
    Agrees (fun depth => do x depth; .update fun s => (s.1, s.2 ++ [id])) y d l (l' ++ [id]) := by
  cases h with
  | stops bound hy h =>
    exact .stops bound hy fun depth hdepth => Action.result_bind_of_error (h depth hdepth)
  | returns bound hy h =>
    exact .returns bound hy fun depth hdepth => (h depth hdepth).bind (.update _ _)

theorem Descent.emitting_returns {x : Action Emitter (Option CodeError) Unit} {e : Emitter}
    (h : x.Returns d.emitter () e) :
    (Descent.emitting x).Returns (d, l) () ({ d with emitter := e }, l) :=
  Action.Returns.within (t := (d, l)) h

/-- Pasting goes no deeper than there are functions in the library. -/
theorem agrees_paste (hfunctions : d.emitter.functions = functionsIn d.library) (name : String) :
    Agrees (fun depth => .emitting (Emitter.pasteDown d.library depth name))
      (emitting (Emitter.paste name d.library)) d l l := by
  refine .succ (fun _ => rfl) ?_
  have hstate :
      (Action.state : Action Emitter CodeError Emitter).Returns d.emitter d.emitter d.emitter :=
    .state d.emitter
  by_cases hpasted : name ∈ d.emitter.pasted
  · refine .returns 0 (emitting_returns (hstate.bind (Emitter.pasteWithin_pasted hpasted _)))
      fun depth _ => Descent.emitting_returns ?_
    exact (Emitter.isPasting_pasteDown d.library).pasted hpasted depth
  · cases hknown : d.emitter.function? name with
    | none =>
      refine .stops 0 ?_ fun depth _ => Emitter.pasteDown_unknown hpasted hknown depth
      show ((Emitter.paste name d.library).run d.emitter).result = _
      rw [Emitter.paste, hstate.result_bind]
      exact (Emitter.pasteWithin_unknown hpasted hknown _).1
    | some f =>
      -- the walk through the calls has the functions of the library for a bound
      obtain ⟨es, q, hwalk⟩ :=
        Emitter.exists_walk hfunctions (Option.isSome_iff_exists.mpr ⟨f, hknown⟩)
      refine .returns d.emitter.functions.length
        (emitting_returns (Emitter.paste_returns hfunctions hwalk))
        fun depth hdepth => Descent.emitting_returns ?_
      exact ((Emitter.isPasting_pasteDown d.library).run (hwalk.mono hdepth) hfunctions
        rfl).of_each_singleton

end Agreement

/-! ## Generation -/

variable {g : Graph β} {order done : List Nat} {id : Nat} {n : Node β} {d : Draft} {l : List Nat}

/-- What both ways do with a node that has been specialised if it needs to be. -/
theorem agrees_invoke (hfunctions : d.emitter.functions = functionsIn d.library) (n : Node β) :
    Agrees (fun depth => do
        .emitting (Emitter.pasteDown (← .state).1.library depth (calleeName n))
        .of (invoke g n))
      (do
        let d ← .state
        emitting (Emitter.paste (calleeName n) d.library)
        invoke g n) d l l := by
  refine .apart (fun _ => .state (d, l)) (.beside (.state d) ?_)
  exact (agrees_paste hfunctions _).bind fun _ d' _ => .of (invoke g n) d' l

/-- A node that need not be specialised any more is only called. -/
theorem agrees_emitCall (hwell : g.WellFormed)
    (hfunctions : d.emitter.functions = functionsIn d.library) (hn : g.node? id = some n)
    (hseen : (operatorOf n).multiPass = true → id ∈ l) :
    Agrees (fun depth => callDown g order depth id) (emitCall g id) d l l := by
  have hnot : ¬ ((Operable.operator n.behavior).multiPass = true ∧ n.id ∉ l) := by
    rw [hwell.ids id n hn]
    exact fun h => h.2 (hseen h.1)
  refine .succ (fun _ => rfl) ?_
  rw [emitCall_eq]
  refine (Agrees.of (nodeOf g id) d l).bind fun m d' hnode => ?_
  obtain ⟨hm, rfl⟩ := nodeOf_cases hnode
  obtain rfl := Option.some.inj (hn.symm.trans hm)
  refine .apart (fun _ => .state (d, l)) ?_
  simp only [if_neg hnot]
  exact agrees_invoke hfunctions n

/-- The multi-pass nodes among the first nodes of an evaluation order. -/
def specialised (g : Graph β) (done : List Nat) : List Nat := (multiPassNodes g done).map (·.id)

theorem mem_specialised_iff (hwell : g.WellFormed) (hn : g.node? id = some n) :
    id ∈ specialised g done ↔ id ∈ done ∧ (operatorOf n).multiPass = true := by
  simp only [specialised, multiPassNodes, List.mem_map, List.mem_filter, List.mem_filterMap]
  constructor
  · rintro ⟨m, ⟨⟨i, hi, hm⟩, hmulti⟩, rfl⟩
    obtain rfl := hwell.ids i m hm
    obtain rfl := Option.some.inj (hn.symm.trans hm)
    exact ⟨hi, hmulti⟩
  · rintro ⟨hid, hmulti⟩
    exact ⟨n, ⟨⟨id, hid, hn⟩, hmulti⟩, hwell.ids id n hn⟩

theorem specialised_concat (hwell : g.WellFormed) (hn : g.node? id = some n) :
    specialised g (done ++ [id]) =
      specialised g done ++ if (operatorOf n).multiPass then [id] else [] := by
  rw [specialised, multiPassNodes_concat hn, List.map_append, specialised]
  split_ifs
  · rw [List.map_singleton, hwell.ids id n hn]
  · rfl

/-- The nodes of a subtree function have had their turn, so the descent into it goes no further. -/
theorem Assembled.agrees_specialise (hwell : g.WellFormed) (horder : g.IsEvaluationOrder order)
    (hd : Assembled g order done d) (hdone : done <+: order)
    (hbefore : ∀ m ∈ g.ancestors n.id, m ∈ done) :
    Agrees (fun depth => specialiseDown (callDown g order depth) g order n)
      (Program.specialise g order n) d (specialised g done) (specialised g done ++ [n.id]) := by
  have hmembers : ∀ m ∈ order.filter (· ∈ g.ancestors n.id), m ∈ done := fun m hm =>
    hbefore m (of_decide_eq_true (List.mem_filter.mp hm).2)
  rw [specialise_eq]
  refine (Agrees.of _ _ _).bind fun _ d₀ hblock => ?_
  obtain ⟨_, hopen, rfl⟩ := emitting_cases hblock
  obtain rfl := hopen.of_update
  refine (Agrees.of _ _ _).bind fun _ d₁ hdeclare => ?_
  obtain rfl := declareAll_cases hdeclare
  refine (Agrees.each (P := fun _ => Assembled g order done) (K := fun _ => specialised g done)
    (fun before m after hsplit x hx => ?_) (hd.declared n)).bind fun _ d₂ _ =>
      (Agrees.of _ d₂ _).add n.id
  -- a member that needs to be specialised has been
  have hm : m ∈ done := hmembers m (by simp [← hsplit])
  obtain ⟨k, hk⟩ := exists_node horder (hdone.subset hm)
  refine ⟨agrees_emitCall hwell hx.functions hk fun hmulti => ?_, fun x' hcall =>
    (hx.call hdone hcall).1⟩
  exact (mem_specialised_iff hwell hk).mpr ⟨hm, hmulti⟩

/-- **The step.** When the turn of a multi-pass node has come, it is called for the first time. -/
theorem Assembled.agrees_emitNode (hwell : g.WellFormed) (horder : g.IsEvaluationOrder order)
    (hd : Assembled g order done d) {rest : List Nat} (hsplit : done ++ id :: rest = order) :
    Agrees (fun depth => callDown g order depth id) (emitNode g order id) d (specialised g done)
      (specialised g (done ++ [id])) := by
  have hdone : done <+: order := ⟨id :: rest, hsplit⟩
  obtain ⟨n, hn⟩ := exists_node horder (show id ∈ order by simp [← hsplit])
  have hid := hwell.ids id n hn
  rw [specialised_concat hwell hn]
  by_cases hmulti : (operatorOf n).multiPass = true
  · have hfirst : (Operable.operator n.behavior).multiPass = true ∧ n.id ∉ specialised g done := by
      rw [hid, mem_specialised_iff hwell hn]
      exact ⟨hmulti, fun hmem => horder.notMem_done hsplit hmem.1⟩
    have hbefore : ∀ m ∈ g.ancestors n.id, m ∈ done := by
      rw [hid]
      exact fun m => mem_done_of_ancestor hwell horder hsplit
    refine .succ (fun _ => rfl) ((Agrees.of (nodeOf g id) d _).bind fun m _ hnode => ?_)
    obtain ⟨hm, rfl⟩ := nodeOf_cases hnode
    obtain rfl := Option.some.inj (hn.symm.trans hm)
    refine .apart (fun _ => .state (d, specialised g done)) ?_
    -- both ways specialise the node now
    simp only [if_pos hfirst, if_pos hfirst.1]
    refine (hd.agrees_specialise hwell horder hdone hbefore).bind fun _ d₁ hspecialise => ?_
    have hd₁ := (hd.specialise hdone hn hmulti hspecialise).1
    rw [if_pos hmulti, hid, emitCall_eq]
    -- generation looks the node up once more
    exact .beside (.ofOption hn _ d₁) (agrees_invoke hd₁.functions n)
  · have hcall : Agrees (fun depth => callDown g order depth id) (emitCall g id) d
        (specialised g done) (specialised g done) :=
      agrees_emitCall hwell hd.functions hn fun hyes => absurd hyes hmulti
    have hsingle : ¬ (Operable.operator n.behavior).multiPass = true := hmulti
    rw [if_neg hmulti, List.append_nil]
    refine .beside (.ofOption hn _ d) ?_
    simp only [if_neg hsingle]
    exact hcall

theorem agrees_build (hwell : g.WellFormed) (horder : g.IsEvaluationOrder order) :
    Agrees (buildDown g order) (build g order) {} [] (specialised g order) := by
  rw [build_eq]
  refine (Agrees.of _ _ _).bind fun last _ hlast => ?_
  obtain ⟨_, rfl⟩ := hlast.of_ofOption
  refine (Agrees.of _ _ _).bind fun _ d₁ hdeclare => ?_
  have hd₁ : Declared g order d₁ :=
    Action.Returns.of_each (fun _ _ _ _ _ _ hx hstep => hx.step hstep) Declared.start hdeclare
  refine (Agrees.of _ _ _).bind fun _ _ hstate => ?_
  obtain ⟨rfl, rfl⟩ := hstate.of_state
  refine (Agrees.of _ _ _).bind fun _ _ hload => ?_
  obtain rfl := load_cases hload
  refine (Agrees.each (P := AllCalled g order) (K := specialised g)
    (fun done id rest hsplit d hd => ⟨hd.toAssembled.agrees_emitNode hwell horder hsplit,
      fun d' => hd.step hsplit⟩) hd₁.allCalled).bind fun _ d₂ _ => ?_
  exact .of _ d₂ _

/-- **Generation on demand ends.** With enough room it has the outcome of generation. -/
theorem exists_depth (hwell : g.WellFormed) :
    ∃ bound, ∀ depth, bound ≤ depth →
      generateDown g depth = (generate.run g).result.mapError some := by
  rw [result_generate, hwell.ordering_eq]
  rcases hwell.schedule with ⟨_, order, hschedule, horder⟩ | ⟨_, nodes, hcycle⟩
  · simp only [generateDown, hschedule]
    cases agrees_build hwell horder with
    | stops bound hbuild hdown =>
      refine ⟨bound, fun depth hdepth => ?_⟩
      rw [hbuild, hdown depth hdepth]
      rfl
    | returns bound hbuild hdown =>
      refine ⟨bound, fun depth hdepth => ?_⟩
      rw [hbuild.1, (hdown depth hdepth).1]
      rfl
  · refine ⟨0, fun depth _ => ?_⟩
    rw [generateDown, hcycle]
    rfl

end Program
end Texel
