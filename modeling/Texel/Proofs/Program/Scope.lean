import Texel.Proofs.Program.Definitions

/-!
# Texel — variables of a scope

The body and every subtree function have variables of their own: one for each output of each node
that is called there. A call reads the outputs that connections bring to its node and writes the
first output of the node. Since the nodes of a scope come after what feeds them, no first output is
read before it is written. Other outputs are declared and nothing writes them.

* **`Effect`** — what a statement declares, reads and writes.
* **`Closed`** — a list of nodes in which everything comes after what feeds it.
* **`Scoped`** — outputs are read after they have been declared, first outputs after they have been
  written.
* **`Defined.scoped_scope`** — the scope of a closed list of nodes is scoped.
-/

namespace Texel

/-! ## Lists that correspond -/

section Lists

variable {α γ : Type}

theorem exists_of_mem_left {R : α → γ → Prop} {as : List α} {bs : List γ} (h : List.Forall₂ R as bs)
    {a : α} (ha : a ∈ as) : ∃ b ∈ bs, R a b := by
  induction h with
  | nil => cases ha
  | cons hab _ ih =>
    rcases List.mem_cons.mp ha with rfl | ha
    · exact ⟨_, List.mem_cons_self, hab⟩
    · obtain ⟨b, hb, hab⟩ := ih ha
      exact ⟨b, List.mem_cons_of_mem _ hb, hab⟩

theorem exists_of_mem_right {R : α → γ → Prop} {as : List α} {bs : List γ}
    (h : List.Forall₂ R as bs) {b : γ} (hb : b ∈ bs) : ∃ a ∈ as, R a b := by
  obtain ⟨a, ha, hab⟩ := exists_of_mem_left h.flip hb
  exact ⟨a, ha, hab⟩

end Lists

/-! ## Reading and writing -/

namespace Shader

mutual

/-- The variables that an expression mentions. -/
def Expression.names : Expression → List String
  | .missing | .literal .. => []
  | .variable name => [name]
  | .call _ es | .list es => namesOf es
  | .construct _ lengths es => namesOf lengths ++ namesOf es
  | .element e f | .binary _ e f | .assign _ e f | .both e f => e.names ++ f.names
  | .field e _ | .unary _ e | .count e => e.names
  | .method e _ es => e.names ++ namesOf es
  | .choose e f h => e.names ++ f.names ++ h.names

def namesOf : List Expression → List String
  | [] => []
  | e :: es => e.names ++ namesOf es

end

/-- The variables in arguments that are read; an argument is read unless it is for an output. -/
def namesRead : List Glsl.Qualifier → List Expression → List String
  | _, [] => []
  | [], e :: es => e.names ++ namesRead [] es
  | q :: qs, e :: es => (if q = .output then [] else e.names) ++ namesRead qs es

/-- The variables among arguments for outputs. -/
def namesWritten : List Glsl.Qualifier → List Expression → List String
  | .output :: qs, .variable name :: es => name :: namesWritten qs es
  | _ :: qs, _ :: es => namesWritten qs es
  | _, _ => []

/-- How a function takes its arguments, as its definition says. -/
def qualifiers (definitions : List Glsl.Entry) (function : String) : List Glsl.Qualifier :=
  ((definitions.find? (·.name = function)).map fun e => e.parameters.map (·.2.qualifier)).getD []

/-- What a statement does to variables. -/
structure Effect where
  declares : List String := []
  reads : List String := []
  writes : List String := []

/-- The effect of a declaration, of a call and of a return. -/
def Statement.effect? (definitions : List Glsl.Entry) : Statement → Option Effect
  | .declare (.variableList _ _ declarators) =>
    some {
      declares := declarators.map (·.name)
      reads := declarators.flatMap fun d => (d.value.map (·.names)).getD [] }
  | .evaluate (.call function es) =>
    some {
      reads := namesRead (qualifiers definitions function) es
      writes := namesWritten (qualifiers definitions function) es }
  | .leave (some e) => some { reads := e.names }
  | _ => none

theorem namesRead_append {qs : List Glsl.Qualifier} {es : List Expression}
    (hlength : qs.length = es.length) (hqs : ∀ q ∈ qs, q ≠ .output) (name : String) :
    namesRead (qs ++ [Glsl.Qualifier.output]) (es ++ [Expression.variable name]) = namesOf es := by
  induction qs generalizing es with
  | nil =>
    obtain rfl := List.eq_nil_of_length_eq_zero hlength.symm
    rfl
  | cons q qs ih =>
    cases es with
    | nil => cases hlength
    | cons e es =>
      rw [List.forall_mem_cons] at hqs
      rw [List.cons_append, List.cons_append, namesRead, if_neg hqs.1, namesOf,
        ih (Nat.succ.inj hlength) hqs.2]

theorem namesWritten_append {qs : List Glsl.Qualifier} {es : List Expression}
    (hlength : qs.length = es.length) (hqs : ∀ q ∈ qs, q ≠ .output) (name : String) :
    namesWritten (qs ++ [Glsl.Qualifier.output]) (es ++ [Expression.variable name]) = [name] := by
  induction qs generalizing es with
  | nil =>
    obtain rfl := List.eq_nil_of_length_eq_zero hlength.symm
    rfl
  | cons q qs ih =>
    cases es with
    | nil => cases hlength
    | cons e es =>
      rw [List.forall_mem_cons] at hqs
      have hskip : namesWritten (q :: (qs ++ [Glsl.Qualifier.output]))
          (e :: (es ++ [Expression.variable name])) =
          namesWritten (qs ++ [Glsl.Qualifier.output]) (es ++ [Expression.variable name]) := by
        cases q with
        | output => exact absurd rfl hqs.1
        | _ => rfl
      rw [List.cons_append, List.cons_append, hskip, ih (Nat.succ.inj hlength) hqs.2]

theorem namesRead_nil (es : List Expression) : namesRead [] es = namesOf es := by
  induction es with
  | nil => rfl
  | cons e es ih => rw [namesRead, ih, namesOf]

theorem mem_namesOf {name : String} {es : List Expression} :
    name ∈ namesOf es ↔ ∃ e ∈ es, name ∈ e.names := by
  induction es with
  | nil => simp [namesOf]
  | cons e es ih => simp [namesOf, ih]

end Shader

namespace Program

open Glsl Builtin
open Shader (Expression Statement Effect qualifiers namesOf mem_namesOf)

variable {g : Graph Builtin} {order done : List Nat} {es : List Entry} {id : Nat}
  {n : Node Builtin}

/-! ## The call of a node -/

/-- The variable of an output that a connection brings to a node. -/
def Enters (g : Graph Builtin) (id m k : Nat) : Prop :=
  ∃ c ∈ g.connections, c.destination = id ∧ c.source = m ∧ c.output = k

/-- A conversion mentions what it converts. -/
theorem mem_names_conversion {name : String} {conversion : Conversion} {e : Expression}
    (h : name ∈ (conversion.tree e).names) : name ∈ e.names := by
  cases conversion <;>
    simpa [Conversion.tree, Expression.names, namesOf, oneTree] using h

theorem outputName_mem_fetched {kind : Kind} {index m k : Nat}
    (h : outputName m k ∈ (fetched g kind id index).tree.names) : m = id ∧ k = index :=
  outputName_inj.mp (List.mem_singleton.mp (mem_names_conversion h))

theorem outputName_notMem_zero (kind : Kind) (m k : Nat) :
    outputName m k ∉ (Expr.zero kind).tree.names := by
  cases kind <;> simp [Expr.tree, Expression.names, namesOf, zeroTree]

theorem outputName_ne_coordName (m k : Nat) : outputName m k ≠ coordName := by
  intro h
  have hunderscore := underscore_mem_outputName m k
  rw [h] at hunderscore
  exact absurd hunderscore (by decide)

/-- Only what a connection brings is the output of a node. -/
theorem outputName_mem_argumentOf {binding : Binding} {kind : Kind} {m k : Nat}
    (h : outputName m k ∈ (argumentOf g n binding kind).tree.names) : Enters g n.id m k := by
  have hfetched {c : Connection} {input : String} {kind : Kind} (hc : feeder? g n input = some c)
      (h : outputName m k ∈ (fetched g kind c.source c.output).tree.names) : Enters g n.id m k := by
    obtain ⟨rfl, rfl⟩ := outputName_mem_fetched h
    exact ⟨c, (feeder?_spec hc).1, (feeder?_spec hc).2, rfl, rfl⟩
  unfold argumentOf at h
  split at h
  · next c _ hc => exact hfetched hc h
  · next p _ _ =>
    split_ifs at h
    · have hparts := mem_names_conversion h
      simp only [Expr.tree, Expression.names, namesOf, List.mem_append, List.mem_singleton,
        List.append_nil, List.not_mem_nil, outputName_ne_uniformName, outputName_ne_flagName,
        false_or, or_false] at hparts
      unfold position at hparts
      cases hc : feeder? g n coordInput with
      | none =>
        rw [hc] at hparts
        exact absurd (List.mem_singleton.mp hparts) (outputName_ne_coordName m k)
      | some c =>
        rw [hc] at hparts
        exact hfetched hc hparts
    · have hname := List.mem_singleton.mp (mem_names_conversion h)
      exact absurd hname (outputName_ne_uniformName m k n.id p.name)
  · split_ifs at h
    · have hname := List.mem_singleton.mp (mem_names_conversion h)
      exact absurd hname (outputName_ne_coordName m k)
    · exact absurd h (outputName_notMem_zero kind m k)

theorem Defined.qualifiers_eq (h : Defined g order done es) (hids : Planned g order)
    (hdone : done.Nodup) (hid : id ∈ done) (hn : g.node? id = some n) :
    qualifiers es (calleeName n) = n.behavior.signature.map (·.2.qualifier) := by
  obtain ⟨e, he, hname, hparameters⟩ := h.hasFunction hids id hid n hn
  have hfound : es.find? (·.name = calleeName n) = some e := by
    cases hfind : es.find? (·.name = calleeName n) with
    | none => exact absurd (decide_eq_true hname) (List.find?_eq_none.mp hfind e he)
    | some e' =>
      have hname' : e'.name = calleeName n := by simpa using List.find?_some hfind
      have hmem := List.mem_of_find?_eq_some hfind
      rw [List.inj_on_of_nodup_map (h.nodup_names hdone) hmem he (hname'.trans hname.symm)]
  rw [qualifiers, hfound, Option.map_some, Option.getD_some, hparameters]

/-- **The call of a node** reads its arguments and writes its output. -/
theorem Defined.effect?_call (h : Defined g order done es) (hids : Planned g order)
    (hdone : done.Nodup) (hid : id ∈ done) (hn : g.node? id = some n) :
    (Line.call (calleeName n) (argumentsOf g n)).tree.effect? es =
      some { reads := namesOf (n.behavior.inputParameters.map fun p =>
              (argumentOf g n (n.behavior.operator.binding p.1) p.2.kind).tree)
             writes := [outputName id 0] } := by
  have hqualifiers : qualifiers es (calleeName n) =
      n.behavior.inputParameters.map (·.2.qualifier) ++ [Qualifier.output] := by
    rw [h.qualifiers_eq hids hdone hid hn, n.behavior.signature_eq, List.map_append]
    rfl
  have hinputs : ∀ q ∈ n.behavior.inputParameters.map (·.2.qualifier), q ≠ .output := by
    intro q hq
    obtain ⟨p, hp, rfl⟩ := List.mem_map.mp hq
    rw [(n.behavior.inputParameters_spec p hp).1]
    decide
  have harguments : (argumentsOf g n).map Expr.tree = n.behavior.inputParameters.map (fun p =>
      (argumentOf g n (n.behavior.operator.binding p.1) p.2.kind).tree) ++
        [Expression.variable (outputName id 0)] := by
    rw [argumentsOf, List.map_append, List.map_map, hids.id_eq hn]
    rfl
  have hlength : (n.behavior.inputParameters.map (·.2.qualifier)).length =
      (n.behavior.inputParameters.map fun p =>
        (argumentOf g n (n.behavior.operator.binding p.1) p.2.kind).tree).length := by
    rw [List.length_map, List.length_map]
  rw [Line.tree, Statement.effect?, hqualifiers, harguments,
    Shader.namesWritten_append hlength hinputs, Shader.namesRead_append hlength hinputs]

theorem Defined.call_spec (h : Defined g order done es) (hids : Planned g order)
    (hdone : done.Nodup) (hid : id ∈ done) (hn : g.node? id = some n) :
    ∃ effect, (Line.call (calleeName n) (argumentsOf g n)).tree.effect? es = some effect ∧
      effect.declares = [] ∧ effect.writes = [outputName id 0] ∧
      ∀ m k, outputName m k ∈ effect.reads → Enters g id m k := by
  refine ⟨_, h.effect?_call hids hdone hid hn, rfl, rfl, fun m k hread => ?_⟩
  obtain ⟨e, he, hread⟩ := mem_namesOf.mp hread
  obtain ⟨p, _, rfl⟩ := List.mem_map.mp he
  rw [← hids.id_eq hn]
  exact outputName_mem_argumentOf hread

/-! ## Closed lists of nodes -/

/-- Every node of the list comes after what feeds it. -/
def Closed (g : Graph Builtin) (ids : List Nat) : Prop :=
  ∀ before id after, ids = before ++ id :: after →
    ∀ c ∈ g.connections, c.destination = id → c.source ∈ before

/-- A part of a closed list is closed if it holds what feeds its nodes. -/
theorem Closed.filter {ids : List Nat} (h : Closed g ids) {p : Nat → Bool}
    (hp : ∀ c ∈ g.connections, p c.destination = true → p c.source = true) :
    Closed g (ids.filter p) := by
  intro before id after hsplit c hc hdestination
  obtain ⟨left, right, rfl, hbefore, hright⟩ := List.filter_eq_append_iff.mp hsplit
  obtain ⟨skipped, rest, rfl, hskipped, hid, -⟩ := List.filter_eq_cons_iff.mp hright
  have hsource := h (left ++ skipped) id rest (by simp) c hc hdestination
  rcases List.mem_append.mp hsource with hsource | hsource
  · rw [← hbefore]
    exact List.mem_filter.mpr ⟨hsource, hp c hc (hdestination ▸ hid)⟩
  · exact absurd (hp c hc (hdestination ▸ hid)) (hskipped _ hsource)

theorem Planned.closed_order (h : Planned g order) : Closed g order := by
  intro before id after hsplit c hc hdestination
  have hforward := h.isOrder.forward c hc
  rw [hdestination, hsplit, List.idxOf_append_of_notMem (h.notMem_done hsplit.symm),
    List.idxOf_cons_self] at hforward
  by_contra hsource
  rw [List.idxOf_append_of_notMem hsource] at hforward
  omega

/-- What a multi-pass node needs is closed. -/
theorem Planned.closed_members (h : Planned g order) (id : Nat) :
    Closed g (members g order id) := by
  refine h.closed_order.filter fun c hc hdestination => ?_
  rw [decide_eq_true_eq, Graph.mem_ancestors_iff h.wellFormed] at hdestination ⊢
  have hpath : Relation.TransGen g.Feeds c.source id := .head ⟨c, hc, rfl, rfl⟩ hdestination.2
  refine ⟨?_, hpath⟩
  intro hsame
  exact h.isOrder.acyclic id (hsame ▸ hpath)

/-- What feeds a node is needed by it. -/
theorem Planned.source_mem_members (h : Planned g order) {c : Connection} (hc : c ∈ g.connections) :
    c.source ∈ members g order c.destination := by
  have hpath : Relation.TransGen g.Feeds c.source c.destination := .single ⟨c, hc, rfl, rfl⟩
  have hne : c.source ≠ c.destination := fun hsame =>
    h.isOrder.acyclic c.destination (hsame ▸ hpath)
  obtain ⟨source, _, hsource, _⟩ := h.exists_source hc
  refine List.mem_filter.mpr ⟨h.mem_order hsource, ?_⟩
  rw [decide_eq_true_eq, Graph.mem_ancestors_iff h.wellFormed]
  exact ⟨hne, hpath⟩

/-! ## Scopes -/

/-- Outputs are read after they have been declared, and first outputs after they have been written;
those in `declared` and `written` have been before. No other outputs are written. -/
def InScope : (declared written : List String) → List Effect → Prop
  | _, _, [] => True
  | declared, written, effect :: effects =>
    (∀ m k, outputName m k ∈ effect.reads →
      outputName m k ∈ declared ∧ (k = 0 → outputName m k ∈ written)) ∧
    (∀ m k, outputName m k ∈ effect.writes → k = 0) ∧
    InScope (declared ++ effect.declares) (written ++ effect.writes) effects

/-- The statements have these effects, by the parameters of the functions that they call. -/
def HaveEffects (definitions : List Entry) (ss : List Statement) (effects : List Effect) : Prop :=
  List.Forall₂ (fun s effect => s.effect? definitions = some effect) ss effects

/-- Variables are used as they should be, from the first statement on. -/
def Scoped (definitions : List Entry) (ss : List Statement) : Prop :=
  ∃ effects, HaveEffects definitions ss effects ∧ InScope [] [] effects

theorem inScope_append {declared written : List String} {as bs : List Effect} :
    InScope declared written (as ++ bs) ↔ InScope declared written as ∧
      InScope (declared ++ as.flatMap (·.declares)) (written ++ as.flatMap (·.writes)) bs := by
  induction as generalizing declared written with
  | nil => simp [InScope]
  | cons effect as ih =>
    rw [List.cons_append, InScope, InScope, ih, and_assoc, and_assoc, List.flatMap_cons,
      List.flatMap_cons, List.append_assoc, List.append_assoc]

theorem InScope.eq_zero_of_writes {declared written : List String} {effects : List Effect}
    (h : InScope declared written effects) {effect : Effect} (heffect : effect ∈ effects)
    {m k : Nat} (hwrite : outputName m k ∈ effect.writes) : k = 0 := by
  induction effects generalizing declared written with
  | nil => cases heffect
  | cons first effects ih =>
    obtain ⟨_, hfirst, hrest⟩ := h
    rcases List.mem_cons.mp heffect with rfl | heffect
    · exact hfirst m k hwrite
    · exact ih hrest heffect

/-- The outputs of a node are declared. -/
def declaredNames (g : Graph Builtin) (id : Nat) : List String :=
  ((g.node? id).map fun n => n.outputs.map fun s => outputName id s.index).getD []

/-- The effects of declarations. -/
def declaring (names : List String) : List Effect := names.map fun name => { declares := [name] }

theorem declares_declaring (names : List String) :
    (declaring names).flatMap (·.declares) = names := by
  rw [declaring, List.flatMap_map]
  exact List.flatMap_singleton' names

theorem writes_declaring (names : List String) : (declaring names).flatMap (·.writes) = [] := by
  rw [declaring, List.flatMap_map]
  exact List.flatMap_eq_nil_iff.mpr fun _ _ => rfl

theorem haveEffects_declarations (ids : List Nat) :
    HaveEffects es ((ids.flatMap (declarations g)).map Line.tree)
      (declaring (ids.flatMap (declaredNames g))) := by
  induction ids with
  | nil => exact .nil
  | cons id ids ih =>
    rw [declaring, List.flatMap_cons, List.map_append, List.flatMap_cons, List.map_append]
    refine List.rel_append ?_ ih
    unfold declarations declaredNames
    cases g.node? id with
    | none => exact .nil
    | some n =>
      simp only [Option.map_some, Option.getD_some, List.map_map]
      rw [List.forall₂_map_left_iff, List.forall₂_map_right_iff, List.forall₂_same]
      exact fun s _ => rfl

/-- Declarations can stand anywhere. -/
theorem inScope_declarations (names declared written : List String) :
    InScope declared written (declaring names) := by
  induction names generalizing declared written with
  | nil => trivial
  | cons name names ih =>
    exact ⟨fun _ _ h => absurd h List.not_mem_nil, fun _ _ h => absurd h List.not_mem_nil, ih _ _⟩

/-- All outputs of the nodes of a scope are declared there. -/
theorem Planned.declared_of_output? (h : Planned g order) {ids : List Nat} {index : Nat}
    {s : Socket} (hid : id ∈ ids) (hs : g.output? id index = some s) :
    outputName id index ∈ ids.flatMap (declaredNames g) := by
  obtain ⟨n, hn, hget⟩ := Option.bind_eq_some_iff.mp hs
  -- declarations go by the index that a socket holds, which is its place
  have hindex : s.index = index := by
    have hnumbered := congrArg (·[index]?) (h.wellFormed.outputs_numbered id n hn)
    have hlt := (List.getElem?_eq_some_iff.mp hget).1
    simpa [hget, List.getElem?_range hlt] using hnumbered
  refine List.mem_flatMap.mpr ⟨id, hid, ?_⟩
  rw [declaredNames, hn, Option.map_some, Option.getD_some, ← hindex]
  exact List.mem_map.mpr ⟨s, List.mem_of_getElem? hget, rfl⟩

/-- The calls of a closed list, when all that connections bring has been declared. -/
theorem Defined.exists_effects_calls (h : Defined g order order es) (hplanned : Planned g order)
    {ids : List Nat} (hclosed : Closed g ids) (hids : ∀ id ∈ ids, id ∈ order)
    {declared : List String}
    (hdeclared : ∀ c ∈ g.connections, c.source ∈ ids → outputName c.source c.output ∈ declared) :
    ∀ (rest done : List Nat), done ++ rest = ids → ∀ written,
      (∀ m ∈ done, outputName m 0 ∈ written) →
      ∃ effects, HaveEffects es ((rest.flatMap (calls g)).map Line.tree) effects ∧
        InScope declared written effects ∧ effects.flatMap (·.declares) = [] ∧
        effects.flatMap (·.writes) = rest.map (outputName · 0) := by
  intro rest
  induction rest with
  | nil => exact fun _ _ _ _ => ⟨[], .nil, trivial, rfl, rfl⟩
  | cons id rest ih =>
    intro done hsplit written hwritten
    have hid : id ∈ ids := by
      rw [← hsplit]
      simp
    obtain ⟨n, hn⟩ := hplanned.exists_node (hids id hid)
    obtain ⟨effect, heffect, hnone, hwrites, hreads⟩ :=
      h.call_spec hplanned hplanned.isOrder.nodup (hids id hid) hn
    have hmore : ∀ m ∈ done ++ [id], outputName m 0 ∈ written ++ effect.writes := by
      rw [hwrites, List.forall_mem_append, List.forall_mem_singleton]
      exact ⟨fun m hm => List.mem_append_left _ (hwritten m hm), by simp⟩
    obtain ⟨effects, heffects, hscope, hdeclares, hwritesRest⟩ :=
      ih (done ++ [id]) (by rw [← hsplit]; simp) (written ++ effect.writes) hmore
    refine ⟨effect :: effects, ?_, ⟨fun m k hread => ?_, fun m k hwrite => ?_, ?_⟩, ?_, ?_⟩
    · rw [List.flatMap_cons, calls_eq hn]
      exact .cons heffect heffects
    · obtain ⟨c, hc, hdestination, rfl, rfl⟩ := hreads m k hread
      have hsource := hclosed done id rest hsplit.symm c hc hdestination
      refine ⟨hdeclared c hc (by rw [← hsplit]; exact List.mem_append_left _ hsource), ?_⟩
      intro hfirst
      rw [hfirst]
      exact hwritten _ hsource
    · rw [hwrites] at hwrite
      exact (outputName_inj.mp (List.mem_singleton.mp hwrite)).2
    · rw [hnone, List.append_nil]
      exact hscope
    · rw [List.flatMap_cons, hnone, hdeclares]
      rfl
    · rw [List.flatMap_cons, hwrites, hwritesRest]
      rfl

/-- **Scopes of closed lists.** -/
theorem Defined.scoped_scope (h : Defined g order order es) (hplanned : Planned g order)
    {ids : List Nat} (hclosed : Closed g ids) (hids : ∀ id ∈ ids, id ∈ order) {last : Line}
    {effect : Effect} (heffect : last.tree.effect? es = some effect)
    (hreads : ∀ m k, outputName m k ∈ effect.reads → m ∈ ids ∧ ∃ s, g.output? m k = some s)
    (hwrites : effect.writes = []) : Scoped es ((scope g ids last).map Line.tree) := by
  have hdeclared : ∀ c ∈ g.connections, c.source ∈ ids →
      outputName c.source c.output ∈ [] ++ ids.flatMap (declaredNames g) := by
    intro c hc hsource
    obtain ⟨_, s, _, _, hs⟩ := hplanned.exists_source hc
    exact hplanned.declared_of_output? hsource hs
  obtain ⟨effects, hcalls, hscope, hdeclares, hwritten⟩ :=
    h.exists_effects_calls hplanned hclosed hids
    hdeclared ids [] rfl [] fun m hm => absurd hm List.not_mem_nil
  refine ⟨declaring (ids.flatMap (declaredNames g)) ++ effects ++ [effect], ?_,
    inScope_append.mpr ⟨inScope_append.mpr ⟨inScope_declarations _ [] [], ?_⟩, ?_⟩⟩
  · rw [scope, List.map_append, List.map_append]
    exact List.rel_append (List.rel_append (haveEffects_declarations ids) hcalls)
      (.cons heffect .nil)
  · rw [declares_declaring, writes_declaring]
    exact hscope
  · rw [List.flatMap_append, List.flatMap_append, declares_declaring, writes_declaring, hdeclares,
      hwritten]
    refine ⟨fun m k hread => ?_, fun m k hwrite => ?_, trivial⟩
    · obtain ⟨hm, s, hs⟩ := hreads m k hread
      refine ⟨by simpa using hplanned.declared_of_output? hm hs, ?_⟩
      rintro rfl
      exact List.mem_append_right _ (List.mem_append_right _ (List.mem_map.mpr ⟨m, hm, rfl⟩))
    · rw [hwrites] at hwrite
      cases hwrite

end Program
end Texel
