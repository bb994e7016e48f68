import Texel.Builtin
import Texel.Proofs.Graph.Marks

/-!
# Texel — making and removing connections

Making a connection sets the marks of two whole nodes anew, from the list of all connections, and so
does removing it. In a graph with a history the marks are right already, so all of this comes down
to one mark at each end, and to nothing at all when a connection goes that has just been made.

* **`Refuses`** — the reasons to refuse a connection, each with what has been checked before it.
* **`marked_eq_self`** — setting marks anew that are right changes nothing.
* **`plugged`** — a graph with one more connection, and nothing else that is new but two marks.
* **`connect_refuses_or_plugs`** — a connection is refused without a trace or plugged in, and
  removing it again gives the graph from before.
-/

namespace Texel

/-! ## Single marks -/

/-- The socket with its mark set. -/
def Socket.attached (s : Socket) : Socket := { s with connected := true }

theorem mapIdx_eq_self {sockets : List Socket} {mark : Nat → Bool}
    (h : ∀ k < sockets.length, mark k = isMarked sockets k) :
    (sockets.mapIdx fun k s => { s with connected := mark k }) = sockets := by
  apply List.ext_getElem?
  intro k
  rw [List.getElem?_mapIdx]
  cases hs : sockets[k]? with
  | none => rfl
  | some s =>
    rw [Option.map_some, h k (List.getElem?_eq_some_iff.mp hs).1, isMarked_of_getElem? hs]

/-- One more mark than there are. -/
theorem mapIdx_eq_modify {sockets : List Socket} {mark : Nat → Bool} {index : Nat}
    (hindex : mark index = true) (h : ∀ k, k ≠ index → mark k = isMarked sockets k) :
    (sockets.mapIdx fun k s => { s with connected := mark k }) =
      sockets.modify index Socket.attached := by
  apply List.ext_getElem?
  intro k
  rw [List.getElem?_mapIdx, List.getElem?_modify]
  cases hs : sockets[k]? with
  | none => rfl
  | some s =>
    by_cases hk : index = k
    · subst hk
      simp [hindex, Socket.attached]
    · simp [hk, h k (Ne.symm hk), isMarked_of_getElem? hs]

/-- Marks that are set anew do not depend on what was there. -/
theorem mapIdx_modify_attached {sockets : List Socket} (mark : Nat → Bool) (index : Nat) :
    ((sockets.modify index Socket.attached).mapIdx fun k s => { s with connected := mark k }) =
      sockets.mapIdx fun k s => { s with connected := mark k } := by
  apply List.ext_getElem?
  intro k
  rw [List.getElem?_mapIdx, List.getElem?_mapIdx, List.getElem?_modify]
  cases sockets[k]? with
  | none => rfl
  | some s =>
    by_cases hk : index = k
    · simp [hk, Socket.attached]
    · simp [hk]

namespace Graph

variable {β : Type}

/-! ## Refusals -/

def HasOutput (g : Graph β) (id index : Nat) : Prop :=
  ∃ n, g.nodes[id]? = some n ∧ index < n.outputs.length

def HasInput (g : Graph β) (id index : Nat) : Prop :=
  ∃ n, g.nodes[id]? = some n ∧ index < n.inputs.length

/-- Why a connection is refused. Each reason comes with the checks that have passed before it. -/
inductive Refuses (g : Graph β) (c : Connection) : (e : GraphError) → Prop
  | noSource (h : g.size ≤ c.source) : Refuses g c (.unknownNode c.source)
  | noOutput (hsource : c.source < g.size) (h : ¬ g.HasOutput c.source c.output) :
    Refuses g c (.socketOutOfRange c.source .output c.output)
  | noDestination (houtput : g.HasOutput c.source c.output) (h : g.size ≤ c.destination) :
    Refuses g c (.unknownNode c.destination)
  | noInput (houtput : g.HasOutput c.source c.output) (hdestination : c.destination < g.size)
    (h : ¬ g.HasInput c.destination c.input) :
    Refuses g c (.socketOutOfRange c.destination .input c.input)
  | taken (houtput : g.HasOutput c.source c.output) (hinput : g.HasInput c.destination c.input)
    {d : Connection} (hd : d ∈ g.connections)
    (h : d.destination = c.destination ∧ d.input = c.input) :
    Refuses g c (.inputTaken c.destination c.input)

theorem isNone_node? {g : Graph β} {id : Nat} : (g.node? id).isNone = true ↔ g.size ≤ id := by
  rw [Option.isNone_iff_eq_none, node?, List.getElem?_eq_none_iff]
  rfl

theorem isNone_output? {g : Graph β} {id index : Nat} :
    (g.output? id index).isNone = true ↔ ¬ g.HasOutput id index := by
  rw [output?, HasOutput, node?]
  cases g.nodes[id]? with
  | none => simp
  | some n => simp

theorem isNone_input? {g : Graph β} {id index : Nat} :
    (g.input? id index).isNone = true ↔ ¬ g.HasInput id index := by
  rw [input?, HasInput, node?]
  cases g.nodes[id]? with
  | none => simp
  | some n => simp

theorem isSome_feeding? {g : Graph β} {id index : Nat} :
    (g.feeding? id index).isSome = true ↔
      ∃ d ∈ g.connections, d.destination = id ∧ d.input = index := by
  simp [feeding?]

theorem HasOutput.present {g : Graph β} {id index : Nat} (h : g.HasOutput id index) :
    ¬ (g.node? id).isNone = true ∧ ¬ (g.output? id index).isNone = true := by
  refine ⟨?_, mt isNone_output?.mp (not_not.mpr h)⟩
  obtain ⟨n, hn, _⟩ := h
  simp [node?, hn]

theorem HasInput.present {g : Graph β} {id index : Nat} (h : g.HasInput id index) :
    ¬ (g.node? id).isNone = true ∧ ¬ (g.input? id index).isNone = true := by
  refine ⟨?_, mt isNone_input?.mp (not_not.mpr h)⟩
  obtain ⟨n, hn, _⟩ := h
  simp [node?, hn]

theorem refusal?_eq_some_iff {g : Graph β} {c : Connection} {e : GraphError} :
    g.refusal? c = some e ↔ Refuses g c e := by
  unfold refusal?
  constructor
  · intro h
    -- a check that has passed is put into words before the next one is looked at
    split_ifs at h with hsource houtput hdestination hinput htaken
    · cases h
      exact .noSource (isNone_node?.mp hsource)
    all_goals rw [isNone_node?, not_le] at hsource
    · cases h
      exact .noOutput hsource (isNone_output?.mp houtput)
    all_goals rw [isNone_output?, not_not] at houtput
    · cases h
      exact .noDestination houtput (isNone_node?.mp hdestination)
    all_goals rw [isNone_node?, not_le] at hdestination
    · cases h
      exact .noInput houtput hdestination (isNone_input?.mp hinput)
    · cases h
      rw [isNone_input?, not_not] at hinput
      obtain ⟨d, hd, hsame⟩ := isSome_feeding?.mp htaken
      exact .taken houtput hinput hd hsame
  · intro h
    cases h with
    | noSource h => rw [if_pos (isNone_node?.mpr h)]
    | noOutput hsource h =>
      rw [if_neg (mt isNone_node?.mp (not_le.mpr hsource)), if_pos (isNone_output?.mpr h)]
    | noDestination houtput h =>
      rw [if_neg houtput.present.1, if_neg houtput.present.2, if_pos (isNone_node?.mpr h)]
    | noInput houtput hdestination h =>
      rw [if_neg houtput.present.1, if_neg houtput.present.2,
        if_neg (mt isNone_node?.mp (not_le.mpr hdestination)), if_pos (isNone_input?.mpr h)]
    | taken houtput hinput hd h =>
      rw [if_neg houtput.present.1, if_neg houtput.present.2, if_neg hinput.present.1,
        if_neg hinput.present.2, if_pos (isSome_feeding?.mpr ⟨_, hd, h⟩)]

theorem refusal?_eq_none_iff {g : Graph β} {c : Connection} :
    g.refusal? c = none ↔ g.HasOutput c.source c.output ∧ g.HasInput c.destination c.input ∧
      ∀ d ∈ g.connections, ¬ (d.destination = c.destination ∧ d.input = c.input) := by
  constructor
  · intro h
    obtain ⟨houtput, hinput, hfree⟩ := accepts_of_refusal? h
    exact ⟨houtput, hinput, fun d hd => by simpa using List.find?_eq_none.mp hfree d hd⟩
  · rintro ⟨houtput, hinput, hfree⟩
    have hnone : ¬ (g.feeding? c.destination c.input).isSome = true := by
      rw [isSome_feeding?]
      rintro ⟨d, hd, hsame⟩
      exact hfree d hd hsame
    unfold refusal?
    rw [if_neg houtput.present.1, if_neg houtput.present.2, if_neg hinput.present.1,
      if_neg hinput.present.2, if_neg hnone]

/-! ## Marks that are set anew -/

theorem NodeMarked.mark_input {connections : List Connection} {i : Nat} {n : Node β}
    (h : NodeMarked connections i n) (k : Nat) :
    (connections.any fun c => c.destination = i ∧ c.input = k) = isMarked n.inputs k := by
  rw [Bool.eq_iff_iff, h.inputs k]
  simp

theorem NodeMarked.mark_output {connections : List Connection} {i : Nat} {n : Node β}
    (h : NodeMarked connections i n) (k : Nat) :
    (connections.any fun c => c.source = i ∧ c.output = k) = isMarked n.outputs k := by
  rw [Bool.eq_iff_iff, h.outputs k]
  simp

theorem marked_eq_self {connections : List Connection} {n : Node β}
    (h : NodeMarked connections n.id n) : marked connections n = n := by
  have hinputs := mapIdx_eq_self fun k (_ : k < n.inputs.length) => h.mark_input k
  have houtputs := mapIdx_eq_self fun k (_ : k < n.outputs.length) => h.mark_output k
  rw [marked, hinputs, houtputs]

/-- A node at one end of a connection, or at both, with the marks there. -/
def plug (c : Connection) (i : Nat) (n : Node β) : Node β :=
  { n with
    inputs := if i = c.destination then n.inputs.modify c.input Socket.attached else n.inputs
    outputs := if i = c.source then n.outputs.modify c.output Socket.attached else n.outputs }

theorem marked_concat {connections : List Connection} {c : Connection} {n : Node β}
    (h : NodeMarked connections n.id n) : marked (connections ++ [c]) n = plug c n.id n := by
  have hinputs : (n.inputs.mapIdx fun k s => { s with
      connected := (connections ++ [c]).any fun d => d.destination = n.id ∧ d.input = k }) =
      if n.id = c.destination then n.inputs.modify c.input Socket.attached else n.inputs := by
    -- where the connection enters, one input is marked in addition
    split_ifs with hend
    · refine mapIdx_eq_modify (by simp [hend]) fun k hk => ?_
      simp [← h.mark_input k, hk.symm]
    · refine mapIdx_eq_self fun k _ => ?_
      simp [← h.mark_input k, Ne.symm hend]
  have houtputs : (n.outputs.mapIdx fun k s => { s with
      connected := (connections ++ [c]).any fun d => d.source = n.id ∧ d.output = k }) =
      if n.id = c.source then n.outputs.modify c.output Socket.attached else n.outputs := by
    -- and where it leaves, one output, which may have had its mark
    split_ifs with hend
    · refine mapIdx_eq_modify (by simp [hend]) fun k hk => ?_
      simp [← h.mark_output k, hk.symm]
    · refine mapIdx_eq_self fun k _ => ?_
      simp [← h.mark_output k, Ne.symm hend]
  rw [marked, hinputs, houtputs, plug]

theorem marked_plug (connections : List Connection) (c : Connection) (i : Nat) (n : Node β) :
    marked connections (plug c i n) = marked connections n := by
  unfold marked plug
  split_ifs <;> simp only [mapIdx_modify_attached]

theorem plug_of_ne {c : Connection} {i : Nat} (h : ¬ (c.source = i ∨ c.destination = i))
    (n : Node β) :
    plug c i n = n := by
  rw [not_or] at h
  rw [plug, if_neg (Ne.symm h.2), if_neg (Ne.symm h.1)]

/-! ## Graphs with one more connection -/

/-- The graph with a connection more: the connection comes last, the sockets at its ends are marked,
and no order is kept. -/
def plugged (g : Graph β) (c : Connection) : Graph β where
  nodes := g.nodes.mapIdx (plug c)
  connections := g.connections ++ [c]

theorem getElem?_withConnections (g : Graph β) (cs : List Connection) (c : Connection) (i : Nat) :
    (g.withConnections cs c).nodes[i]? =
      g.nodes[i]?.map fun n => if c.source = i ∨ c.destination = i then marked cs n else n := by
  show ((g.nodes.modify c.source (marked cs)).modify c.destination (marked cs))[i]? = _
  rw [List.getElem?_modify, List.getElem?_modify, Option.map_eq_map, Option.map_eq_map,
    Option.map_map]
  congr 1
  funext n
  by_cases hs : c.source = i <;> by_cases hd : c.destination = i
  · simp [hs, hd, marked_marked]
  · simp [hs, hd]
  · simp [hs, hd]
  · simp [hs, hd]

theorem Marked.withConnections_concat {g : Graph β} (h : g.Marked) (hwell : g.WellFormed)
    (c : Connection) : g.withConnections (g.connections ++ [c]) c = g.plugged c := by
  have hnodes : (g.withConnections (g.connections ++ [c]) c).nodes = g.nodes.mapIdx (plug c) := by
    apply List.ext_getElem?
    intro i
    rw [getElem?_withConnections, List.getElem?_mapIdx]
    cases hn : g.nodes[i]? with
    | none => rfl
    | some n =>
      obtain rfl := hwell.ids i n hn
      rw [Option.map_some, Option.map_some]
      split_ifs with hend
      · rw [marked_concat (h n.id n hn)]
      · rw [plug_of_ne hend]
  show Graph.mk _ _ _ = _
  rw [plugged, ← hnodes]
  rfl

/-- Taking the connection out again leaves all marks as they were. -/
theorem Marked.withConnections_plugged {g : Graph β} (h : g.Marked) (hwell : g.WellFormed)
    (c : Connection) :
    (g.plugged c).withConnections g.connections c = { g with order := none } := by
  have hnodes : ((g.plugged c).withConnections g.connections c).nodes = g.nodes := by
    apply List.ext_getElem?
    intro i
    rw [getElem?_withConnections, plugged, List.getElem?_mapIdx]
    cases hn : g.nodes[i]? with
    | none => rfl
    | some n =>
      obtain rfl := hwell.ids i n hn
      rw [Option.map_some, Option.map_some]
      -- the marks are told from the connections again, whatever they were in between
      split_ifs with hend
      · rw [marked_plug, marked_eq_self (h n.id n hn)]
      · rw [plug_of_ne hend]
  show Graph.mk _ _ _ = _
  rw [← hnodes]
  rfl

/-! ## Runs -/

theorem result_connect (g : Graph β) (c : Connection) (e : GraphError) :
    ((connect c).run g).result = .error e ↔ g.refusal? c = some e := by
  cases h : g.refusal? c with
  | none =>
    simp only [connect, Action.run, bind, Action.bind, Action.state, h]
    constructor
    · intro h
      cases h
    · intro h
      cases h
  | some e' =>
    simp only [connect, Action.run, bind, Action.bind, Action.state, h]
    constructor
    · exact fun h => congrArg some (Except.error.inj h)
    · exact fun h => congrArg Except.error (Option.some.inj h)

theorem result_disconnect (g : Graph β) (c : Connection) :
    ((disconnect c).run g).result = .ok (decide (c ∈ g.connections)) := by
  by_cases h : c ∈ g.connections
  · have hc : g.connections.contains c = true := by simpa using h
    simp only [disconnect, Action.run, bind, Action.bind, Action.state, hc, if_true, h]
    rfl
  · have hc : g.connections.contains c = false := by simpa using h
    simp only [disconnect, Action.run, bind, Action.bind, Action.state, hc, h]
    rfl

/-- **Connection edits are atomic, and undone by their opposite.** After any history, a connection
is refused for the first reason there is, and then nothing has changed, a kept order included.
Otherwise it is plugged in, and removing it next gives back the graph from before, without its
order. Removing a connection that does not exist answers so and changes nothing. -/
theorem connect_refuses_or_plugs [Operable β] (operations : List (Operation β)) (c : Connection) :
    let g := ofOperations operations
    let made := (connect c).run g
    let unmade := (disconnect c).run made.state
    let absent := (disconnect c).run g
    (∀ e, made.result = .error e ↔ Refuses g c e) ∧
    (∀ e, made.result = .error e → made.state = g) ∧
    (made.result = .ok () → made.state = g.plugged c ∧
      unmade.result = .ok true ∧ unmade.state = { g with order := none }) ∧
    (c ∉ g.connections → absent.result = .ok false ∧ absent.state = g) := by
  intro g made unmade absent
  have hwell : g.WellFormed := wellFormed_ofOperations operations
  have hmarked : g.Marked := marked_ofOperations operations
  have hmade : made.state = _ := run_connect g c
  refine ⟨fun e => (result_connect g c e).trans refusal?_eq_some_iff, fun e he => ?_, fun hok => ?_,
    fun hc => ⟨?_, ?_⟩⟩
  · rw [hmade, (result_connect g c e).mp he, Option.isSome_some, if_pos rfl]
  · have haccepted : g.refusal? c = none := by
      rw [Option.eq_none_iff_forall_ne_some]
      intro e he
      cases hok.symm.trans ((result_connect g c e).mpr he)
    rw [haccepted, Option.isSome_none, if_neg Bool.false_ne_true,
      hmarked.withConnections_concat hwell] at hmade
    have hmem : c ∈ made.state.connections := by
      rw [hmade]
      exact List.mem_append_right _ List.mem_cons_self
    -- the input was free, so the connection that is found is the new one
    have hnew : c ∉ g.connections :=
      fun hc => (refusal?_eq_none_iff.mp haccepted).2.2 c hc ⟨rfl, rfl⟩
    have herase : made.state.connections.erase c = g.connections := by
      rw [hmade]
      show (g.connections ++ [c]).erase c = _
      rw [List.erase_append_right _ hnew, List.erase_cons_head, List.append_nil]
    refine ⟨hmade, ?_, ?_⟩
    · rw [show unmade.result = _ from result_disconnect _ c, decide_eq_true hmem]
    · rw [show unmade.state = _ from run_disconnect _ c, if_pos hmem, herase, hmade]
      exact hmarked.withConnections_plugged hwell c
  · rw [show absent.result = _ from result_disconnect g c, decide_eq_false hc]
  · rw [show absent.state = _ from run_disconnect g c, if_neg hc]

/-- A mixer that feeds an output and, with the same socket, its own first input; the order of what
was there before the loop has been asked for. -/
def looped : List (Operation Builtin) :=
  [.edit (.create .mix), .edit (.create .output), .edit (.connect ⟨0, 0, 1, 0⟩), .evaluationOrder]

/-- The loop is made and removed, a second connection into the output is refused, and one that was
never made is not found. The kept order is lost in the first case only. -/
theorem looped_edits :
    (ofOperations looped).order = some [0, 1] ∧
    ((connect ⟨0, 0, 0, 0⟩).run (ofOperations looped)).result = .ok () ∧
    ((disconnect ⟨0, 0, 0, 0⟩).run ((connect ⟨0, 0, 0, 0⟩).run (ofOperations looped)).state).state =
      { ofOperations looped with order := none } ∧
    ((connect ⟨1, 0, 1, 0⟩).run (ofOperations looped)).result = .error (.inputTaken 1 0) ∧
    ((connect ⟨1, 0, 1, 0⟩).run (ofOperations looped)).state = ofOperations looped ∧
    ((disconnect ⟨0, 0, 0, 0⟩).run (ofOperations looped)).state = ofOperations looped := by
  have hloop : ((connect ⟨0, 0, 0, 0⟩).run (ofOperations looped)).result = .ok () := by
    decide +kernel
  have htaken : ((connect ⟨1, 0, 1, 0⟩).run (ofOperations looped)).result =
      .error (.inputTaken 1 0) := by decide +kernel
  have habsent : (⟨0, 0, 0, 0⟩ : Connection) ∉ (ofOperations looped).connections := by
    decide +kernel
  refine ⟨by decide +kernel, hloop, ?_, htaken, ?_, ?_⟩
  · exact ((connect_refuses_or_plugs looped ⟨0, 0, 0, 0⟩).2.2.1 hloop).2.2
  · exact (connect_refuses_or_plugs looped ⟨1, 0, 1, 0⟩).2.1 _ htaken
  · exact ((connect_refuses_or_plugs looped ⟨0, 0, 0, 0⟩).2.2.2 habsent).2

end Graph
end Texel
