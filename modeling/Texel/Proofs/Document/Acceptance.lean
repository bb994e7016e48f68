import Texel.Proofs.Document.Rebuild
import Texel.Proofs.Graph.Wiring

/-!
# Texel — which documents can be built

A document is built by making its nodes one after another, setting what their records say, and then
making its connections one after another. Every step looks at the part of the graph that is there
already and may refuse. What all steps together accept can be said of the document alone: its parts
have to fit together, in whatever order they are looked at.

* **`Coherent`** — the parts of a document fit together.
* **`graph`** — the graph of a document, written down at once instead of step by step.
* **`addRecord_eq_ok_iff`**, **`addConnection_eq_ok_iff`** — one step: when it is accepted, and what
  it adds.
* **`build_eq_ok_iff`** — all steps: the coherent documents are accepted, and `graph` comes out.
* **`ofGraph_graph`** — what is saved of a sound graph is built and saved again without a change.
* **`build_accepts_coherent`** — the three together.
-/

namespace Texel

/-- A sequence succeeds exactly if both of its steps do. -/
theorem bind_eq_ok_iff {ε α γ : Type} {x : Except ε α} {f : α → Except ε γ} {c : γ} :
    (x >>= f) = .ok c ↔ ∃ a, x = .ok a ∧ f a = .ok c := by
  cases x with
  | error e =>
    constructor
    · intro h
      cases h
    · rintro ⟨a, h, _⟩
      cases h
  | ok a =>
    constructor
    · exact fun h => ⟨a, rfl, h⟩
    · rintro ⟨b, h, hb⟩
      cases h
      exact hb

/-- What every step keeps is kept by all of them. -/
theorem foldlM_keeps {ε σ α : Type} {f : σ → α → Except ε σ} {P : σ → Prop}
    (hf : ∀ s a s', P s → f s a = .ok s' → P s') {xs : List α} {s s' : σ} (hs : P s)
    (h : xs.foldlM f s = .ok s') : P s' := by
  induction xs generalizing s with
  | nil =>
    cases h
    exact hs
  | cons x xs ih =>
    rw [List.foldlM_cons, bind_eq_ok_iff] at h
    obtain ⟨next, hnext, hrest⟩ := h
    exact ih (hf s x next hs hnext) hrest

section Keys

variable {κ α : Type} [DecidableEq κ] {entries : List (κ × α)} {key : κ}

theorem find?_key_eq_none_iff :
    (entries.find? (·.1 = key)).map (·.2) = none ↔ key ∉ entries.map Prod.fst := by
  rw [Option.map_eq_none_iff, List.find?_eq_none, List.mem_map]
  simp only [decide_eq_true_eq, not_exists, not_and]

/-- Where every key is listed once, it leads to what it is listed with. -/
theorem find?_key_eq_some_iff (hnodup : (entries.map Prod.fst).Nodup) {a : α} :
    (entries.find? (·.1 = key)).map (·.2) = some a ↔ (key, a) ∈ entries := by
  constructor
  · intro h
    obtain ⟨e, hfind, rfl⟩ := Option.map_eq_some_iff.mp h
    have hkey : e.1 = key := by simpa using List.find?_some hfind
    exact hkey ▸ List.mem_of_find?_eq_some hfind
  · intro h
    obtain ⟨b, hb⟩ := Option.ne_none_iff_exists'.mp
      (mt find?_key_eq_none_iff.mp (not_not.mpr (List.mem_map_of_mem (f := Prod.fst) h)))
    obtain ⟨e, hfind, rfl⟩ := Option.map_eq_some_iff.mp hb
    have hkey : e.1 = key := by simpa using List.find?_some hfind
    rw [hb, List.inj_on_of_nodup_map hnodup (List.mem_of_find?_eq_some hfind) h hkey]

end Keys

/-! ## Records -/

theorem Builtin.mem_names (b : Builtin) (name : String) :
    name ∈ b.operator.ports.params.map (·.name) ↔ name ∈ b.operator.params.map Prod.fst := by
  have hperm : (b.operator.ports.params.map (·.name)).Perm (b.operator.params.map Prod.fst) := by
    cases b <;> decide
  exact hperm.mem_iff

theorem Builtin.length_inputs (b : Builtin) :
    b.operator.ports.inputs.length = b.operator.inputs.length := by
  cases b <;> rfl

theorem Builtin.length_outputs (b : Builtin) :
    b.operator.ports.outputs.length = b.operator.outputs.length := by
  cases b <;> rfl

theorem Builtin.image_params (b : Builtin) : ∀ q ∈ b.operator.ports.params, q.image = none := by
  cases b <;> decide

namespace NodeRecord

/-- The record sets parameters that its operator declares, and no others. -/
structure Known (r : NodeRecord) : Prop where
  params : ∀ e ∈ r.params, e.1 ∈ r.builtin.operator.params.map Prod.fst
  images : ∀ e ∈ r.images, e.1 ∈ r.builtin.operator.params.map Prod.fst

/-- The node that a record stands for, before anything is connected to it. -/
def node (r : NodeRecord) (id : Nat) : Node Builtin :=
  { r.builtin.operator.ports with
    id
    behavior := r.builtin
    position := r.position
    params := r.builtin.operator.ports.params.map r.settle
    changed := !r.params.isEmpty || !r.images.isEmpty }

theorem settle_outline (r : NodeRecord) (q : Param) :
    ((r.settle q).name, (r.settle q).kind) = (q.name, q.kind) :=
  (Param.view_applyEntries (f := setPath) (fun p => (p.name, p.kind)) (fun _ _ => rfl) _ _).trans
    (Param.view_applyEntries (f := setValue) (fun p => (p.name, p.kind)) (fun _ _ => rfl) _ q)

theorem restore_eq_ok_iff {r : NodeRecord} {m m' : Node Builtin} :
    r.restore m = .ok m' ↔
      (∀ e ∈ r.params, e.1 ∈ m.params.map (·.name)) ∧
      (∀ e ∈ r.images, e.1 ∈ m.params.map (·.name)) ∧
      m' = { m with
        position := r.position
        params := m.params.map r.settle
        changed := m.changed || !r.params.isEmpty || !r.images.isEmpty } := by
  let placed : Node Builtin := { m with position := r.position }
  have hrun : r.restore m =
      (r.params.foldlM (fun n e => n.editParam e.1 (setValue e.2)) placed >>= fun valued =>
        r.images.foldlM (fun n e => n.editParam e.1 (setPath e.2)) valued) := rfl
  have hnames : (m.params.map (Param.applyEntries setValue r.params)).map (·.name) =
      m.params.map (·.name) := by
    rw [List.map_map]
    exact List.map_congr_left fun q _ =>
      Param.view_applyEntries (f := setValue) (·.name) (fun _ _ => rfl) _ q
  rw [hrun, bind_eq_ok_iff]
  simp only [Node.foldlM_editParam_eq_ok_iff (f := setValue) fun _ _ => rfl,
    Node.foldlM_editParam_eq_ok_iff (f := setPath) fun _ _ => rfl]
  constructor
  · rintro ⟨valued, ⟨hparams, rfl⟩, himages, rfl⟩
    refine ⟨hparams, fun e he => hnames ▸ himages e he, ?_⟩
    simp only [placed, List.map_map]
    rfl
  · rintro ⟨hparams, himages, rfl⟩
    refine ⟨_, ⟨hparams, rfl⟩, fun e he => ?_, ?_⟩
    · exact hnames.symm ▸ himages e he
    · simp only [placed, List.map_map]
      rfl

/-- What a record makes of a new node of its operator. -/
theorem restore_fresh {r : NodeRecord} {id : Nat} {m : Node Builtin} :
    r.restore { r.builtin.operator.ports with id, behavior := r.builtin } = .ok m ↔
      r.Known ∧ m = r.node id := by
  rw [restore_eq_ok_iff]
  simp only [r.builtin.mem_names]
  constructor
  · rintro ⟨hparams, himages, rfl⟩
    exact ⟨⟨hparams, himages⟩, rfl⟩
  · rintro ⟨h, rfl⟩
    exact ⟨h.params, h.images, rfl⟩

theorem restore_keeps {r : NodeRecord} {m m' : Node Builtin} (h : r.restore m = .ok m') :
    m'.id = m.id ∧ m'.behavior = m.behavior ∧ m'.toPorts.outline = m.toPorts.outline := by
  obtain ⟨_, _, rfl⟩ := restore_eq_ok_iff.mp h
  refine ⟨rfl, rfl, ?_⟩
  have hparams : (m.params.map r.settle).map (fun q => (q.name, q.kind)) =
      m.params.map fun q => (q.name, q.kind) := by
    rw [List.map_map]
    exact List.map_congr_left fun q _ => r.settle_outline q
  rw [Ports.outline, hparams]
  rfl

end NodeRecord

namespace Document

/-! ## Documents -/

/-- The parts of a document fit together. -/
structure Coherent (d : Document) : Prop where
  ids : (d.nodes.map (·.id)).Nodup
  known : ∀ r ∈ d.nodes, r.Known
  /-- Every connection leaves an output of a record. -/
  leaves : ∀ c ∈ d.connections, ∃ r ∈ d.nodes,
    r.id = c.source ∧ c.output < r.builtin.operator.outputs.length
  /-- Every connection enters an input of a record. -/
  enters : ∀ c ∈ d.connections, ∃ r ∈ d.nodes,
    r.id = c.destination ∧ c.input < r.builtin.operator.inputs.length
  /-- No two connections enter the same input. -/
  single : d.connections.Pairwise fun c e => ¬ (c.destination = e.destination ∧ c.input = e.input)

/-- Ids of records lead to the places of the records. -/
def places (records : List NodeRecord) : Ids := records.mapIdx fun i r => (r.id, i)

/-- The connection between nodes that a connection between records stands for. -/
def Ids.rename (ids : Ids) (c : Connection) : Connection :=
  { c with
    source := (ids.get? c.source).getD c.source
    destination := (ids.get? c.destination).getD c.destination }

/-- The nodes of some records, with no connections yet. -/
def unwired (records : List NodeRecord) : Graph Builtin where
  nodes := records.mapIdx fun i r => r.node i

/-- A graph without connections that has been given some. -/
def wired (g : Graph Builtin) (connections : List Connection) : Graph Builtin where
  nodes := g.nodes.map (Graph.marked connections)
  connections

/-- The graph of a document. -/
def graph (d : Document) : Graph Builtin :=
  (wired (unwired d.nodes) (d.connections.map (places d.nodes).rename)).clearChanges

/-! ## Ids -/

theorem keys_places (records : List NodeRecord) :
    (places records).map Prod.fst = records.map (·.id) := by
  apply List.ext_getElem?
  intro i
  rw [places, List.getElem?_map, List.getElem?_mapIdx, List.getElem?_map, Option.map_map]
  rfl

theorem get?_places_eq_none_iff {records : List NodeRecord} {id : Nat} :
    (places records).get? id = none ↔ id ∉ records.map (·.id) := by
  rw [Ids.get?, find?_key_eq_none_iff, keys_places]

theorem get?_places_eq_some_iff {records : List NodeRecord} (hnodup : (records.map (·.id)).Nodup)
    {id i : Nat} :
    (places records).get? id = some i ↔ ∃ r, records[i]? = some r ∧ r.id = id := by
  rw [Ids.get?, find?_key_eq_some_iff (keys_places records ▸ hnodup), places, List.mem_mapIdx]
  constructor
  · rintro ⟨j, hj, hpair⟩
    obtain ⟨hid, rfl⟩ := Prod.mk.inj hpair
    exact ⟨records[j], List.getElem?_eq_getElem hj, hid⟩
  · rintro ⟨r, hr, rfl⟩
    obtain ⟨hi, rfl⟩ := List.getElem?_eq_some_iff.mp hr
    exact ⟨i, hi, rfl⟩

/-! ## One record after another -/

theorem addRecord_eq_ok_iff {g : Graph Builtin} {ids : Ids} {r : NodeRecord}
    {built : Graph Builtin × Ids} :
    addRecord (g, ids) r = .ok built ↔
      ids.get? r.id = none ∧ r.Known ∧
      built = ({ g with nodes := g.nodes ++ [r.node g.size], order := none },
        ids ++ [(r.id, g.size)]) := by
  let fresh : Node Builtin := { r.builtin.operator.ports with id := g.size, behavior := r.builtin }
  have hfresh : (g.create r.builtin).node? g.size = some fresh := List.getElem?_concat_length ..
  -- what is made of the new node replaces it at the end of the list
  have hnodes : ∀ m : Node Builtin, (g.create r.builtin).mapNode g.size (fun _ => m) =
      { g with nodes := g.nodes ++ [m], order := none } := by
    intro m
    have hmodify : (g.nodes ++ [fresh]).modify g.nodes.length (fun _ => m) = g.nodes ++ [m] := by
      rw [← List.set_eq_modify, List.set_append_right _ _ le_rfl, Nat.sub_self]
      rfl
    show Graph.mk _ _ _ = _
    exact congrArg (fun nodes => Graph.mk nodes g.connections none) hmodify
  cases hid : ids.get? r.id with
  | some i =>
    constructor
    · intro h
      simp only [addRecord, hid] at h
      cases h
    · exact fun h => absurd h.1 (Option.some_ne_none i)
  | none =>
    simp only [addRecord, hid]
    cases hrestore : r.restore fresh with
    | error e =>
      -- the record names what its operator does not have
      have hrun : ((Graph.edit g.size r.restore).run (g.create r.builtin)).result = .error e := by
        simp only [Graph.edit, Action.run, bind, Action.bind, Action.state, hfresh, Action.ofOption,
          Action.ofExcept, hrestore]
      constructor
      · intro h
        simp only [hrun] at h
        cases h
      · intro h
        cases hrestore.symm.trans (NodeRecord.restore_fresh.mpr ⟨h.2.1, rfl⟩)
    | ok m =>
      obtain ⟨hknown, rfl⟩ := NodeRecord.restore_fresh.mp hrestore
      have hrun := Graph.edit_returns hfresh hrestore
      simp only [hrun.1, hrun.2, hnodes]
      constructor
      · intro h
        cases h
        exact ⟨trivial, hknown, rfl⟩
      · rintro ⟨_, _, rfl⟩
        rfl

theorem foldlM_addRecord_eq_ok_iff (done : List NodeRecord) {rest : List NodeRecord}
    (hdone : (done.map (·.id)).Nodup) {built : Graph Builtin × Ids} :
    rest.foldlM addRecord (unwired done, places done) = .ok built ↔
      ((done ++ rest).map (·.id)).Nodup ∧ (∀ r ∈ rest, r.Known) ∧
      built = (unwired (done ++ rest), places (done ++ rest)) := by
  induction rest generalizing done with
  | nil =>
    rw [List.append_nil]
    constructor
    · exact fun h => ⟨hdone, fun r hr => absurd hr List.not_mem_nil, (Except.ok.inj h).symm⟩
    · exact fun h => congrArg Except.ok h.2.2.symm
  | cons r rest ih =>
    have hsize : (unwired done).size = done.length := List.length_mapIdx
    have hgraph : ({ unwired done with
        nodes := (unwired done).nodes ++ [r.node (unwired done).size]
        order := none } : Graph Builtin) = unwired (done ++ [r]) := by
      rw [hsize, unwired, unwired, List.mapIdx_concat]
    have hplaces : places done ++ [(r.id, (unwired done).size)] = places (done ++ [r]) := by
      rw [hsize, places, places, List.mapIdx_concat]
    have hsplit : done ++ r :: rest = done ++ [r] ++ rest := by simp
    -- one record passes from what is to come to what is done
    rw [List.foldlM_cons, bind_eq_ok_iff, hsplit]
    simp only [addRecord_eq_ok_iff, get?_places_eq_none_iff, hgraph, hplaces, List.forall_mem_cons]
    constructor
    · rintro ⟨_, ⟨hnew, hknown, rfl⟩, hrest⟩
      have hnodup : ((done ++ [r]).map (·.id)).Nodup := by
        rw [List.map_append, List.map_singleton]
        exact List.nodup_append.mpr ⟨hdone, List.nodup_singleton _,
          fun a ha b hb => by rw [List.mem_singleton.mp hb]; exact fun h => hnew (h ▸ ha)⟩
      obtain ⟨hall, hothers, hbuilt⟩ := (ih (done ++ [r]) hnodup).mp hrest
      exact ⟨hall, ⟨hknown, hothers⟩, hbuilt⟩
    · rintro ⟨hall, ⟨hknown, hothers⟩, hbuilt⟩
      have hnodup : ((done ++ [r]).map (·.id)).Nodup :=
        hall.sublist ((List.sublist_append_left _ rest).map _)
      have hnew : r.id ∉ done.map (·.id) := by
        rw [List.map_append, List.map_singleton] at hnodup
        exact fun h => (List.nodup_append.mp hnodup).2.2 _ h _ (List.mem_singleton.mpr rfl) rfl
      exact ⟨_, ⟨hnew, hknown, rfl⟩, (ih (done ++ [r]) hnodup).mpr ⟨hall, hothers, hbuilt⟩⟩

/-! ## One connection after another -/

/-- The ends of a recorded connection are sockets of nodes. -/
def Plugs (g : Graph Builtin) (ids : Ids) (c : Connection) : Prop :=
  ∃ source destination, ids.get? c.source = some source ∧
    ids.get? c.destination = some destination ∧ g.HasOutput source c.output ∧
    g.HasInput destination c.input

theorem wired_concat {g : Graph Builtin}
    (hid : ∀ (i : Nat) (n : Node Builtin), g.nodes[i]? = some n → n.id = i) (cs : List Connection)
    (c : Connection) :
    (wired g cs).withConnections (cs ++ [c]) c = wired g (cs ++ [c]) := by
  have hnodes : ((wired g cs).withConnections (cs ++ [c]) c).nodes =
      g.nodes.map (Graph.marked (cs ++ [c])) := by
    apply List.ext_getElem?
    intro i
    rw [Graph.getElem?_withConnections, wired, List.getElem?_map, List.getElem?_map]
    cases hn : g.nodes[i]? with
    | none => rfl
    | some n =>
      obtain rfl := hid i n hn
      rw [Option.map_some, Option.map_some, Option.map_some]
      split_ifs with hend
      · rw [Graph.marked_marked]
      · -- the new connection is not attached here
        rw [not_or] at hend
        simp [Graph.marked, hend.1, hend.2]
  show Graph.mk _ _ _ = Graph.mk _ _ _
  rw [← hnodes]
  rfl

theorem hasOutput_wired {g : Graph Builtin} {cs : List Connection} {id index : Nat} :
    (wired g cs).HasOutput id index ↔ g.HasOutput id index := by
  rw [Graph.HasOutput, Graph.HasOutput, wired, List.getElem?_map]
  cases g.nodes[id]? with
  | none => simp
  | some n => simp [Graph.marked]

theorem hasInput_wired {g : Graph Builtin} {cs : List Connection} {id index : Nat} :
    (wired g cs).HasInput id index ↔ g.HasInput id index := by
  rw [Graph.HasInput, Graph.HasInput, wired, List.getElem?_map]
  cases g.nodes[id]? with
  | none => simp
  | some n => simp [Graph.marked]

theorem addConnection_eq_ok_iff {g g' : Graph Builtin}
    (hid : ∀ (i : Nat) (n : Node Builtin), g.nodes[i]? = some n → n.id = i) {ids : Ids}
    {cs : List Connection} {c : Connection} :
    addConnection ids (wired g cs) c = .ok g' ↔
      Plugs g ids c ∧
      (∀ d ∈ cs, ¬ (d.destination = (ids.rename c).destination ∧ d.input = (ids.rename c).input)) ∧
      g' = wired g (cs ++ [ids.rename c]) := by
  unfold addConnection Plugs Ids.rename
  cases hsource : ids.get? c.source with
  | none => simp
  | some source =>
    cases hdestination : ids.get? c.destination with
    | none => simp
    | some destination =>
      simp only [Option.getD_some]
      cases hrefusal : (wired g cs).refusal? { c with source, destination } with
      | some e =>
        -- marks do not count for a refusal: sockets are there or not, and free or not
        have hresult :=
          (Graph.result_connect (wired g cs) { c with source, destination } e).mpr hrefusal
        simp only [hresult]
        constructor
        · intro h
          cases h
        · rintro ⟨⟨_, _, hs, hd, houtput, hinput⟩, hfree, _⟩
          cases hs
          cases hd
          have hnone : (wired g cs).refusal? { c with source, destination } = none :=
            Graph.refusal?_eq_none_iff.mpr
              ⟨hasOutput_wired.mpr houtput, hasInput_wired.mpr hinput, hfree⟩
          cases hrefusal.symm.trans hnone
      | none =>
        have hconnect := Graph.connect_returns hrefusal
        obtain ⟨houtput, hinput, hfree⟩ := Graph.refusal?_eq_none_iff.mp hrefusal
        rw [hasOutput_wired] at houtput
        rw [hasInput_wired] at hinput
        simp only [hconnect.1, hconnect.2]
        rw [show (wired g cs).connections = cs from rfl, wired_concat hid]
        constructor
        · intro h
          cases h
          exact ⟨⟨source, destination, rfl, rfl, houtput, hinput⟩, hfree, rfl⟩
        · rintro ⟨_, _, rfl⟩
          rfl

theorem foldlM_addConnection_eq_ok_iff {g g' : Graph Builtin}
    (hid : ∀ (i : Nat) (n : Node Builtin), g.nodes[i]? = some n → n.id = i) {ids : Ids}
    {rest done : List Connection}
    (hdone : done.Pairwise fun c e => ¬ (c.destination = e.destination ∧ c.input = e.input)) :
    rest.foldlM (addConnection ids) (wired g done) = .ok g' ↔
      (∀ c ∈ rest, Plugs g ids c) ∧
      ((done ++ rest.map ids.rename).Pairwise fun c e =>
        ¬ (c.destination = e.destination ∧ c.input = e.input)) ∧
      g' = wired g (done ++ rest.map ids.rename) := by
  induction rest generalizing done with
  | nil =>
    rw [List.map_nil, List.append_nil]
    constructor
    · exact fun h => ⟨fun c hc => absurd hc List.not_mem_nil, hdone, (Except.ok.inj h).symm⟩
    · exact fun h => congrArg Except.ok h.2.2.symm
  | cons c rest ih =>
    have hsplit : done ++ (c :: rest).map ids.rename =
        done ++ [ids.rename c] ++ rest.map ids.rename := by simp
    rw [List.foldlM_cons, bind_eq_ok_iff, hsplit]
    simp only [addConnection_eq_ok_iff hid, List.forall_mem_cons]
    constructor
    · rintro ⟨_, ⟨hplugs, hfree, rfl⟩, hrest⟩
      have hnext := List.pairwise_append.mpr ⟨hdone, List.pairwise_singleton _ (ids.rename c),
        fun a ha b hb => by rw [List.mem_singleton.mp hb]; exact hfree a ha⟩
      obtain ⟨hothers, hall, hg⟩ := (ih hnext).mp hrest
      exact ⟨⟨hplugs, hothers⟩, hall, hg⟩
    · rintro ⟨⟨hplugs, hothers⟩, hall, hg⟩
      have hnext := hall.sublist (List.sublist_append_left _ (rest.map ids.rename))
      have hfree := (List.pairwise_append.mp hnext).2.2
      exact ⟨_, ⟨hplugs, fun d hd => hfree d hd _ (List.mem_singleton.mpr rfl), rfl⟩,
        (ih hnext).mpr ⟨hothers, hall, hg⟩⟩

/-! ## Whole documents -/

theorem node_unwired {records : List NodeRecord} {i : Nat} {n : Node Builtin} :
    (unwired records).nodes[i]? = some n ↔ ∃ r, records[i]? = some r ∧ r.node i = n := by
  rw [unwired, List.getElem?_mapIdx, Option.map_eq_some_iff]

theorem plugs_iff {records : List NodeRecord} (hnodup : (records.map (·.id)).Nodup)
    {c : Connection} :
    Plugs (unwired records) (places records) c ↔
      (∃ r ∈ records, r.id = c.source ∧ c.output < r.builtin.operator.outputs.length) ∧
      ∃ r ∈ records, r.id = c.destination ∧ c.input < r.builtin.operator.inputs.length := by
  simp only [Plugs, Graph.HasOutput, Graph.HasInput, node_unwired, get?_places_eq_some_iff hnodup]
  constructor
  · rintro ⟨i, j, ⟨r, hr, hid⟩, ⟨r', hr', hid'⟩, ⟨_, ⟨_, hs, rfl⟩, hout⟩, ⟨_, ⟨_, hd, rfl⟩, hin⟩⟩
    cases hr.symm.trans hs
    cases hr'.symm.trans hd
    exact ⟨⟨r, List.mem_of_getElem? hr, hid, r.builtin.length_outputs ▸ hout⟩,
      r', List.mem_of_getElem? hr', hid', r'.builtin.length_inputs ▸ hin⟩
  · rintro ⟨⟨r, hr, hid, hout⟩, r', hr', hid', hin⟩
    obtain ⟨i, hi⟩ := List.getElem?_of_mem hr
    obtain ⟨j, hj⟩ := List.getElem?_of_mem hr'
    exact ⟨i, j, ⟨r, hi, hid⟩, ⟨r', hj, hid'⟩,
      ⟨_, ⟨r, hi, rfl⟩, r.builtin.length_outputs.symm ▸ hout⟩, _, ⟨r', hj, rfl⟩,
      r'.builtin.length_inputs.symm ▸ hin⟩

/-- Recorded ends are kept apart by their ids. -/
theorem rename_destination_inj {records : List NodeRecord} (hnodup : (records.map (·.id)).Nodup)
    {c e : Connection} (hc : c.destination ∈ records.map (·.id))
    (he : e.destination ∈ records.map (·.id)) :
    ((places records).rename c).destination = ((places records).rename e).destination ↔
      c.destination = e.destination := by
  have hfind : ∀ id ∈ records.map (·.id), ∃ i r, (places records).get? id = some i ∧
      records[i]? = some r ∧ r.id = id := by
    intro id hid
    obtain ⟨i, hi⟩ :=
      Option.ne_none_iff_exists'.mp (mt get?_places_eq_none_iff.mp (not_not.mpr hid))
    obtain ⟨r, hr, hrid⟩ := (get?_places_eq_some_iff hnodup).mp hi
    exact ⟨i, r, hi, hr, hrid⟩
  -- two ids that lead to one place are the id of the record there
  obtain ⟨i, r, hi, hr, hrid⟩ := hfind _ hc
  obtain ⟨j, r', hj, hr', hrid'⟩ := hfind _ he
  simp only [Ids.rename, hi, hj, Option.getD_some]
  constructor
  · rintro rfl
    cases hr.symm.trans hr'
    exact hrid.symm.trans hrid'
  · intro h
    rw [h, hj] at hi
    exact (Option.some.inj hi).symm

/-- A new node has no marks, and none are due. -/
theorem marked_nil_node (r : NodeRecord) (id : Nat) : Graph.marked [] (r.node id) = r.node id := by
  have hunmarked : Graph.Unmarked r.builtin.operator.ports := Graph.unmarked_ports _
  refine Graph.marked_eq_self ⟨fun k => ?_, fun k => ?_⟩
  · rw [show isMarked (r.node id).inputs k = false from hunmarked.1 k]
    simp
  · rw [show isMarked (r.node id).outputs k = false from hunmarked.2 k]
    simp

theorem wired_nil (records : List NodeRecord) : wired (unwired records) [] = unwired records := by
  have hnodes : (unwired records).nodes.map (Graph.marked []) = (unwired records).nodes := by
    apply List.ext_getElem?
    intro i
    rw [List.getElem?_map, unwired, List.getElem?_mapIdx, Option.map_map]
    cases records[i]? with
    | none => rfl
    | some r => exact congrArg some (marked_nil_node r i)
  rw [wired, hnodes]
  rfl

/-- Inputs that are taken once are taken once under any numbering of the records. -/
theorem pairwise_rename_iff {records : List NodeRecord} (hnodup : (records.map (·.id)).Nodup)
    {cs : List Connection} (hrecorded : ∀ c ∈ cs, c.destination ∈ records.map (·.id)) :
    ((cs.map (places records).rename).Pairwise fun c e =>
        ¬ (c.destination = e.destination ∧ c.input = e.input)) ↔
      cs.Pairwise fun c e => ¬ (c.destination = e.destination ∧ c.input = e.input) := by
  rw [List.pairwise_map]
  refine List.Pairwise.iff_of_mem fun {c e} hc he => not_congr (and_congr_left fun _ => ?_)
  exact rename_destination_inj hnodup (hrecorded c hc) (hrecorded e he)

/-- **All connections.** -/
theorem foldlM_addConnection_unwired {records : List NodeRecord} {cs : List Connection}
    {g : Graph Builtin} :
    cs.foldlM (addConnection (places records)) (unwired records) = .ok g ↔
      (∀ c ∈ cs, Plugs (unwired records) (places records) c) ∧
      ((cs.map (places records).rename).Pairwise fun c e =>
        ¬ (c.destination = e.destination ∧ c.input = e.input)) ∧
      g = wired (unwired records) (cs.map (places records).rename) := by
  have hid : ∀ (i : Nat) (n : Node Builtin), (unwired records).nodes[i]? = some n → n.id = i := by
    intro i n hn
    obtain ⟨r, _, rfl⟩ := node_unwired.mp hn
    rfl
  have hall := @foldlM_addConnection_eq_ok_iff _ g hid (places records) cs [] List.Pairwise.nil
  rwa [wired_nil, List.nil_append] at hall

/-- **What is accepted, and what comes out.** -/
theorem build_eq_ok_iff {d : Document} {g : Graph Builtin} {ids : Ids} :
    d.build = .ok (g, ids) ↔ d.Coherent ∧ g = d.graph ∧ ids = places d.nodes := by
  have hrun : d.build =
      (d.nodes.foldlM addRecord (unwired [], places []) >>= fun built =>
        d.connections.foldlM (addConnection built.2) built.1 >>= fun g' =>
          pure (g'.clearChanges, built.2)) := rfl
  rw [hrun, bind_eq_ok_iff]
  -- the records first, from an empty graph, and then the connections between their nodes
  simp only [foldlM_addRecord_eq_ok_iff [] List.nodup_nil, List.nil_append]
  constructor
  · rintro ⟨_, ⟨hnodup, hknown, rfl⟩, hrest⟩
    obtain ⟨g', hg', hlast⟩ := bind_eq_ok_iff.mp hrest
    obtain ⟨hplugs, hsingle, rfl⟩ := foldlM_addConnection_unwired.mp hg'
    cases hlast
    have henters := fun c hc => ((plugs_iff hnodup).mp (hplugs c hc)).2
    refine ⟨⟨hnodup, hknown, fun c hc => ((plugs_iff hnodup).mp (hplugs c hc)).1, henters, ?_⟩, rfl,
      rfl⟩
    refine (pairwise_rename_iff hnodup fun c hc => ?_).mp hsingle
    obtain ⟨r, hr, hid, _⟩ := henters c hc
    exact List.mem_map.mpr ⟨r, hr, hid⟩
  · rintro ⟨h, rfl, rfl⟩
    refine ⟨_, ⟨h.ids, h.known, rfl⟩, bind_eq_ok_iff.mpr
      ⟨_, foldlM_addConnection_unwired.mpr ⟨?_, ?_, rfl⟩, rfl⟩⟩
    · exact fun c hc => (plugs_iff h.ids).mpr ⟨h.leaves c hc, h.enters c hc⟩
    · refine (pairwise_rename_iff h.ids fun c hc => ?_).mpr h.single
      obtain ⟨r, hr, hid, _⟩ := h.enters c hc
      exact List.mem_map.mpr ⟨r, hr, hid⟩

/-! ## Saving again -/

/-- A graph that a document can be made of without loss of structure. -/
structure Sound (g : Graph Builtin) : Prop where
  wellFormed : g.WellFormed
  standard : g.Standard

theorem Sound.addRecord {g : Graph Builtin} (h : Sound g) {ids : Ids} {r : NodeRecord}
    {built : Graph Builtin × Ids} (hadd : addRecord (g, ids) r = .ok built) : Sound built.1 := by
  have hcreate : (g.create r.builtin).WellFormed := h.wellFormed.create r.builtin
  have hstate : built.1 = ((Graph.edit g.size r.restore).run (g.create r.builtin)).state := by
    unfold Document.addRecord at hadd
    cases hid : ids.get? r.id with
    | some i =>
      simp only [hid] at hadd
      cases hadd
    | none =>
      simp only [hid] at hadd
      cases hresult : ((Graph.edit g.size r.restore).run (g.create r.builtin)).result with
      | error e =>
        simp only [hresult] at hadd
        cases hadd
      | ok _ =>
        simp only [hresult] at hadd
        cases hadd
        rfl
  rw [hstate]
  exact ⟨hcreate.edit fun _ _ => NodeRecord.restore_keeps,
    (h.standard.create r.builtin).edit fun _ _ => NodeRecord.restore_keeps⟩

theorem Sound.addConnection {g g' : Graph Builtin} (h : Sound g) {ids : Ids} {c : Connection}
    (hadd : addConnection ids g c = .ok g') : Sound g' := by
  unfold Document.addConnection at hadd
  split at hadd
  · next source destination _ _ =>
    dsimp only at hadd
    split at hadd
    · cases hadd
      refine ⟨h.wellFormed.connect _, ?_⟩
      exact h.standard.apply (.connect { c with source, destination })
    · cases hadd
  · cases hadd

theorem Sound.clearChanges {g : Graph Builtin} (h : Sound g) : Sound g.clearChanges :=
  ⟨h.wellFormed.apply .clearChanges, h.standard.alike (Graph.alike_clearChanges g)⟩

/-- What is built step by step is sound, because every step keeps it so. -/
theorem sound_of_build {d : Document} {g : Graph Builtin} {ids : Ids} (h : d.build = .ok (g, ids)) :
    Sound g := by
  obtain ⟨⟨g₁, ids₁⟩, hrecords, hrest⟩ := bind_eq_ok_iff.mp h
  obtain ⟨g₂, hconnections, hlast⟩ := bind_eq_ok_iff.mp hrest
  have hempty : Sound ({} : Graph Builtin) := ⟨Graph.wellFormed_empty, fun n hn => by cases hn⟩
  have hg₁ : Sound g₁ := foldlM_keeps (P := fun built : Graph Builtin × Ids => Sound built.1)
    (fun built r built' hs hadd => hs.addRecord hadd) hempty hrecords
  have hg₂ : Sound g₂ := foldlM_keeps (fun g c g' hs hadd => hs.addConnection hadd) hg₁ hconnections
  cases hlast
  exact hg₂.clearChanges

theorem Sound.outline {g : Graph Builtin} (h : Sound g) {n : Node Builtin} (hn : n ∈ g.nodes) :
    n.toPorts.outline = n.behavior.operator.ports.outline :=
  h.standard n hn

theorem Sound.coherent {g : Graph Builtin} (h : Sound g) : (ofGraph g).Coherent where
  ids := by
    -- the ids of the nodes are their places
    have hrange : (g.nodes.map NodeRecord.ofNode).map (·.id) = List.range g.size := by
      apply List.ext_getElem?
      intro i
      rw [List.map_map, List.getElem?_map]
      cases hn : g.nodes[i]? with
      | none => rw [List.getElem?_eq_none (by simpa [Graph.size] using hn)]; rfl
      | some n =>
        have hi : i < g.size := (List.getElem?_eq_some_iff.mp hn).1
        rw [List.getElem?_range hi, Option.map_some]
        exact congrArg some (h.wellFormed.ids i n hn)
    show ((g.nodes.map NodeRecord.ofNode).map (·.id)).Nodup
    rw [hrange]
    exact List.nodup_range
  known := by
    intro r hr
    obtain ⟨n, hn, rfl⟩ := List.mem_map.mp hr
    have hpairs : n.params.map (fun q => (q.name, q.kind)) =
        n.behavior.operator.ports.params.map fun q => (q.name, q.kind) :=
      congrArg PortsOutline.params (h.outline hn)
    have hnames := congrArg (List.map Prod.fst) hpairs
    rw [List.map_map, List.map_map] at hnames
    refine ⟨fun e he => ?_, fun e he => ?_⟩
    · refine (n.behavior.mem_names e.1).mp (hnames ▸ ?_)
      exact (NodeRecord.params_sublist n).subset (List.mem_map_of_mem he)
    · refine (n.behavior.mem_names e.1).mp (hnames ▸ ?_)
      exact (NodeRecord.images_sublist n).subset (List.mem_map_of_mem he)
  leaves := by
    intro c hc
    obtain ⟨n, hn, hlt⟩ := h.wellFormed.leaves c hc
    have hmem : n ∈ g.nodes := List.mem_of_getElem? hn
    refine ⟨.ofNode n, List.mem_map_of_mem hmem, h.wellFormed.ids _ n hn, ?_⟩
    rw [(Ports.lengths_of_outline (h.outline hmem)).2, Builtin.length_outputs] at hlt
    exact hlt
  enters := by
    intro c hc
    obtain ⟨n, hn, hlt⟩ := h.wellFormed.enters c hc
    have hmem : n ∈ g.nodes := List.mem_of_getElem? hn
    refine ⟨.ofNode n, List.mem_map_of_mem hmem, h.wellFormed.ids _ n hn, ?_⟩
    rw [(Ports.lengths_of_outline (h.outline hmem)).1, Builtin.length_inputs] at hlt
    exact hlt
  single := h.wellFormed.single

/-- A record shows what is recorded of a node, and nothing else. -/
theorem ofNode_congr {m n : Node Builtin} (hid : m.id = n.id) (hbehavior : m.behavior = n.behavior)
    (hposition : m.position = n.position)
    (hparams : m.params.map Param.recorded = n.params.map Param.recorded) :
    NodeRecord.ofNode m = NodeRecord.ofNode n := by
  have hvalues : ∀ k : Node Builtin, (NodeRecord.ofNode k).params =
      (k.params.map Param.recorded).filterMap fun e => e.2.2.1.map (e.1, ·) := by
    intro k
    rw [List.filterMap_map]
    refine List.filterMap_congr fun p _ => ?_
    by_cases hkind : p.kind = .image
    · simp [Param.recorded, hkind]
    · simp [Param.recorded, hkind]
  have hpaths : ∀ k : Node Builtin, (NodeRecord.ofNode k).images =
      (k.params.map Param.recorded).filterMap fun e => e.2.2.2.map (e.1, ·) := by
    intro k
    rw [List.filterMap_map]
    refine List.filterMap_congr fun p _ => ?_
    by_cases hkind : p.kind = .image
    · simp [Param.recorded, hkind]
    · simp [Param.recorded, hkind]
  have hp : (NodeRecord.ofNode m).params = (NodeRecord.ofNode n).params := by
    rw [hvalues, hvalues, hparams]
  have hi : (NodeRecord.ofNode m).images = (NodeRecord.ofNode n).images := by
    rw [hpaths, hpaths, hparams]
  show NodeRecord.mk _ _ _ _ _ = NodeRecord.mk _ _ _ _ _
  exact NodeRecord.mk.injEq .. ▸ ⟨hid, hbehavior, hposition, hp, hi⟩

/-- The record of a node stands for a node with the same record. -/
theorem ofNode_node {n : Node Builtin}
    (houtline : n.toPorts.outline = n.behavior.operator.ports.outline)
    (hsorted : (n.params.map (·.name)).Pairwise (· < ·)) :
    NodeRecord.ofNode ((NodeRecord.ofNode n).node n.id) = NodeRecord.ofNode n := by
  have hnodup : (n.params.map (·.name)).Nodup := hsorted.imp fun hlt => ne_of_lt hlt
  obtain ⟨m, hm, hrestored⟩ := NodeRecord.restore_ofNode
    (m := { n.behavior.operator.ports with id := n.id, behavior := n.behavior }) houtline.symm
      hnodup
    n.behavior.path_params
  obtain ⟨_, rfl⟩ := (NodeRecord.restore_fresh (r := .ofNode n)).mp hm
  exact ofNode_congr rfl rfl rfl hrestored.params

/-- A node of the graph of a document, told from its record. -/
theorem getElem?_graph (d : Document) (i : Nat) :
    d.graph.nodes[i]? = d.nodes[i]?.map fun r =>
      { Graph.marked (d.connections.map (places d.nodes).rename)
        (r.node i) with changed := false } := by
  rw [graph, Graph.clearChanges, wired, unwired, List.getElem?_map, List.getElem?_map,
    List.getElem?_mapIdx, Option.map_map, Option.map_map]
  rfl

/-- **Saving again.** What is saved of a sound graph comes back as it is. -/
theorem Sound.ofGraph_graph {g : Graph Builtin} (h : Sound g) :
    ofGraph (ofGraph g).graph = ofGraph g := by
  have hnodes : (ofGraph g).graph.nodes.map NodeRecord.ofNode = g.nodes.map NodeRecord.ofNode := by
    apply List.ext_getElem?
    intro i
    rw [List.getElem?_map, getElem?_graph, ofGraph, List.getElem?_map]
    cases hn : g.nodes[i]? with
    | none => rfl
    | some n =>
      have hmem : n ∈ g.nodes := List.mem_of_getElem? hn
      obtain rfl := h.wellFormed.ids i n hn
      -- marks and changes are not recorded
      exact congrArg some (ofNode_node (h.outline hmem) (h.standard.sorted_params hmem))
  have hrename :
      g.connections.map (places (g.nodes.map NodeRecord.ofNode)).rename = g.connections := by
    have hplace : ∀ {i : Nat} {n : Node Builtin}, g.nodes[i]? = some n →
        (places (g.nodes.map NodeRecord.ofNode)).get? i = some i := by
      intro i n hn
      refine (get?_places_eq_some_iff h.coherent.ids).mpr ⟨.ofNode n, ?_, h.wellFormed.ids i n hn⟩
      rw [ofGraph, List.getElem?_map, hn]
      rfl
    refine (List.map_congr_left fun c hc => ?_).trans (List.map_id _)
    obtain ⟨source, hsource, _⟩ := h.wellFormed.leaves c hc
    obtain ⟨destination, hdestination, _⟩ := h.wellFormed.enters c hc
    rw [Ids.rename, hplace hsource, hplace hdestination]
    rfl
  show Document.mk _ _ _ = Document.mk _ _ _
  rw [hnodes]
  exact congrArg (Document.mk 1 _) hrename

/-! ## What a document says -/

/-- A parameter as it is declared, and with the settings of a record. What the record leaves out
stays as it is declared. -/
structure Settles (r : NodeRecord) (declared p : Param) : Prop where
  name : p.name = declared.name
  kind : p.kind = declared.kind
  value : ∀ v, (r.params.map Prod.fst).Nodup → (declared.name, v) ∈ r.params → p.value = v
  value_default : declared.name ∉ r.params.map Prod.fst → p.value = declared.value
  path :
    ∀ path, (r.images.map Prod.fst).Nodup → (declared.name, path) ∈ r.images → p.path = some path
  path_default : declared.name ∉ r.images.map Prod.fst → p.path = none
  image : p.image = none

theorem settles_settle (r : NodeRecord) {q : Param} (hpath : q.path = none)
    (himage : q.image = none) :
    Settles r q (r.settle q) := by
  obtain ⟨hname, hkind⟩ := Prod.mk.inj (r.settle_outline q)
  -- values come first, and paths leave them alone
  let valued : Param := q.applyEntries NodeRecord.setValue r.params
  have hvalue : (r.settle q).value = valued.value :=
    Param.view_applyEntries (f := NodeRecord.setPath) (·.value) (fun _ _ => rfl) _ valued
  have hvalued : (valued.name, valued.path, valued.image) = (q.name, q.path, q.image) :=
    Param.view_applyEntries (f := NodeRecord.setValue) (fun p => (p.name, p.path, p.image))
      (fun _ _ => rfl) _ q
  simp only [Prod.mk.injEq] at hvalued
  obtain ⟨hvaluedName, hvaluedPath, hvaluedImage⟩ := hvalued
  refine ⟨hname, hkind, fun v hnodup hv => ?_, fun hv => ?_, fun path hnodup hp => ?_, fun hp => ?_,
    ?_⟩
  · rw [hvalue]
    exact congrArg Param.value
      (Param.applyEntries_of_mem (f := NodeRecord.setValue) (fun _ _ => rfl) hnodup hv)
  · rw [hvalue]
    exact congrArg Param.value (Param.applyEntries_of_notMem hv)
  · rw [← hvaluedName] at hp
    exact congrArg Param.path
      (Param.applyEntries_of_mem (q := valued) (f := NodeRecord.setPath) (fun _ _ => rfl) hnodup hp)
  · rw [← hvaluedName] at hp
    exact (congrArg Param.path (Param.applyEntries_of_notMem hp)).trans (hvaluedPath.trans hpath)
  · refine List.foldlRecOn (motive := fun p : Param => p.image = none) r.images _
      (hvaluedImage.trans himage) fun p hp e _ => ?_
    split_ifs
    · rfl
    · exact hp

/-- The graph and the ids are what a document says. -/
structure Realises (d : Document) (g : Graph Builtin) (ids : Ids) : Prop where
  /-- The id of a record leads to the node in the place of the record. -/
  listed : ids = d.nodes.mapIdx fun i r => (r.id, i)
  leads : ∀ (i : Nat) (r : NodeRecord), d.nodes[i]? = some r → ids.get? r.id = some i
  size : g.size = d.nodes.length
  nodes : ∀ (i : Nat) (r : NodeRecord), d.nodes[i]? = some r → ∃ n, g.nodes[i]? = some n ∧
    n.id = i ∧ n.behavior = r.builtin ∧ n.position = r.position ∧
    List.Forall₂ (Settles r) r.builtin.operator.ports.params n.params
  connections : g.connections = d.connections.map ids.rename
  unchanged : g.hasChanges = false

theorem realises_graph {d : Document} (h : d.Coherent) : Realises d d.graph (places d.nodes) where
  listed := rfl
  leads i r hr := (get?_places_eq_some_iff h.ids).mpr ⟨r, hr, rfl⟩
  size := by
    simp [graph, Graph.clearChanges, wired, unwired, Graph.size]
  nodes := by
    intro i r hr
    rw [getElem?_graph, hr]
    refine ⟨_, rfl, rfl, rfl, rfl, ?_⟩
    show List.Forall₂ _ _ (r.builtin.operator.ports.params.map r.settle)
    rw [List.forall₂_map_right_iff, List.forall₂_same]
    exact fun q hq => settles_settle r (r.builtin.path_params q hq) (r.builtin.image_params q hq)
  connections := rfl
  unchanged := by
    simp [Graph.hasChanges, graph, Graph.clearChanges]

/-- **Acceptance.** A document can be built exactly if its parts fit together. The graph is what the
document says, with nothing marked as changed; and the document that is made of it can be built
again, to a graph of which the same document is made. -/
theorem build_accepts_coherent (d : Document) :
    ((∃ built, d.build = .ok built) ↔ d.Coherent) ∧
    ∀ g ids, d.build = .ok (g, ids) →
      Realises d g ids ∧
      ∃ g' ids', (ofGraph g).build = .ok (g', ids') ∧ ofGraph g' = ofGraph g := by
  refine ⟨⟨?_, fun h => ⟨_, build_eq_ok_iff.mpr ⟨h, rfl, rfl⟩⟩⟩, fun g ids hbuild => ?_⟩
  · rintro ⟨⟨g, ids⟩, hbuild⟩
    exact (build_eq_ok_iff.mp hbuild).1
  · have hsound : Sound g := sound_of_build hbuild
    obtain ⟨hcoherent, rfl, rfl⟩ := build_eq_ok_iff.mp hbuild
    refine ⟨realises_graph hcoherent, _, _, build_eq_ok_iff.mpr ⟨hsound.coherent, rfl, rfl⟩, ?_⟩
    exact hsound.ofGraph_graph

/-- A gradient into an output, and an image; the ids are neither dense nor in order. -/
def scattered : Document where
  nodes := [
    { id := 7, builtin := .output },
    { id := 3, builtin := .linearGradient, position := (1, 0), params := [("Angle", .zero)] },
    { id := 9, builtin := .imageInput, images := [("Image", "brick.png")] }]
  connections := [⟨3, 0, 7, 0⟩]

theorem coherent_scattered : scattered.Coherent where
  ids := by decide
  known := by
    have hparams : ∀ r ∈ scattered.nodes, ∀ e ∈ r.params,
        e.1 ∈ r.builtin.operator.params.map Prod.fst := by decide
    have himages : ∀ r ∈ scattered.nodes, ∀ e ∈ r.images,
        e.1 ∈ r.builtin.operator.params.map Prod.fst := by decide
    exact fun r hr => ⟨hparams r hr, himages r hr⟩
  leaves := by decide
  enters := by decide
  single := by decide

/-- The gradient becomes node 1 and feeds node 0, and the graph is saved and built again. -/
theorem scattered_accepted :
    ∃ g ids, scattered.build = .ok (g, ids) ∧ ids = [(7, 0), (3, 1), (9, 2)] ∧
      g.connections = [⟨1, 0, 0, 0⟩] ∧ g.hasChanges = false ∧
      ∃ g' ids', (ofGraph g).build = .ok (g', ids') ∧ ofGraph g' = ofGraph g := by
  obtain ⟨⟨g, ids⟩, hbuild⟩ := (build_accepts_coherent scattered).1.mpr coherent_scattered
  obtain ⟨hrealises, hagain⟩ := (build_accepts_coherent scattered).2 g ids hbuild
  have hids : ids = [(7, 0), (3, 1), (9, 2)] := hrealises.listed
  refine ⟨g, ids, hbuild, hids, ?_, hrealises.unchanged, hagain⟩
  rw [hrealises.connections, hids]
  decide

end Document
end Texel
