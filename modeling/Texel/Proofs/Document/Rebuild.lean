import Texel.Document.Basic
import Texel.Proofs.Graph.Marks
import Texel.Proofs.Program.Outcome

/-!
# Texel — rebuilding a graph from its document

A document holds less than the graph it was made from: values of sockets, images and the values of
image parameters are left out, and everything else comes back by creating the nodes anew, setting
their parameters and making the connections one by one. Each of these steps can be refused, and none
is, because of what is known of every graph with a history.

* **`Revision`** — what is done to a graph that keeps to the ports of its operators.
* **`NodeRecord.restore_ofNode`** — the settings of a node, put into a new node of the same
  operator.
* **`Rebuilt`** and **`Wired`** — how far the records and the connections have been replayed.
* **`build_ofGraph`** — the whole graph comes back, with the same program.
-/

namespace Texel

namespace Graph

variable {β : Type}

/-! ## Graphs that keep to the ports of their operators -/

inductive Revision (β : Type)
  | edit (e : Edit β)
  | setPosition (id : Nat) (position : Single × Single)
  | clearChanges
  | evaluationOrder
  | solve

def Revision.operation : Revision β → Operation β
  | .edit e => .edit e
  | .setPosition id position => .setPosition id position
  | .clearChanges => .clearChanges
  | .evaluationOrder => .evaluationOrder
  | .solve => .solve

/-- The graph that a history of revisions makes of the empty graph. -/
def ofRevisions [Operable β] (revisions : List (Revision β)) : Graph β :=
  ofOperations (revisions.map Revision.operation)

theorem Standard.revise [Operable β] {g : Graph β} (h : g.Standard) (r : Revision β) :
    (r.operation.apply g).Standard := by
  cases r with
  | edit e => exact h.apply e
  | setPosition id position => exact h.mapNode fun _ _ => ⟨rfl, rfl⟩
  | clearChanges => exact h.alike (alike_clearChanges g)
  | evaluationOrder => exact h.alike (alike_evaluationOrder g)
  | solve => exact h.alike (alike_solve g)

theorem standard_ofRevisions [Operable β] (revisions : List (Revision β)) :
    (ofRevisions revisions).Standard := by
  rw [ofRevisions, ofOperations, List.foldl_map]
  refine List.foldlRecOn (motive := Standard) revisions _ ?_ fun _ h r _ => h.revise r
  intro n hn
  cases hn

end Graph

/-! ## Parameters -/

/-- What a document keeps of a parameter: the value, or the path of an image. -/
def Param.recorded (p : Param) : String × Kind × Option Value × Option String :=
  (p.name, p.kind, if p.kind = .image then none else some p.value,
    if p.kind = .image then p.path else none)

section Entries

variable {γ : Type} {f : γ → Param → Param}

/-- A parameter after a list of entries, of which those with its name count. -/
def Param.applyEntries (f : γ → Param → Param) (entries : List (String × γ)) (q : Param) : Param :=
  entries.foldl (fun q e => if q.name = e.1 then f e.2 q else q) q

theorem Param.applyEntries_of_notMem {entries : List (String × γ)} {q : Param}
    (h : q.name ∉ entries.map Prod.fst) : q.applyEntries f entries = q := by
  induction entries with
  | nil => rfl
  | cons e entries ih =>
    simp only [List.map_cons, List.mem_cons, not_or] at h
    rw [applyEntries, List.foldl_cons, if_neg h.1]
    exact ih h.2

theorem Param.applyEntries_of_mem (hf : ∀ c q, (f c q).name = q.name) {entries : List (String × γ)}
    {q : Param} {c : γ} (hnodup : (entries.map Prod.fst).Nodup) (h : (q.name, c) ∈ entries) :
    q.applyEntries f entries = f c q := by
  induction entries with
  | nil => cases h
  | cons e entries ih =>
    rw [List.map_cons, List.nodup_cons] at hnodup
    rcases List.mem_cons.mp h with rfl | h
    · -- the first entry is the one, and the others leave its result alone
      rw [applyEntries, List.foldl_cons, if_pos rfl]
      exact applyEntries_of_notMem ((hf c q).symm ▸ hnodup.1)
    · have hne : q.name ≠ e.1 := fun heq => hnodup.1 (heq ▸ List.mem_map_of_mem (f := Prod.fst) h)
      rw [applyEntries, List.foldl_cons, if_neg hne]
      exact ih hnodup.2 h

/-- What no entry changes stays as it is. -/
theorem Param.view_applyEntries {δ : Type} (view : Param → δ) (hf : ∀ c q, view (f c q) = view q)
    (entries : List (String × γ)) (q : Param) : view (q.applyEntries f entries) = view q := by
  refine List.foldlRecOn (motive := fun r : Param => view r = view q) entries _ rfl fun r hr e _ =>
    ?_
  split_ifs
  · exact (hf _ r).trans hr
  · exact hr

theorem Node.isSome_param? {β : Type} {n : Node β} {name : String} :
    (n.param? name).isSome = true ↔ name ∈ n.params.map (·.name) := by
  rw [Ports.param?, List.find?_isSome, List.mem_map]
  simp only [decide_eq_true_eq]

/-- A list of edits goes through exactly if all names are there. -/
theorem Node.foldlM_editParam_eq_ok_iff {β : Type} (hf : ∀ c q, (f c q).name = q.name)
    {entries : List (String × γ)} {n n' : Node β} :
    entries.foldlM (fun n e => n.editParam e.1 (f e.2)) n = .ok n' ↔
      (∀ e ∈ entries, e.1 ∈ n.params.map (·.name)) ∧
      n' = { n with
        params := n.params.map (Param.applyEntries f entries)
        changed := n.changed || !entries.isEmpty } := by
  induction entries generalizing n with
  | nil =>
    have hsame : n = { n with
        params := n.params.map (Param.applyEntries f [])
        changed := n.changed || !([] : List (String × γ)).isEmpty } := by
      have hid : n.params.map (Param.applyEntries f []) = n.params := List.map_id _
      rw [hid, List.isEmpty_nil, Bool.not_true, Bool.or_false]
    rw [← hsame]
    constructor
    · exact fun h => ⟨fun e he => absurd he List.not_mem_nil, (Except.ok.inj h).symm⟩
    · exact fun h => congrArg Except.ok h.2.symm
  | cons e entries ih =>
    rw [List.foldlM_cons, Node.editParam]
    by_cases he : e.1 ∈ n.params.map (·.name)
    · have hnames : (n.mapParam e.1 (f e.2)).params.map (·.name) = n.params.map (·.name) := by
        rw [Ports.mapParam, List.map_map]
        refine List.map_congr_left fun q _ => ?_
        by_cases hq : q.name = e.1
        · simp [hq, hf]
        · simp [hq]
      have hparams : (n.mapParam e.1 (f e.2)).params.map (Param.applyEntries f entries) =
          n.params.map (Param.applyEntries f (e :: entries)) := List.map_map
      rw [if_pos (isSome_param?.mpr he)]
      refine ih.trans ?_
      simp only [hnames, hparams, List.forall_mem_cons, he, true_and, List.isEmpty_cons,
        Bool.not_false, Bool.true_or, Bool.or_true]
      rfl
    · rw [if_neg (mt isSome_param?.mp he)]
      constructor
      · intro h
        cases h
      · exact fun h => absurd (h.1 e List.mem_cons_self) he

theorem Node.foldlM_editParam {β : Type} (hf : ∀ c q, (f c q).name = q.name)
    {entries : List (String × γ)} {n : Node β} (h : ∀ e ∈ entries, e.1 ∈ n.params.map (·.name)) :
    ∃ changed, entries.foldlM (fun n e => n.editParam e.1 (f e.2)) n =
      .ok { n with params := n.params.map (Param.applyEntries f entries), changed } :=
  ⟨_, (foldlM_editParam_eq_ok_iff hf).mpr ⟨h, rfl⟩⟩

end Entries

/-! ## Nodes -/

namespace NodeRecord

theorem mem_params_ofNode {n : Node Builtin} {e : String × Value} :
    e ∈ (ofNode n).params ↔ ∃ p ∈ n.params, p.kind ≠ .image ∧ e = (p.name, p.value) := by
  simp only [ofNode, List.mem_filterMap]
  refine exists_congr fun p => and_congr_right fun _ => ?_
  by_cases hkind : p.kind = .image
  · simp [hkind]
  · simp [hkind, eq_comm]

theorem mem_images_ofNode {n : Node Builtin} {e : String × String} :
    e ∈ (ofNode n).images ↔
      ∃ p ∈ n.params, p.kind = .image ∧ p.path = some e.2 ∧ e.1 = p.name := by
  simp only [ofNode, List.mem_filterMap]
  refine exists_congr fun p => and_congr_right fun _ => ?_
  by_cases hkind : p.kind = .image
  · obtain ⟨name, path⟩ := e
    simp [hkind, eq_comm, and_comm]
  · simp [hkind]

/-- The names of the recorded parameters are among the names of all, in the same order. -/
theorem keys_sublist {γ : Type} {g : Param → Option (String × γ)}
    (hg : ∀ p e, g p = some e → e.1 = p.name) (ps : List Param) :
    ((ps.filterMap g).map Prod.fst).Sublist (ps.map (·.name)) := by
  induction ps with
  | nil => exact .slnil
  | cons p ps ih =>
    cases hp : g p with
    | none => simpa [hp] using ih.cons p.name
    | some e => simpa [hp, hg p e hp] using ih.cons_cons p.name

theorem params_sublist (n : Node Builtin) :
    ((ofNode n).params.map Prod.fst).Sublist (n.params.map (·.name)) := by
  refine keys_sublist (fun p e h => ?_) n.params
  by_cases hkind : p.kind = .image
  · simp [hkind] at h
  · simp only [hkind, if_false, Option.some.injEq] at h
    rw [← h]

theorem images_sublist (n : Node Builtin) :
    ((ofNode n).images.map Prod.fst).Sublist (n.params.map (·.name)) := by
  refine keys_sublist (fun p e h => ?_) n.params
  by_cases hkind : p.kind = .image
  · simp only [hkind, if_true, Option.map_eq_some_iff] at h
    obtain ⟨path, _, rfl⟩ := h
    rfl
  · simp [hkind] at h

def setValue (value : Value) (p : Param) : Param := { p with value }

def setPath (path : String) (p : Param) : Param := { p with image := none, path := some path }

/-- A parameter with the settings of a record. -/
def settle (r : NodeRecord) (q : Param) : Param :=
  (q.applyEntries setValue r.params).applyEntries setPath r.images

/-- The value and the path of a parameter, put into a parameter of the same name and kind that has
none yet. -/
theorem recorded_settle {n : Node Builtin} (hnodup : (n.params.map (·.name)).Nodup) {p q : Param}
    (hp : p ∈ n.params) (hname : q.name = p.name) (hkind : q.kind = p.kind)
    (hpath : q.path = none) :
    ((ofNode n).settle q).recorded = p.recorded := by
  unfold settle
  -- no two parameters of a node have one name
  have hunique : ∀ p' ∈ n.params, p'.name = q.name → p' = p := fun p' hp' heq =>
    List.inj_on_of_nodup_map hnodup hp' hp (heq.trans hname)
  by_cases himage : p.kind = .image
  · have hvalues : q.name ∉ (ofNode n).params.map Prod.fst := by
      intro hmem
      obtain ⟨e, he, heq⟩ := List.mem_map.mp hmem
      obtain ⟨p', hp', hnot, rfl⟩ := mem_params_ofNode.mp he
      exact hnot (hunique p' hp' heq ▸ himage)
    rw [Param.applyEntries_of_notMem hvalues]
    cases hfile : p.path with
    | none =>
      have hpaths : q.name ∉ (ofNode n).images.map Prod.fst := by
        intro hmem
        obtain ⟨e, he, heq⟩ := List.mem_map.mp hmem
        obtain ⟨p', hp', _, hsome, hkey⟩ := mem_images_ofNode.mp he
        rw [hunique p' hp' (hkey.symm.trans heq), hfile] at hsome
        cases hsome
      rw [Param.applyEntries_of_notMem hpaths]
      simp [Param.recorded, hname, hkind, himage, hpath, hfile]
    | some path =>
      have hmem : (q.name, path) ∈ (ofNode n).images :=
        mem_images_ofNode.mpr ⟨p, hp, himage, hfile, hname⟩
      rw [Param.applyEntries_of_mem (f := setPath) (fun _ _ => rfl)
        ((images_sublist n).nodup hnodup) hmem]
      simp [Param.recorded, setPath, hname, hkind, himage, hfile]
  · have hmem : (q.name, p.value) ∈ (ofNode n).params :=
      mem_params_ofNode.mpr ⟨p, hp, himage, by rw [hname]⟩
    rw [Param.applyEntries_of_mem (f := setValue) (fun _ _ => rfl)
      ((params_sublist n).nodup hnodup) hmem]
    have hpaths : q.name ∉ (ofNode n).images.map Prod.fst := by
      intro hmem
      obtain ⟨e, he, heq⟩ := List.mem_map.mp hmem
      obtain ⟨p', hp', hkind', _, hkey⟩ := mem_images_ofNode.mp he
      exact himage (hunique p' hp' (hkey.symm.trans heq) ▸ hkind')
    rw [Param.applyEntries_of_notMem (q := setValue p.value q) hpaths]
    simp [Param.recorded, setValue, hname, hkind, himage]

/-- What restoring makes of a new node. -/
structure Restored (n m m' : Node Builtin) : Prop where
  id : m'.id = m.id
  behavior : m'.behavior = m.behavior
  position : m'.position = n.position
  inputs : m'.inputs = m.inputs
  outputs : m'.outputs = m.outputs
  params : m'.params.map Param.recorded = n.params.map Param.recorded

theorem restore_ofNode {n m : Node Builtin} (houtline : m.toPorts.outline = n.toPorts.outline)
    (hnodup : (n.params.map (·.name)).Nodup) (hpaths : ∀ q ∈ m.params, q.path = none) :
    ∃ m', (ofNode n).restore m = .ok m' ∧ Restored n m m' := by
  have hpairs : m.params.map (fun q => (q.name, q.kind)) = n.params.map fun q => (q.name, q.kind) :=
    congrArg PortsOutline.params houtline
  have hnames : m.params.map (·.name) = n.params.map (·.name) := by
    have hfst := congrArg (List.map Prod.fst) hpairs
    rwa [List.map_map, List.map_map] at hfst
  -- first the values, then the paths, with all names at hand
  let placed : Node Builtin := { m with position := n.position }
  have hvalueKeys : ∀ e ∈ (ofNode n).params, e.1 ∈ placed.params.map (·.name) := fun e he =>
    hnames.symm ▸ (params_sublist n).subset (List.mem_map_of_mem he)
  obtain ⟨changed, hvalues⟩ :=
    Node.foldlM_editParam (f := setValue) (fun _ _ => rfl) hvalueKeys
  let valued : Node Builtin :=
    { placed with
      params := placed.params.map (Param.applyEntries setValue (ofNode n).params)
      changed }
  have hpathKeys : ∀ e ∈ (ofNode n).images, e.1 ∈ valued.params.map (·.name) := by
    intro e he
    have hkept : valued.params.map (·.name) = m.params.map (·.name) := by
      show (m.params.map _).map _ = _
      rw [List.map_map]
      exact List.map_congr_left fun q _ =>
        Param.view_applyEntries (f := setValue) (·.name) (fun _ _ => rfl) _ q
    rw [hkept, hnames]
    exact (images_sublist n).subset (List.mem_map_of_mem he)
  obtain ⟨changed', himages⟩ :=
    Node.foldlM_editParam (f := setPath) (fun _ _ => rfl) hpathKeys
  refine ⟨{ valued with
      params := valued.params.map (Param.applyEntries setPath (ofNode n).images)
      changed := changed' },
    ?_, ⟨rfl, rfl, rfl, rfl, rfl, ?_⟩⟩
  · have hrun : (ofNode n).restore m =
        ((ofNode n).params.foldlM (fun n e => n.editParam e.1 (setValue e.2)) placed >>=
          fun valued =>
            (ofNode n).images.foldlM (fun n e => n.editParam e.1 (setPath e.2)) valued) := rfl
    rw [hrun, hvalues]
    exact himages
  · show ((m.params.map _).map _).map _ = _
    rw [List.map_map, List.map_map]
    apply List.ext_getElem?
    intro i
    have hi := congrArg (·[i]?) hpairs
    simp only [List.getElem?_map] at hi ⊢
    cases hq : m.params[i]? with
    | none =>
      rw [hq, Option.map_none, eq_comm, Option.map_eq_none_iff] at hi
      rw [hi]
      rfl
    | some q =>
      rw [hq, Option.map_some, eq_comm, Option.map_eq_some_iff] at hi
      obtain ⟨p, hp, hpq⟩ := hi
      obtain ⟨hname, hkind⟩ := Prod.mk.inj hpq
      rw [hp]
      exact congrArg some (recorded_settle hnodup (List.mem_of_getElem? hp) hname.symm hkind.symm
        (hpaths q (List.mem_of_getElem? hq)))

end NodeRecord

/-! ## Records -/

theorem Builtin.sorted_params (b : Builtin) :
    (b.operator.ports.params.map (·.name)).Pairwise (· < ·) := by
  cases b <;> decide

theorem Builtin.path_params (b : Builtin) : ∀ q ∈ b.operator.ports.params, q.path = none := by
  cases b <;> decide

theorem Graph.Standard.sorted_params {g : Graph Builtin} (h : g.Standard) {n : Node Builtin}
    (hn : n ∈ g.nodes) : (n.params.map (·.name)).Pairwise (· < ·) := by
  have hpairs : n.params.map (fun q => (q.name, q.kind)) =
      n.behavior.operator.ports.params.map fun q => (q.name, q.kind) :=
    congrArg PortsOutline.params (h n hn)
  have hnames := congrArg (List.map Prod.fst) hpairs
  rw [List.map_map, List.map_map] at hnames
  exact hnames ▸ n.behavior.sorted_params

namespace Graph

theorem edit_returns {β : Type} {g : Graph β} {id : Nat} {f : Node β → Except GraphError (Node β)}
    {n n' : Node β} (hn : g.node? id = some n) (hf : f n = .ok n') :
    (edit id f).Returns g () (g.mapNode id fun _ => n') :=
  (Action.Returns.state g).bind <| (Action.Returns.ofOption hn _ g).bind <|
    (Action.Returns.ofExcept hf g).bind <| .update _ g

theorem edit_returns_iff {β : Type} {g g' : Graph β} {id : Nat}
    {f : Node β → Except GraphError (Node β)} :
    (edit id f).Returns g () g' ↔
      ∃ n n', g.node? id = some n ∧ f n = .ok n' ∧ g' = g.mapNode id fun _ => n' := by
  constructor
  · intro h
    obtain ⟨_, _, hstate, h⟩ := h.of_bind
    obtain ⟨rfl, rfl⟩ := hstate.of_state
    obtain ⟨n, _, hfound, h⟩ := h.of_bind
    obtain ⟨hn, rfl⟩ := hfound.of_ofOption
    obtain ⟨n', _, hedited, h⟩ := h.of_bind
    obtain ⟨hn', rfl⟩ := hedited.of_ofExcept
    exact ⟨n, n', hn, hn', h.of_update⟩
  · rintro ⟨n, n', hn, hn', rfl⟩
    exact edit_returns hn hn'

theorem connect_returns {β : Type} {g : Graph β} {c : Connection} (h : g.refusal? c = none) :
    (connect c).Returns g () (g.withConnections (g.connections ++ [c]) c) := by
  refine (Action.Returns.state g).bind ?_
  rw [h]
  exact .update _ g

end Graph

/-- What a document keeps of a node, and its outline. -/
def Node.recorded (n : Node Builtin) : Nat × Builtin × (Single × Single) × PortsOutline ×
    List (String × Kind × Option Value × Option String) :=
  (n.id, n.behavior, n.position, n.toPorts.outline, n.params.map Param.recorded)

theorem Node.outline_of_recorded {n n' : Node Builtin} (h : n'.recorded = n.recorded) :
    n'.toPorts.outline = n.toPorts.outline :=
  congrArg (fun r => r.2.2.2.1) h

theorem Ports.lengths_of_outline {p q : Ports} (h : q.outline = p.outline) :
    q.inputs.length = p.inputs.length ∧ q.outputs.length = p.outputs.length := by
  have hinputs := congrArg (fun o => o.inputs.length) h
  have houtputs := congrArg (fun o => o.outputs.length) h
  simp only [outline, List.length_map] at hinputs houtputs
  exact ⟨hinputs, houtputs⟩

/-- A socket without its value. -/
def Socket.face (s : Socket) : SocketOutline × Bool := (s.outline, s.connected)

theorem faces_eq {xs ys : List Socket} (houtline : ys.map (·.outline) = xs.map (·.outline))
    (hmarks : isMarked ys = isMarked xs) : ys.map Socket.face = xs.map Socket.face := by
  apply List.ext_getElem?
  intro k
  have hk := congrArg (·[k]?) houtline
  have hmark := congrFun hmarks k
  simp only [List.getElem?_map, isMarked] at hk hmark ⊢
  cases hx : xs[k]? with
  | none =>
    rw [hx, Option.map_none, Option.map_eq_none_iff] at hk
    rw [hk]
  | some x =>
    rw [hx, Option.map_some, Option.map_eq_some_iff] at hk
    obtain ⟨y, hy, hsame⟩ := hk
    rw [hx, hy] at hmark
    rw [hy]
    exact congrArg some (Prod.ext hsame hmark)

namespace Document

/-- The records of some nodes have been replayed. -/
structure Rebuilt (done : List (Node Builtin)) (g : Graph Builtin) (ids : Ids) : Prop where
  wellFormed : g.WellFormed
  marked : g.Marked
  nodes : g.nodes.map Node.recorded = done.map Node.recorded
  connections : g.connections = []
  ids : ids = (List.range done.length).map fun id => (id, id)

theorem get?_range {size id : Nat} (h : id < size) :
    Ids.get? ((List.range size).map fun id => (id, id)) id = some id := by
  have hfind : (List.range size).find? (fun i => decide (i = id)) = some id := by
    refine List.find?_range_eq_some.mpr ⟨by simp, List.mem_range.mpr h, fun i hi => ?_⟩
    simpa using Nat.ne_of_lt hi
  rw [Ids.get?, List.find?_map, Function.comp_def, hfind]
  rfl

theorem get?_range_self (size : Nat) :
    Ids.get? ((List.range size).map fun id => (id, id)) size = none := by
  have hfind : (List.range size).find? (fun i => decide (i = size)) = none := by
    refine List.find?_eq_none.mpr fun i hi => ?_
    simpa using Nat.ne_of_lt (List.mem_range.mp hi)
  rw [Ids.get?, List.find?_map, Function.comp_def, hfind]
  rfl

theorem recorded_restored {n fresh m : Node Builtin} (h : NodeRecord.Restored n fresh m)
    (hid : fresh.id = n.id) (hbehavior : fresh.behavior = n.behavior)
    (houtline : fresh.toPorts.outline = n.toPorts.outline) : m.recorded = n.recorded := by
  have hparams :
      m.params.map (fun q => (q.name, q.kind)) = n.params.map fun q => (q.name, q.kind) := by
    have hpairs := congrArg (List.map fun r => (r.1, r.2.1)) h.params
    rwa [List.map_map, List.map_map] at hpairs
  have hports : m.toPorts.outline = n.toPorts.outline := by
    rw [← houtline]
    have hfresh : fresh.params.map (fun q => (q.name, q.kind)) =
        n.params.map fun q => (q.name, q.kind) := congrArg PortsOutline.params houtline
    rw [Ports.outline, Ports.outline, h.inputs, h.outputs, hparams, hfresh]
  rw [Node.recorded, Node.recorded, h.id, h.behavior, h.position, h.params, hports, hid, hbehavior]

theorem Rebuilt.addRecord {nodes : List (Node Builtin)} {g : Graph Builtin} {ids : Ids}
    (h : Rebuilt nodes g ids) {n : Node Builtin} (hid : n.id = nodes.length)
    (houtline : n.toPorts.outline = n.behavior.operator.ports.outline)
    (hsorted : (n.params.map (·.name)).Pairwise (· < ·)) :
    ∃ built, addRecord (g, ids) (.ofNode n) = .ok built ∧
      Rebuilt (nodes ++ [n]) built.1 built.2 := by
  have hsize : g.size = nodes.length := by
    simpa [Graph.size] using congrArg List.length h.nodes
  let fresh : Node Builtin :=
    { n.behavior.operator.ports with id := g.size, behavior := n.behavior }
  have hfresh : (g.create n.behavior).node? g.size = some fresh := List.getElem?_concat_length ..
  have hnodup : (n.params.map (·.name)).Nodup := hsorted.imp fun hlt => ne_of_lt hlt
  obtain ⟨m, hm, hrestored⟩ :=
    NodeRecord.restore_ofNode (m := fresh) houtline.symm hnodup n.behavior.path_params
  have hedit := Graph.edit_returns hfresh hm
  have hrecorded : m.recorded = n.recorded :=
    recorded_restored hrestored (hsize.trans hid.symm) rfl houtline.symm
  have hnodes : ((g.create n.behavior).mapNode g.size fun _ => m).nodes = g.nodes ++ [m] := by
    show (g.nodes ++ [fresh]).modify g.nodes.length (fun _ => m) = _
    rw [← List.set_eq_modify, List.set_append_right _ _ le_rfl, Nat.sub_self]
    rfl
  refine ⟨((g.create n.behavior).mapNode g.size fun _ => m, ids ++ [(n.id, g.size)]), ?_, ?_⟩
  · have hnew : (ids.get? (NodeRecord.ofNode n).id).isSome = false := by
      rw [h.ids, show (NodeRecord.ofNode n).id = nodes.length from hid, get?_range_self]
      rfl
    simp only [Document.addRecord, hnew]
    rw [show (NodeRecord.ofNode n).builtin = n.behavior from rfl, hedit.1, hedit.2]
    rfl
  · have hgrow : ∀ k, (g.create n.behavior).nodes[g.size]? = some k → k = fresh := fun k hk =>
      Option.some.inj (hk.symm.trans hfresh)
    have hports : m.toPorts.outline = fresh.toPorts.outline :=
      (Node.outline_of_recorded hrecorded).trans houtline
    constructor
    · refine (h.wellFormed.create n.behavior).mapNode fun k hk => ?_
      rw [hgrow k hk]
      exact .of_outline hrestored.id hports
    · refine (h.marked.create h.wellFormed n.behavior).mapNode fun k hk => ?_
      rw [hgrow k hk, Graph.SameMarks, hrestored.inputs, hrestored.outputs]
      exact ⟨rfl, rfl⟩
    · rw [hnodes, List.map_append, List.map_append, h.nodes, List.map_singleton, List.map_singleton,
        hrecorded]
    · exact h.connections
    · rw [h.ids, hid, hsize, List.length_append, List.length_singleton, List.range_succ,
        List.map_append, List.map_singleton]

/-- **All records.** The nodes of a graph are rebuilt one after another. -/
theorem foldlM_addRecord (rest nodes : List (Node Builtin)) {g : Graph Builtin} {ids : Ids}
    (h : Rebuilt nodes g ids)
    (hid : ∀ (i : Nat) (n : Node Builtin), (nodes ++ rest)[i]? = some n → n.id = i)
    (hstandard : ∀ n ∈ rest, n.toPorts.outline = n.behavior.operator.ports.outline)
    (hsorted : ∀ n ∈ rest, (n.params.map (·.name)).Pairwise (· < ·)) :
    ∃ built, (rest.map NodeRecord.ofNode).foldlM addRecord (g, ids) = .ok built ∧
      Rebuilt (nodes ++ rest) built.1 built.2 := by
  induction rest generalizing nodes g ids with
  | nil => exact ⟨(g, ids), rfl, by rwa [List.append_nil]⟩
  | cons n rest ih =>
    have hn : n.id = nodes.length := hid _ n (by simp)
    obtain ⟨built, hbuilt, hnext⟩ :=
      h.addRecord hn (hstandard n List.mem_cons_self) (hsorted n List.mem_cons_self)
    have hsplit : nodes ++ n :: rest = nodes ++ [n] ++ rest := by simp
    rw [hsplit] at hid ⊢
    obtain ⟨final, hfinal, hrebuilt⟩ := ih (nodes ++ [n]) hnext hid
      (fun k hk => hstandard k (List.mem_cons_of_mem _ hk))
      fun k hk => hsorted k (List.mem_cons_of_mem _ hk)
    refine ⟨final, ?_, hrebuilt⟩
    rw [List.map_cons, List.foldlM_cons, hbuilt]
    exact hfinal

/-! ## Connections -/

/-- Some connections have been replayed between the nodes of `g`. -/
structure Wired (g : Graph Builtin) (connections : List Connection) (g' : Graph Builtin) :
    Prop where
  wellFormed : g'.WellFormed
  marked : g'.Marked
  nodes : g'.nodes.map Node.recorded = g.nodes.map Node.recorded
  connections : g'.connections = connections

/-- Where `g` has a node, there is one with the same sockets. -/
theorem exists_node {g g' : Graph Builtin}
    (h : g'.nodes.map Node.recorded = g.nodes.map Node.recorded) {i : Nat} {n : Node Builtin}
    (hn : g.nodes[i]? = some n) : ∃ n', g'.nodes[i]? = some n' ∧ n'.recorded = n.recorded := by
  have hi := congrArg (·[i]?) h
  simp only [List.getElem?_map, hn, Option.map_some] at hi
  exact Option.map_eq_some_iff.mp hi

theorem recorded_marked (connections : List Connection) (n : Node Builtin) :
    (Graph.marked connections n).recorded = n.recorded := by
  have hports := Graph.outline_marked connections n
  rw [Node.recorded, hports]
  rfl

theorem Wired.addConnection {g g' : Graph Builtin} (hwell : g.WellFormed)
    {done rest : List Connection} {c : Connection} (hsplit : g.connections = done ++ c :: rest)
    (h : Wired g done g') :
    ∃ g'', addConnection ((List.range g.size).map fun id => (id, id)) g' c = .ok g'' ∧
      Wired g (done ++ [c]) g'' := by
  have hc : c ∈ g.connections := hsplit ▸ List.mem_append_right _ List.mem_cons_self
  obtain ⟨source, hsource, houtput⟩ := hwell.leaves c hc
  obtain ⟨destination, hdestination, hinput⟩ := hwell.enters c hc
  obtain ⟨source', hsource', hsame⟩ := exists_node h.nodes hsource
  obtain ⟨destination', hdestination', hsame'⟩ := exists_node h.nodes hdestination
  rw [← (Ports.lengths_of_outline (Node.outline_of_recorded hsame)).2] at houtput
  rw [← (Ports.lengths_of_outline (Node.outline_of_recorded hsame')).1] at hinput
  have hfree : g'.feeding? c.destination c.input = none := by
    rw [Graph.feeding?, h.connections]
    refine List.find?_eq_none.mpr fun d hd => ?_
    have hsingle := hwell.single
    rw [hsplit, List.pairwise_append] at hsingle
    simpa using hsingle.2.2 d hd c List.mem_cons_self
  have hrefusal : g'.refusal? c = none := by
    simp [Graph.refusal?, Graph.output?, Graph.input?, Graph.node?, hsource', hdestination',
      houtput, hinput, hfree]
  have hconnect := Graph.connect_returns hrefusal
  refine ⟨_, ?_, ⟨hconnect.2 ▸ h.wellFormed.connect c, hconnect.2 ▸ h.marked.connect h.wellFormed c,
    ?_, ?_⟩⟩
  · have hsourceId := get?_range (List.getElem?_eq_some_iff.mp hsource).1
    have hdestinationId := get?_range (List.getElem?_eq_some_iff.mp hdestination).1
    rw [Document.addConnection, show g.size = g.nodes.length from rfl, hsourceId, hdestinationId]
    simp only [hconnect.1, hconnect.2]
  · refine (Graph.map_mapNode fun n _ => recorded_marked _ n).trans ?_
    exact (Graph.map_mapNode fun n _ => recorded_marked _ n).trans h.nodes
  · show g'.connections ++ [c] = _
    rw [h.connections]

/-- **All connections.** -/
theorem foldlM_addConnection {g : Graph Builtin} (hwell : g.WellFormed)
    (rest done : List Connection) (hsplit : g.connections = done ++ rest) {g' : Graph Builtin}
    (h : Wired g done g') :
    ∃ g'', rest.foldlM (addConnection ((List.range g.size).map fun id => (id, id))) g' = .ok g'' ∧
      Wired g g.connections g'' := by
  induction rest generalizing done g' with
  | nil =>
    rw [List.append_nil] at hsplit
    exact ⟨g', rfl, hsplit ▸ h⟩
  | cons c rest ih =>
    obtain ⟨next, hnext, hwired⟩ := h.addConnection hwell hsplit
    obtain ⟨final, hfinal, hall⟩ := ih (done ++ [c]) (by rw [hsplit]; simp) hwired
    refine ⟨final, ?_, hall⟩
    rw [List.foldlM_cons, hnext]
    exact hfinal

/-! ## Graphs -/

/-- What comes back of a graph. -/
structure Restores (g g' : Graph Builtin) : Prop where
  behaviors : g'.nodes.map (·.behavior) = g.nodes.map (·.behavior)
  positions : g'.nodes.map (·.position) = g.nodes.map (·.position)
  inputs : g'.nodes.map (·.inputs.map Socket.face) = g.nodes.map (·.inputs.map Socket.face)
  outputs : g'.nodes.map (·.outputs.map Socket.face) = g.nodes.map (·.outputs.map Socket.face)
  params : g'.nodes.map (·.params.map Param.recorded) = g.nodes.map (·.params.map Param.recorded)
  connections : g'.connections = g.connections
  unchanged : ∀ n ∈ g'.nodes, n.changed = false

theorem isMarked_eq {i : Nat} {connections : List Connection} {n n' : Node Builtin}
    (h : Graph.NodeMarked connections i n) (h' : Graph.NodeMarked connections i n') :
    isMarked n'.inputs = isMarked n.inputs ∧ isMarked n'.outputs = isMarked n.outputs := by
  refine ⟨funext fun k => ?_, funext fun k => ?_⟩
  · exact Bool.eq_iff_iff.mpr ((h'.inputs k).trans (h.inputs k).symm)
  · exact Bool.eq_iff_iff.mpr ((h'.outputs k).trans (h.outputs k).symm)

/-- A view of nodes that is told from what is recorded. -/
theorem map_of_recorded {γ : Type} {g g' : Graph Builtin}
    (h : g'.nodes.map Node.recorded = g.nodes.map Node.recorded) {view : Node Builtin → γ}
    (hview : ∀ (i : Nat) (n n' : Node Builtin), g.nodes[i]? = some n → g'.nodes[i]? = some n' →
      n'.recorded = n.recorded → view n' = view n) :
    g'.nodes.map view = g.nodes.map view := by
  have hlength : g'.nodes.length = g.nodes.length := by simpa using congrArg List.length h
  apply List.ext_getElem?
  intro i
  rw [List.getElem?_map, List.getElem?_map]
  cases hn : g.nodes[i]? with
  | none =>
    rw [List.getElem?_eq_none_iff, ← hlength, ← List.getElem?_eq_none_iff] at hn
    rw [hn]
  | some n =>
    obtain ⟨n', hn', hsame⟩ := exists_node h hn
    rw [hn']
    exact congrArg some (hview i n n' hn hn' hsame)

theorem Wired.restores {g g' : Graph Builtin} (hg : g.Marked) (h : Wired g g.connections g') :
    Restores g g'.clearChanges := by
  have hnodes : g'.clearChanges.nodes.map Node.recorded = g.nodes.map Node.recorded := by
    refine Eq.trans ?_ h.nodes
    simp [Graph.clearChanges, Function.comp_def, Node.recorded]
  have hmarked : g'.clearChanges.Marked := h.marked.mapAll fun _ => ⟨rfl, rfl⟩
  -- the marks say what is connected, and the connections are the same
  have hmarks : ∀ (i : Nat) (n n' : Node Builtin), g.nodes[i]? = some n →
      g'.clearChanges.nodes[i]? = some n' →
      isMarked n'.inputs = isMarked n.inputs ∧ isMarked n'.outputs = isMarked n.outputs := by
    intro i n n' hn hn'
    have hn'' : Graph.NodeMarked g.connections i n' := h.connections ▸ hmarked i n' hn'
    exact isMarked_eq (hg i n hn) hn''
  refine ⟨?_, ?_, ?_, ?_, ?_, h.connections, ?_⟩
  · exact map_of_recorded hnodes fun _ _ _ _ _ hsame => congrArg (fun r => r.2.1) hsame
  · exact map_of_recorded hnodes fun _ _ _ _ _ hsame => congrArg (fun r => r.2.2.1) hsame
  · refine map_of_recorded hnodes fun i n n' hn hn' hsame => ?_
    exact faces_eq (congrArg PortsOutline.inputs (Node.outline_of_recorded hsame))
      (hmarks i n n' hn hn').1
  · refine map_of_recorded hnodes fun i n n' hn hn' hsame => ?_
    exact faces_eq (congrArg PortsOutline.outputs (Node.outline_of_recorded hsame))
      (hmarks i n n' hn hn').2
  · exact map_of_recorded hnodes fun _ _ _ _ _ hsame => congrArg (fun r => r.2.2.2.2) hsame
  · intro n hn
    obtain ⟨m, _, rfl⟩ := List.mem_map.mp hn
    rfl

theorem Wired.alike {g g' : Graph Builtin} (hwell : g.WellFormed) (h : Wired g g.connections g') :
    g'.Alike g := by
  have hbare : g'.nodes.map Node.bare = g.nodes.map Node.bare :=
    map_of_recorded h.nodes fun _ _ _ _ _ hsame =>
      Node.bare_congr (congrArg (fun r => r.1) hsame) (congrArg (fun r => r.2.1) hsame)
        (Node.outline_of_recorded hsame)
  have hsize : g'.size = g.size := by simpa [Graph.size] using congrArg List.length h.nodes
  refine ⟨?_, ?_⟩
  · rw [Graph.plan, Graph.plan, hbare, h.connections]
  · rw [h.wellFormed.ordering_eq, hwell.ordering_eq]
    exact Graph.schedule_congr hsize h.connections

/-- **Rebuilding.** The document of a graph with a history can be built, every record gets the id of
its node, and the graph that comes out has the nodes, settings, connections and marks of the graph
that went in, and its program, or its error. -/
theorem build_ofGraph (revisions : List (Graph.Revision Builtin)) :
    let g := Graph.ofRevisions revisions
    ∃ g', (ofGraph g).build = .ok (g', (List.range g.size).map fun id => (id, id)) ∧
      Restores g g' ∧
      (Program.generate.run g').result = (Program.generate.run g).result := by
  intro g
  have hwell : g.WellFormed := Graph.wellFormed_ofOperations _
  have hmarked : g.Marked := Graph.marked_ofOperations _
  have hstandard : g.Standard := Graph.standard_ofRevisions revisions
  have hempty : Rebuilt [] ({} : Graph Builtin) [] :=
    ⟨Graph.wellFormed_empty, Graph.marked_empty, rfl, rfl, rfl⟩
  obtain ⟨⟨g₁, ids⟩, hrecords, hrebuilt⟩ := foldlM_addRecord g.nodes [] hempty hwell.ids
    (fun n hn => hstandard n hn) fun n hn => hstandard.sorted_params hn
  have hids : ids = (List.range g.size).map fun id => (id, id) := hrebuilt.ids
  obtain ⟨g₂, hconnections, hwired⟩ := foldlM_addConnection hwell g.connections [] rfl
    ⟨hrebuilt.wellFormed, hrebuilt.marked, hrebuilt.nodes, hrebuilt.connections⟩
  refine ⟨g₂.clearChanges, ?_, hwired.restores hmarked, ?_⟩
  · have hrun : (ofGraph g).build =
        ((g.nodes.map NodeRecord.ofNode).foldlM addRecord ({}, []) >>= fun built =>
          g.connections.foldlM (addConnection built.2) built.1 >>= fun g' =>
            pure (g'.clearChanges, built.2)) := rfl
    rw [hrun, hrecords]
    show (g.connections.foldlM (addConnection ids) g₁ >>= fun g' =>
      pure (g'.clearChanges, ids)) = _
    rw [hids, hconnections]
    rfl
  · exact Program.generate_congr ((Graph.alike_clearChanges g₂).trans (hwired.alike hwell))

end Document
end Texel
