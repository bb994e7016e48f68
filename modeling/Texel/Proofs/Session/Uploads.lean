import Texel.Proofs.Builtin.Library
import Texel.Proofs.Device.Validator
import Texel.Proofs.Program.Inputs
import Texel.Proofs.Session.Ready

/-!
# Texel — what reaches the device

A program declares its uniforms, lists what to upload for them, and is compiled to a layout that the
uploads are looked up in. That these three agree follows from one walk over the parameters of the
nodes: `Handed` says which calls a single upload comes to, `Filled` what the program holds once some
of the parameters have been handed over, and `uploadAll_filled` is the induction over all of them.
`solve_uploads` puts the value pass, generation and execution together.

The device is the one that only checks. It may refuse a program, and `Admissible` asks that it does
not; the file that the text of the program goes to is asked for separately, as `Unwritten`.
-/

namespace Texel

open Program Glsl UniformValue

/-! ## What a solve leaves of the nodes -/

def Node.holding {β : Type} (n : Node β) : Nat × List Param := (n.id, n.params)

namespace Graph

theorem lasting_holding {β : Type} [Operable β] :
    Lasting (Node.holding : Node β → Nat × List Param) :=
  ⟨fun _ => rfl, fun _ _ _ => rfl, fun _ => rfl⟩

end Graph

namespace Session

/-! ## Uniforms -/

/-- What a program should hold for a parameter: its value, or whether it has an image. -/
def uniformOf (id : Nat) (q : Param) : String × UniformValue :=
  if q.kind = .image then
    (flagName (uniformName id q.name), .int (if q.image.isSome then 1 else 0))
  else (uniformName id q.name, held q.kind q.value)

/-- The calls that hand a parameter to a program: its value, or its image and whether it has one. -/
inductive Handed (g : Graph Builtin) : Upload → List Call → Prop
  | value {id : Nat} {n : Node Builtin} {q : Param} (hn : g.node? id = some n) (hq : q ∈ n.params)
    (hkind : q.kind ≠ .image) :
    Handed g (.value (uniformName id q.name) id q.name q.kind)
      [.set (uniformName id q.name) (held q.kind q.value)]
  | image {id : Nat} {n : Node Builtin} {q : Param} (hn : g.node? id = some n) (hq : q ∈ n.params)
    (hkind : q.kind = .image) (slot : Nat) :
    Handed g
      (.image (uniformName id q.name) (flagName (uniformName id q.name)) slot id q.name)
      [.bind slot q.image.isSome,
        .set (flagName (uniformName id q.name)) (.int (if q.image.isSome then 1 else 0))]

theorem Handed.congr {g g' : Graph Builtin}
    (h : g'.nodes.map Node.holding = g.nodes.map Node.holding) {u : Upload} {calls : List Call}
    (hu : Handed g' u calls) : Handed g u calls := by
  have hnode :
      ∀ {id n'}, g'.node? id = some n' → ∃ n, g.node? id = some n ∧ n.params = n'.params := by
    intro id n' hn'
    have hmap := congrArg (·[id]?) h
    simp only [List.getElem?_map] at hmap
    rw [show g'.nodes[id]? = some n' from hn', Option.map_some] at hmap
    obtain ⟨n, hn, hsame⟩ := Option.map_eq_some_iff.mp hmap.symm
    exact ⟨n, hn, congrArg Prod.snd hsame⟩
  cases hu with
  | value hn' hq hkind =>
    obtain ⟨n, hn, hparams⟩ := hnode hn'
    exact .value hn (hparams ▸ hq) hkind
  | image hn' hq hkind slot =>
    obtain ⟨n, hn, hparams⟩ := hnode hn'
    exact .image hn (hparams ▸ hq) hkind slot

theorem uniformOf_image {q : Param} (h : q.kind = .image) (id : Nat) :
    uniformOf id q = (flagName (uniformName id q.name), .int (if q.image.isSome then 1 else 0)) :=
  if_pos h

theorem uniformOf_value {q : Param} (h : q.kind ≠ .image) (id : Nat) :
    uniformOf id q = (uniformName id q.name, held q.kind q.value) :=
  if_neg h

/-- The names tell the parameters apart. -/
theorem eq_of_uniformOf {id m : Nat} {q r : Param} (h : (uniformOf m r).1 = (uniformOf id q).1) :
    m = id ∧ Identifier.camelCase r.name = Identifier.camelCase q.name := by
  by_cases hr : r.kind = .image
  · rw [uniformOf_image hr] at h
    by_cases hq : q.kind = .image
    · rw [uniformOf_image hq] at h
      exact uniformName_inj.mp (flagName_inj.mp h)
    · rw [uniformOf_value hq] at h
      exact absurd h (flagName_ne_uniformName _ _ _ _)
  · rw [uniformOf_value hr] at h
    by_cases hq : q.kind = .image
    · rw [uniformOf_image hq] at h
      exact absurd h.symm (flagName_ne_uniformName _ _ _ _)
    · rw [uniformOf_value hq] at h
      exact uniformName_inj.mp h

variable {g : Graph Builtin} {order : List Nat}

/-- Every parameter has a name of its own. -/
theorem nodup_uniformOf (h : Regular g order) :
    ((parameters g order).map fun e => (uniformOf e.1 e.2).1).Nodup := by
  have hid : ∀ {id e}, e ∈ ((g.node? id).map fun n => n.params.map (id, ·)).getD [] → e.1 = id := by
    intro id e he
    cases hn : g.node? id with
    | none => simp [hn] at he
    | some n =>
      rw [hn] at he
      obtain ⟨q, _, rfl⟩ := List.mem_map.mp he
      rfl
  rw [parameters, List.map_flatMap, List.nodup_flatMap]
  constructor
  · -- one node: its operator tells its parameters apart
    intro id hmem
    obtain ⟨n, hn⟩ := h.exists_node hmem
    have houtline :
        n.params.map (fun q => (q.name, q.kind)) = n.behavior.operator.ports.outline.params :=
      congrArg PortsOutline.params (h.standard.node? hn)
    have hnodup := n.behavior.nodup_camelCase
    rw [← houtline, List.map_map] at hnodup
    rw [hn, Option.map_some, Option.getD_some, List.map_map]
    refine (List.nodup_map_iff_inj_on hnodup.of_map).mpr fun q hq r hr heq => ?_
    exact List.inj_on_of_nodup_map hnodup hq hr (eq_of_uniformOf heq).2
  · -- two nodes: their ids are in the names
    refine h.isOrder.nodup.imp fun {a b} hab => ?_
    rw [Function.onFun, List.disjoint_left]
    intro name ha hb
    obtain ⟨e, he, rfl⟩ := List.mem_map.mp ha
    obtain ⟨e', he', heq⟩ := List.mem_map.mp hb
    exact hab ((hid he).symm.trans ((eq_of_uniformOf heq).1.symm.trans (hid he')))

/-- The parameters in the order of a program are those of all nodes. -/
theorem parameters_perm (h : Regular g order) :
    (parameters g order).Perm (g.nodes.flatMap fun n => n.params.map (n.id, ·)) := by
  have hperm : order.Perm (List.range g.size) :=
    (List.perm_ext_iff_of_nodup h.isOrder.nodup List.nodup_range).mpr fun id => by
      rw [h.isOrder.mem_iff, List.mem_range]
  refine (hperm.flatMap_right _).trans (.of_eq ?_)
  rw [List.flatMap_def, List.flatMap_def]
  congr 1
  apply List.ext_getElem
  · simp [Graph.size]
  · intro i hi hi'
    have hlt : i < g.nodes.length := by simpa using hi'
    have hnode : g.node? i = some g.nodes[i] := List.getElem?_eq_getElem hlt
    simp [hnode, h.id_eq hnode]

/-! ## Layouts -/

/-- The place of an image: its group, its binding, and whether it is written. -/
def place? : UniformDecl → Option (Nat × Nat × Bool)
  | .image _ slot => some (0, slot, false)
  | .member .. => none

/-- A layout with the declared members and images, and with the destination image at binding 0. -/
structure Reflects (p : Program) (l : Layout) : Prop where
  members : ∀ name, name ∈ l.members.map (·.name) ↔ ∃ type, .member name type ∈ p.uniforms
  images : (l.images.map fun i => (i.group, i.binding, i.writable)).Perm
    ((0, 0, true) :: p.uniforms.filterMap place?)

section Layout

variable {p : Program} {l : Layout}

theorem Reflects.member? (h : Reflects p l) {name type : String}
    (hname : .member name type ∈ p.uniforms) : (l.member? name).isSome := by
  obtain ⟨m, hm, rfl⟩ := List.mem_map.mp ((h.members name).mpr ⟨type, hname⟩)
  rw [Layout.member?, List.find?_isSome]
  exact ⟨m, hm, decide_eq_true rfl⟩

theorem mem_places {slot : Nat} {writable : Bool} :
    (0, slot, writable) ∈ p.uniforms.filterMap place? ↔
      writable = false ∧ ∃ name, .image name slot ∈ p.uniforms := by
  rw [List.mem_filterMap]
  constructor
  · rintro ⟨decl, hdecl, hplace⟩
    cases decl with
    | member => cases hplace
    | image name slot' =>
      obtain ⟨rfl, rfl⟩ : slot' = slot ∧ false = writable := by simpa [place?] using hplace
      exact ⟨rfl, name, hdecl⟩
  · rintro ⟨rfl, name, hdecl⟩
    exact ⟨_, hdecl, rfl⟩

/-- A declared image can be read; the destination image is elsewhere. -/
theorem Reflects.image? (h : Reflects p l) {name : String} {slot : Nat}
    (hname : .image name slot ∈ p.uniforms) (hslot : slot ≠ 0) :
    ∃ i, l.image? 0 slot = some i ∧ i.writable = false := by
  have hplace : (0, slot, false) ∈ l.images.map fun i => (i.group, i.binding, i.writable) :=
    h.images.mem_iff.mpr (List.mem_cons_of_mem _ (mem_places.mpr ⟨rfl, name, hname⟩))
  obtain ⟨i, hi, hplaced⟩ := List.mem_map.mp hplace
  simp only [Prod.mk.injEq] at hplaced
  cases hfound : l.image? 0 slot with
  | none =>
    have hnone := List.find?_eq_none.mp hfound i hi
    simp [hplaced] at hnone
  | some j =>
    obtain ⟨hgroup, hbinding⟩ : j.group = 0 ∧ j.binding = slot := by
      simpa using List.find?_some hfound
    -- whatever stands at this place is not the destination image
    have hj : (0, slot, j.writable) ∈ (0, 0, true) :: p.uniforms.filterMap place? := by
      rw [← h.images.mem_iff, ← hgroup, ← hbinding]
      exact List.mem_map_of_mem (List.mem_of_find?_eq_some hfound)
    rcases List.mem_cons.mp hj with heq | hmem
    · simp only [Prod.mk.injEq] at heq
      exact absurd heq.2.1 hslot
    · exact ⟨j, rfl, (mem_places.mp hmem).1⟩

/-- There are as many images to read as images declared. -/
theorem Reflects.length_inputs (h : Reflects p l) :
    l.inputs.length = (p.uniforms.filterMap place?).length := by
  have hinputs : l.inputs.length =
      ((l.images.map fun i => (i.group, i.binding, i.writable)).filter fun x => !x.2.2).length := by
    rw [List.filter_map, List.length_map]
    rfl
  have hall :
      (p.uniforms.filterMap place?).filter (fun x => !x.2.2) = p.uniforms.filterMap place? := by
    rw [List.filter_eq_self]
    intro x hx
    obtain ⟨decl, _, hplace⟩ := List.mem_filterMap.mp hx
    cases decl with
    | member => cases hplace
    | image name slot => cases hplace; rfl
  rw [hinputs, (h.images.filter _).length_eq, List.filter_cons_of_neg (by decide), hall]

end Layout

/-! ## Uploads -/

/-- A layout that has what an upload fills. -/
structure Fits (l : Layout) (u : Upload) : Prop where
  member : ∀ name type, .member name type ∈ Upload.uniforms u → (l.member? name).isSome
  image : ∀ name slot, .image name slot ∈ Upload.uniforms u →
    ∃ i, l.image? 0 slot = some i ∧ i.writable = false

theorem Blueprint.fits {p : Program} (hp : Blueprint g order p) {l : Layout} (h : Reflects p l)
    {u : Upload} (hu : u ∈ p.uploads) : Fits l u where
  member name type hname := h.member? (hp.mem_uniforms hu hname)
  image name slot hname := by
    refine h.image? (hp.mem_uniforms hu hname) ?_
    -- slots count from 1
    obtain ⟨count, hslots⟩ := hp.slots
    have hslot : slot ∈ p.uploads.filterMap Upload.slot? := by
      refine List.mem_filterMap.mpr ⟨u, hu, ?_⟩
      cases u with
      | value => simp [Upload.uniforms] at hname
      | image uniform flag slot' node param =>
        have heq : name = uniform ∧ slot = slot' := by simpa [Upload.uniforms] using hname
        rw [heq.2]
        rfl
    rw [hslots, List.mem_range'_1] at hslot
    omega

/-- What a program holds after some uploads: it held `q` before them. -/
structure Filled (q q' : ValidProgram) (entries : List (Nat × Param)) (us : List Upload) :
    Prop where
  layout : q'.layout = q.layout
  uniforms : q'.uniforms.Perm (entries.map (fun e => uniformOf e.1 e.2) ++ q.uniforms)
  images : (q'.images.map Prod.fst).Perm (us.filterMap Upload.slot? ++ q.images.map Prod.fst)

section Filled

variable {q q₁ q' : ValidProgram} {e : Nat × Param} {entries : List (Nat × Param)} {u : Upload}
  {us : List Upload}

/-- The names that one upload leaves to the others. -/
theorem Filled.names (h : Filled q q₁ [e] [u]) (entries : List (Nat × Param)) :
    (entries.map (fun e => (uniformOf e.1 e.2).1) ++ q₁.uniforms.map Prod.fst).Perm
      ((e :: entries).map (fun e => (uniformOf e.1 e.2).1) ++ q.uniforms.map Prod.fst) :=
  ((h.uniforms.map Prod.fst).append_left _).trans List.perm_middle

/-- The slots that one upload leaves to the others. -/
theorem Filled.slots (h : Filled q q₁ [e] [u]) (us : List Upload) :
    (us.filterMap Upload.slot? ++ q₁.images.map Prod.fst).Perm
      ((u :: us).filterMap Upload.slot? ++ q.images.map Prod.fst) := by
  refine (h.images.append_left _).trans ?_
  rw [← List.singleton_append (l := us), List.filterMap_append, ← List.append_assoc]
  exact List.perm_append_comm.append_right _

/-- One upload, and then the others. -/
theorem Filled.cons (h : Filled q q₁ [e] [u]) (h' : Filled q₁ q' entries us) :
    Filled q q' (e :: entries) (u :: us) where
  layout := h'.layout.trans h.layout
  uniforms := h'.uniforms.trans ((h.uniforms.append_left _).trans List.perm_middle)
  images := h'.images.trans (h.slots us)

end Filled

theorem returns_onDevice {α : Type} (s : Session Validator ValidProgram Builtin)
    {x : Action Validator Fault α} {a : α} {v : Validator} (h : x.Returns s.device a v) :
    (onDevice x).Returns s a { s with device := v } :=
  h.within.mapError _

theorem returns_lend (s : Session Validator ValidProgram Builtin)
    {x : Action Validator.Rig Fault Unit} {q q' : ValidProgram} {v : Validator}
    (h : x.Returns ⟨s.device, q⟩ () ⟨v, q'⟩) :
    (onDevice (Rig.lend q x)).Returns s q' { s with device := v } := by
  refine returns_onDevice s ⟨?_, ?_⟩
  · change (x.run ⟨s.device, q⟩).result.map _ = _
    rw [h.1, h.2]
    rfl
  · change (x.run ⟨s.device, q⟩).state.device = v
    rw [h.2]

section Upload

variable {s : Session Validator ValidProgram Builtin} {q : ValidProgram} {id : Nat}
  {n : Node Builtin} {r : Param}

theorem setUniform_filled {name : String} (hmember : (q.layout.member? name).isSome)
    (value : UniformValue) (s : Session Validator ValidProgram Builtin) :
    (onDevice (Rig.lend q (Device.setUniform name value))).Returns s
      { q with uniforms := Dictionary.insert name value q.uniforms }
      { s with device := s.device.logged [.set name value] } :=
  returns_lend s (Validator.setUniform_returns hmember value)

/-- **One upload.** -/
theorem upload_filled (h : Regular s.graph order) (hn : s.graph.node? id = some n)
    (hr : r ∈ n.params) {u : Upload} (hu : IsUpload (id, r) u) (hfits : Fits q.layout u)
    (hwithin : ∀ image, r.image = some image → image.extent.Within s.device.limit)
    (huniform : (uniformOf id r).1 ∉ q.uniforms.map Prod.fst)
    (hslot : ∀ slot, Upload.slot? u = some slot → slot ∉ q.images.map Prod.fst) :
    ∃ calls q', (upload q u).Returns s q' { s with device := s.device.logged calls } ∧
      Handed s.graph u calls ∧ Filled q q' [(id, r)] [u] := by
  have hparam :
      (paramOf id r.name : Action (Session Validator ValidProgram Builtin) Failure Param).Returns
        s r s :=
    (Action.Returns.state s).bind (.ofOption (h.param?_eq hn hr) _ s)
  cases hu with
  | value hkind =>
    have hvalue := ofValue?_eq (Kind.isNumeric_of_ne (h.param_kind hn hr) hkind) r.value
    have hset :=
      setUniform_filled (hfits.member _ _ (List.mem_singleton_self _)) (held r.kind r.value) s
    refine ⟨_,
      { q with
        uniforms := Dictionary.insert (uniformName id r.name) (held r.kind r.value) q.uniforms },
      hparam.bind ?_, .value hn hr hkind, rfl, ?_, .refl _⟩
    · rw [hvalue]
      exact hset
    · rw [uniformOf_value hkind] at huniform
      rw [List.map_singleton, uniformOf_value hkind]
      exact Dictionary.insert_perm _ huniform
  | image hkind slot =>
    obtain ⟨i, hi, hreadable⟩ := hfits.image _ _ List.mem_cons_self
    have hbind : (onDevice (Rig.lend q (Device.bindImage slot r.image))).Returns s
        { q with images := ValidProgram.insertSlot slot r.image.isSome q.images }
        { s with device := s.device.logged [.bind slot r.image.isSome] } :=
      returns_lend s (Validator.bindImage_returns hi hreadable hwithin)
    have hset := setUniform_filled
      (q := { q with images := ValidProgram.insertSlot slot r.image.isSome q.images })
      (hfits.member _ _ (List.mem_cons_of_mem _ (List.mem_singleton_self _)))
      (.int (if r.image.isSome then 1 else 0))
      { s with device := s.device.logged [.bind slot r.image.isSome] }
    rw [Validator.logged_logged] at hset
    refine ⟨_, _, hparam.bind (hbind.bind hset), .image hn hr hkind slot, rfl, ?_, ?_⟩
    · rw [uniformOf_image hkind] at huniform
      rw [List.map_singleton, uniformOf_image hkind]
      exact Dictionary.insert_perm _ huniform
    · exact (ValidProgram.insertSlot_perm _ (hslot slot rfl)).map _

/-- **All uploads.** Every parameter adds a uniform, and every image a slot, that is not there
yet. -/
theorem uploadAll_filled {entries : List (Nat × Param)} {us : List Upload}
    (hus : List.Forall₂ IsUpload entries us) (h : Regular s.graph order)
    (hentries : ∀ e ∈ entries, ∃ n, s.graph.node? e.1 = some n ∧ e.2 ∈ n.params)
    (hfits : ∀ u ∈ us, Fits q.layout u)
    (hwithin : ∀ e ∈ entries, ∀ image, e.2.image = some image → image.extent.Within s.device.limit)
    (huniforms : (entries.map (fun e => (uniformOf e.1 e.2).1) ++ q.uniforms.map Prod.fst).Nodup)
    (hslots : (us.filterMap Upload.slot? ++ q.images.map Prod.fst).Nodup) :
    ∃ groups q', (uploadAll q us).Returns s q' { s with device := s.device.logged groups.flatten } ∧
      List.Forall₂ (Handed s.graph) us groups ∧ Filled q q' entries us := by
  induction hus generalizing s q with
  | nil =>
    refine ⟨[], q, ?_, .nil, rfl, .refl _, .refl _⟩
    rw [List.flatten_nil, Validator.logged_nil]
    exact .pure q s
  | @cons e u entries us hu hrest ih =>
    rw [List.forall_mem_cons] at hentries hfits hwithin
    obtain ⟨n, hn, hr⟩ := hentries.1
    have hname : (uniformOf e.1 e.2).1 ∉ q.uniforms.map Prod.fst :=
      fun hmem => (List.nodup_cons.mp huniforms).1 (List.mem_append_right _ hmem)
    have hslot : ∀ slot, Upload.slot? u = some slot → slot ∉ q.images.map Prod.fst :=
      fun slot hslot => List.disjoint_of_nodup_append hslots
        (List.mem_filterMap.mpr ⟨u, List.mem_cons_self, hslot⟩)
    obtain ⟨calls, q₁, hfirst, hhanded, hfilled⟩ :=
      upload_filled h hn hr hu hfits.1 hwithin.1 hname hslot
    -- names and slots stay distinct when the first ones have moved into the program
    obtain ⟨groups, q', hothers, hgroups, hall⟩ :=
      ih (s := { s with device := s.device.logged calls }) (q := q₁) h hentries.2
        (hfilled.layout ▸ hfits.2) hwithin.2 ((hfilled.names entries).nodup_iff.mpr huniforms)
        ((hfilled.slots us).nodup_iff.mpr hslots)
    rw [Validator.logged_logged] at hothers
    exact ⟨calls :: groups, q', hfirst.bind hothers, .cons hhanded hgroups, hfilled.cons hall⟩

end Upload

/-! ## Solving -/

/-- Every image that an upload fills is declared once. -/
theorem places_uploads (us : List Upload) : (us.flatMap Upload.uniforms).filterMap place? =
    (us.filterMap Upload.slot?).map fun slot => (0, slot, false) := by
  induction us with
  | nil => rfl
  | cons u us ih =>
    rw [List.flatMap_cons, List.filterMap_append, ih]
    cases u with
    | value => rfl
    | image => rfl

/-- What a solve has done, seen from the session before it. -/
structure Uploaded (s s' : Session Validator ValidProgram Builtin) (p : Program) : Prop where
  /-- Images have the slots from 1 on. -/
  slots : ∃ count, p.uploads.filterMap Upload.slot? = List.range' 1 count
  /-- The device has been asked for what the uploads need, in their order. -/
  calls : ∃ groups, List.Forall₂ (Handed s.graph) p.uploads groups ∧
    s'.device.calls = s.device.calls ++ [.compile, .resize s.config.outputSize] ++ groups.flatten ++
      [.dispatch (groupsOf s.config.outputSize), .barrier]
  /-- The program holds one uniform for each parameter of each node. -/
  uniforms : ∃ q, s'.program = some q ∧ (q.uniforms.map Prod.fst).Nodup ∧
    q.uniforms.Perm (s.graph.nodes.flatMap fun n => n.params.map (uniformOf n.id))

/-- A session that can be solved, as far as its graph and its device are concerned. -/
structure Admissible (s : Session Validator ValidProgram Builtin) : Prop where
  nonempty : s.graph.nodes ≠ []
  acyclic : s.graph.Acyclic
  /-- The device accepts the program and reports what it declares. -/
  accepted : ∀ p, (Program.generate.run s.graph).result = .ok p →
    ∃ valid, ValidProgram.check p.source = .ok valid ∧ Reflects p valid.layout
  output : s.config.outputSize.Within s.device.limit
  images : ∀ n ∈ s.graph.nodes, ∀ r ∈ n.params, ∀ image, r.image = some image →
    image.extent.Within s.device.limit

theorem execute_uploads {s : Session Validator ValidProgram Builtin} {p : Program}
    (h : Regular s.graph order) (hp : Blueprint s.graph order p) {valid : ValidProgram}
    (hvalid : ValidProgram.check p.source = .ok valid) (hlayout : Reflects p valid.layout)
    (houtput : s.config.outputSize.Within s.device.limit)
    (himages : ∀ n ∈ s.graph.nodes, ∀ r ∈ n.params, ∀ image, r.image = some image →
      image.extent.Within s.device.limit) :
    ∃ report s', (execute p).Returns s report s' ∧ Uploaded s s' p := by
  have hfresh := ValidProgram.eq_of_check hvalid
  obtain ⟨count, hslots⟩ := hp.slots
  have hdevice : (onDevice (Device.compile p.source)).Returns s valid
      { s with device := s.device.logged [.compile] } :=
    returns_onDevice s (Validator.compile_returns hvalid s.device)
  have hcompile :
      (compile p.source).Returns s valid { s with device := s.device.logged [.compile] } :=
    hdevice.attempt.bind (.pure _ _)
  have hresize : (onDevice (Device.resize s.config.outputSize)).Returns
      { s with device := s.device.logged [.compile] } ()
      { s with device := { s.device.logged [.compile, .resize s.config.outputSize] with
        extent := s.config.outputSize } } := by
    have hdevice := Validator.resize_returns (v := s.device.logged [.compile]) houtput
    rw [Validator.logged_logged] at hdevice
    exact returns_onDevice { s with device := s.device.logged [.compile] } hdevice
  -- nothing is in the program yet, so names and slots only have to differ among themselves
  obtain ⟨groups, q, hall, hgroups, hfilled⟩ := uploadAll_filled
    (s := { s with device := { s.device.logged [.compile, .resize s.config.outputSize] with
      extent := s.config.outputSize } }) (q := valid) hp.uploads h
    (fun e he => mem_parameters he) (fun u hu => Blueprint.fits hp hlayout hu)
    (fun e he image himage => by
      obtain ⟨n, hn, hr⟩ := mem_parameters he
      exact himages n (List.mem_of_getElem? hn) e.2 hr image himage)
    (by rw [hfresh]; simpa using nodup_uniformOf h)
    (by rw [hfresh, hslots]; simpa using List.nodup_range')
  have huniforms := hfilled.uniforms
  have himages := hfilled.images
  rw [hfresh, List.append_nil] at huniforms
  rw [hfresh, List.map_nil, List.append_nil] at himages
  have hlength : q.images.length = q.layout.inputs.length := by
    rw [hfilled.layout, hlayout.length_inputs, hp.uniforms, places_uploads, List.length_map]
    simpa using himages.length_eq
  have hdispatch : ∀ t : Session Validator ValidProgram Builtin,
      (onDevice (Rig.lend q (Device.dispatch (groupsOf s.config.outputSize)))).Returns t q
        { t with device := t.device.logged [.dispatch (groupsOf s.config.outputSize)] } :=
    fun t => returns_lend t (Validator.dispatch_returns hlength _)
  have hbarrier : ∀ t : Session Validator ValidProgram Builtin,
      (onDevice (Device.barrier : Action Validator Fault Unit)).Returns t ()
        { t with device := t.device.logged [.barrier] } :=
    fun t => returns_onDevice t (Validator.log_returns _ t.device)
  refine ⟨_, _, (Action.Returns.state s).bind (hcompile.bind (hresize.bind (hall.bind
    ((hdispatch _).bind ((hbarrier _).bind ((Action.Returns.update _ _).bind
      ((Action.Returns.report _ _).bind (.pure _ _)))))))), ⟨count, hslots⟩, ⟨groups, hgroups, ?_⟩,
    ⟨q, rfl, ?_, ?_⟩⟩
  · simp [Validator.logged]
  · rw [(huniforms.map Prod.fst).nodup_iff, List.map_map]
    exact nodup_uniformOf h
  · refine huniforms.trans (((parameters_perm h).map _).trans (.of_eq ?_))
    simp [List.map_flatMap, Function.comp_def]

theorem Uploaded.congr {s t s' : Session Validator ValidProgram Builtin} {p : Program}
    (h : Uploaded t s' p) (hgraph : t.graph.nodes.map Node.holding = s.graph.nodes.map Node.holding)
    (hdevice : t.device = s.device) (hconfig : t.config = s.config) : Uploaded s s' p where
  slots := h.slots
  calls := by
    obtain ⟨groups, hgroups, hcalls⟩ := h.calls
    rw [hdevice, hconfig] at hcalls
    exact ⟨groups, hgroups.imp fun _ _ => Handed.congr hgraph, hcalls⟩
  uniforms := by
    obtain ⟨q, hq, hnodup, hperm⟩ := h.uniforms
    have hholding : ∀ g : Graph Builtin, (g.nodes.flatMap fun n => n.params.map (uniformOf n.id)) =
        (g.nodes.map Node.holding).flatMap fun e => e.2.map (uniformOf e.1) := by
      intro g
      rw [List.flatMap_map]
      rfl
    rw [hholding, hgraph, ← hholding] at hperm
    exact ⟨q, hq, hnodup, hperm⟩

/-- The graph that a solve leaves: that of the value pass, with the evaluation order. -/
def solvedGraph (g : Graph Builtin) : Graph Builtin :=
  (Program.generate.run (Graph.solve.run g).state).state

theorem alike_solvedGraph (g : Graph Builtin) : (solvedGraph g).Alike g :=
  (alike_generate _).trans (Graph.alike_solve g)

theorem holding_solvedGraph (g : Graph Builtin) :
    (solvedGraph g).nodes.map Node.holding = g.nodes.map Node.holding := by
  rw [solvedGraph, state_generate, (Graph.run_evaluationOrder _).1]
  exact Graph.lasting_holding.solve g

/-- If there is a program, the value pass goes through. -/
theorem onGraph_solve_returns {s : Session Validator ValidProgram Builtin} {p : Program}
    (hp : (Program.generate.run s.graph).result = .ok p) :
    (onGraph Graph.solve : Action _ Failure Unit).Returns s ()
      { s with graph := (Graph.solve.run s.graph).state } := by
  cases horder : s.graph.ordering with
  | error e =>
    rw [result_generate, horder] at hp
    cases hp
  | ok order =>
    have hreturns :
        Graph.evaluationOrder.Returns s.graph order (Graph.evaluationOrder.run s.graph).state :=
      ⟨(Graph.result_evaluationOrder _).trans horder, rfl⟩
    have hpass : Graph.solve.Returns s.graph () (Graph.solve.run s.graph).state :=
      ⟨(hreturns.bind (.update _ _)).1, rfl⟩
    exact hpass.within.mapError _

/-- After the value pass there is the same program, and its text is all that can stand in its
way. -/
theorem generate_solvedGraph {s : Session Validator ValidProgram Builtin} {p : Program}
    (hp : (Program.generate.run s.graph).result = .ok p) :
    ((∀ path e, ¬ s.Unwritten p path e) ∧
      ∃ files, generate.Returns { s with graph := (Graph.solve.run s.graph).state } p
        { s with graph := solvedGraph s.graph, files, generated := some p }) ∨
    ∃ path e, s.Unwritten p path e ∧
      (generate.run { s with graph := (Graph.solve.run s.graph).state }).result =
        .error (.unwrittenSource path e) := by
  have hsame : (Program.generate.run (Graph.solve.run s.graph).state).result = .ok p :=
    (generate_congr (Graph.alike_solve s.graph)).trans hp
  rcases run_generate { s with graph := (Graph.solve.run s.graph).state } with
    ⟨failure, hfailed | ⟨p', path, e, hp', hunwritten, rfl⟩, hresult, _⟩ |
      ⟨p', files, hp', hwritten, hresult, hstate⟩
  · cases hsame.symm.trans hfailed
  · obtain rfl : p = p' := Except.ok.inj (hsame.symm.trans hp')
    exact .inr ⟨path, e, ⟨hunwritten.dumpSource, hunwritten.write⟩, hresult⟩
  · obtain rfl : p = p' := Except.ok.inj (hsame.symm.trans hp')
    exact .inl ⟨fun path e h => hwritten path e ⟨h.dumpSource, h.write⟩, files, hresult, hstate⟩

/-- A program whose text cannot be written is not even compiled. -/
theorem solve_of_unwritten {s : Session Validator ValidProgram Builtin} {p : Program}
    {path : String} {e : FileError} (hp : (Program.generate.run s.graph).result = .ok p)
    (h : s.Unwritten p path e) :
    (solve.run s).result = .error (.unwrittenSource path e) := by
  have hgenerate : (generate.run { s with graph := (Graph.solve.run s.graph).state }).result =
      .error (.unwrittenSource path e) := by
    obtain ⟨hwritten, _⟩ | ⟨path', e', h', hresult⟩ := generate_solvedGraph hp
    · exact absurd h (hwritten path e)
    · obtain rfl : path = path' := Option.some.inj (h.dumpSource.symm.trans h'.dumpSource)
      obtain rfl : e = e' := Except.error.inj (h.write.symm.trans h'.write)
      exact hresult
  have htry : (trySolve.run s).result = .error (.unwrittenSource path e) := by
    rw [trySolve, (onGraph_solve_returns hp).result_bind]
    exact Action.result_bind_of_error hgenerate
  rcases run_solve s with ⟨failure, hfailed, hresult, _⟩ | ⟨report, hreport, _, _⟩
  · exact hresult.trans (hfailed.symm.trans htry)
  · cases htry.symm.trans hreport

/-- A session whose graph has a history is solved. -/
theorem solve_of_wellFormed {s : Session Validator ValidProgram Builtin}
    (hwell : s.graph.WellFormed) (hstandard : s.graph.Standard) (h : Admissible s)
    (hwritten : ∀ p path e, (Program.generate.run s.graph).result = .ok p →
      ¬ s.Unwritten p path e) :
    ∃ p report s', (Program.generate.run s.graph).result = .ok p ∧ solve.Returns s report s' ∧
      Uploaded s s' p := by
  obtain ⟨p, hp, -⟩ := generate_of_acyclic hwell hstandard h.acyclic h.nonempty
  obtain ⟨valid, hvalid, hlayout⟩ := h.accepted p hp
  obtain ⟨-, files, hgenerate⟩ | ⟨path, e, hunwritten, _⟩ := generate_solvedGraph hp
  swap
  · exact absurd hunwritten (hwritten p path e hp)
  -- the graph that is left can be planned like the one before, and comes to the same program
  have halike := alike_solvedGraph s.graph
  have hwell' : (solvedGraph s.graph).WellFormed := by
    rw [solvedGraph, state_generate]
    exact hwell.solve.evaluationOrder
  have hacyclic' : (solvedGraph s.graph).Acyclic := by
    have hfeeds : (solvedGraph s.graph).Feeds = s.graph.Feeds := by
      funext a b
      rw [Graph.Feeds, Graph.Feeds, halike.connections]
    rw [Graph.Acyclic, hfeeds]
    exact h.acyclic
  have hnonempty' : (solvedGraph s.graph).nodes ≠ [] := fun hnil =>
    h.nonempty (List.eq_nil_of_length_eq_zero (halike.size.symm.trans (congrArg List.length hnil)))
  obtain ⟨p', hp', hplanned, hblueprint⟩ :=
    generate_of_acyclic hwell' (hstandard.alike halike) hacyclic' hnonempty'
  obtain rfl : p = p' := Except.ok.inj (hp.symm.trans ((generate_congr halike).symm.trans hp'))
  have hholding := holding_solvedGraph s.graph
  obtain ⟨report, s', hexecute, huploaded⟩ := execute_uploads
    (s := { s with graph := solvedGraph s.graph, files, generated := some p })
    hplanned hblueprint hvalid hlayout h.output (fun n hn r hr => by
      have hmem : n.holding ∈ s.graph.nodes.map Node.holding := hholding ▸ List.mem_map_of_mem hn
      obtain ⟨m, hm, hsame⟩ := List.mem_map.mp hmem
      have hparams : m.params = n.params := congrArg Prod.snd hsame
      exact h.images m hm r (hparams ▸ hr))
  have htry : trySolve.Returns s report s' :=
    (onGraph_solve_returns hp).bind (hgenerate.bind hexecute)
  rcases run_solve s with ⟨failure, hfailed, _, _⟩ | ⟨report', hreport, hresult, hstate⟩
  · cases htry.1.symm.trans hfailed
  · rw [htry.2] at hstate
    have hbefore := huploaded.congr (s := s) hholding rfl rfl
    exact ⟨p, report', _, hp, ⟨hresult, hstate⟩, { hbefore with }⟩

/-- The steps of a session keep its graph as operators make it. -/
theorem wellFormed_after {start : Session Validator ValidProgram Builtin}
    (hstart : start.graph = {}) (steps : List (Step Builtin)) :
    (start.after (steps.map .own)).graph.WellFormed ∧
    (start.after (steps.map .own)).graph.Standard := by
  rw [after, List.foldl_map]
  refine List.foldlRecOn
    (motive := fun s : Session Validator ValidProgram Builtin =>
      s.graph.WellFormed ∧ s.graph.Standard)
    steps _ ?_ fun s hs step _ => ?_
  · rw [hstart]
    exact ⟨Graph.wellFormed_empty, Graph.standard_ofEdits []⟩
  · exact step.keeps_graph (Q := fun g => g.WellFormed ∧ g.Standard)
      (fun _ e h => ⟨h.1.applyEdit e, h.2.apply e⟩)
      (fun _ h => ⟨h.1.apply .clearChanges, h.2.alike (Graph.alike_clearChanges _)⟩)
      (fun _ h => ⟨h.1.evaluationOrder, h.2.alike (Graph.alike_evaluationOrder _)⟩)
      (fun _ h => ⟨h.1.solve, h.2.alike (Graph.alike_solve _)⟩) hs

/-- **Declarations and uploads agree.** A session that is reached by steps from an empty graph, and
that the device accepts, is solved, unless the text of its program cannot be written. -/
theorem solve_uploads (start : Session Validator ValidProgram Builtin) (hstart : start.graph = {})
    (steps : List (Step Builtin)) (h : Admissible (start.after (steps.map .own)))
    (hwritten : ∀ p path e,
      (Program.generate.run (start.after (steps.map .own)).graph).result = .ok p →
      ¬ (start.after (steps.map .own)).Unwritten p path e) :
    ∃ p report s', (Program.generate.run (start.after (steps.map .own)).graph).result = .ok p ∧
      solve.Returns (start.after (steps.map .own)) report s' ∧
      Uploaded (start.after (steps.map .own)) s' p := by
  obtain ⟨hwell, hstandard⟩ := wellFormed_after hstart steps
  exact solve_of_wellFormed hwell hstandard h hwritten

/-! ## An example

An image beside a color. The program is written out, and the device reads its text. -/

/-- An image with two texels per side, and a color that has been changed. -/
def posterSteps : List (Step Builtin) :=
  [.create .imageInput, .create .color, .setImage 0 "Image" (some (.blank ⟨2, 2⟩)) none,
    .setParam 1 "Color" .zero]

/-- The session with these steps, and with some settings. -/
def poster (config : Config) : Session Validator ValidProgram Builtin :=
  after { device := {}, config } (posterSteps.map .own)

def posterProgram : Program where
  uniforms :=
    [.image "param_0_image" 1, .member "param_0_image_conn" "int", .member "param_1_color" "vec4"]
  definitions :=
    [.definition "image_input"
      "void image_input(in vec4 pixel, out vec4 result) \x7b\n    result = pixel;\n\x7d",
     .definition "color_node"
      "void color_node(in vec4 color, out vec4 result) \x7b\n    result = color;\n\x7d"]
  body :=
    [.line (.declare .vec4 "out_0_0"), .line (.declare .vec4 "out_1_0"),
     .line (.call "image_input"
      [.convert .identity (.sample "param_0_image" .coord), .var "out_0_0"]),
     .line (.call "color_node" [.convert .identity (.var "param_1_color"), .var "out_1_0"]),
     .line (.store (.convert .identity (.var "out_1_0")))]
  uploads :=
    [.image "param_0_image" "param_0_image_conn" 1 0 "Image",
      .value "param_1_color" 1 "Color" .vec4]
  order := [0, 1]
  result := 1

theorem poster_generate (config : Config) :
    (Program.generate.run (poster config).graph).result = .ok posterProgram := by
  -- the graph does not depend on the settings
  show (Program.generate.run (poster {}).graph).result = .ok posterProgram
  have hsome : (Program.generate.run (poster {}).graph).result.toOption = some posterProgram := by
    decide +kernel
  cases hresult : (Program.generate.run (poster {}).graph).result with
  | error e => rw [hresult] at hsome; cases hsome
  | ok p => rw [hresult] at hsome; exact congrArg Except.ok (Option.some.inj hsome)

set_option maxRecDepth 20000 in
theorem posterProgram_reads :
    (Shader.Program.ofChars? posterProgram.source.toList).map (fun q =>
      (q.valid, q.layout.members.map (·.name),
        q.layout.images.map fun i => (i.group, i.binding, i.writable))) =
      some (true, ["param_0_image_conn", "param_1_color"], [(0, 0, true), (0, 1, false)]) := by
  have hdeclare : ∀ kind name, (Line.declare kind name).render =
      "\t" ++ kind.typeName ++ " " ++ name ++ ";\n" := fun _ _ => rfl
  have hcall : ∀ f es, (Line.call f es).render =
      "\t" ++ f ++ "(" ++ ", ".intercalate (es.map Expr.render) ++ ");\n" := fun _ _ => rfl
  have hstore : ∀ e, (Line.store e).render =
      "\timageStore(uOutput, cCoords, " ++ e.render ++ ");\n" := fun _ => rfl
  have hvar : ∀ name, (Expr.var name).render = name := fun _ => rfl
  have hidentity : ∀ e, (Expr.convert .identity e).render = e.render := fun _ => rfl
  have hsample : ∀ image, (Expr.sample image .coord).render = "(imageLoad(" ++ image ++
      ", uv_to_texel(" ++ "cUV" ++ ", imageSize(" ++ image ++ "))) * float(" ++
      (image ++ "_conn") ++ "))" := fun _ => rfl
  rw [Program.source, assemble, String.toList_ofList, template, toList_ofLines]
  simp only [posterProgram, Program.bodyText, Program.definitionsText, Program.uniformsText,
    UniformDecl.render, UniformDecl.renderImage?, UniformDecl.renderMember?, renderPieces,
    Piece.render, hdeclare, hcall, hstore, hvar, hidentity, hsample, Kind.typeName, List.map_cons,
    List.map_nil, List.filterMap_cons, List.filterMap_nil, List.isEmpty_cons, Bool.false_eq_true,
    if_false, String.toList_join, String.toList_append, String.toList_intercalate,
    List.flatMap_cons, List.flatMap_nil]
  -- each piece of text becomes its characters before anything is computed
  repeat rw [String.toList_ofList]
  decide +kernel

/-- The device accepts the program and finds in it what it declares. -/
theorem posterProgram_accepted :
    ∃ valid, ValidProgram.check posterProgram.source = .ok valid ∧
      Reflects posterProgram valid.layout := by
  have hreads := posterProgram_reads
  rw [← Shader.Program.ofText?_eq_ofChars?] at hreads
  obtain ⟨q, hq, hfound⟩ := Option.map_eq_some_iff.mp hreads
  simp only [Prod.mk.injEq] at hfound
  obtain ⟨hvalid, hmembers, himages⟩ := hfound
  refine ⟨{ layout := q.layout }, ?_, ?_, ?_⟩
  · rw [ValidProgram.check, hq]
    exact if_pos hvalid
  · intro name
    rw [hmembers]
    simp [posterProgram, exists_or]
  · rw [himages]
    exact .refl _

theorem admissible_poster {config : Config} (h : config.outputSize.Within 8192) :
    Admissible (poster config) where
  nonempty := by
    show (poster {}).graph.nodes ≠ []
    decide +kernel
  acyclic := Graph.acyclic_of_rank id fun _ hc => absurd hc List.not_mem_nil
  accepted p hp := by
    obtain rfl : p = posterProgram := Except.ok.inj (hp.symm.trans (poster_generate config))
    exact posterProgram_accepted
  output := h
  images := by
    have hall : ∀ n ∈ (poster {}).graph.nodes, ∀ r ∈ n.params,
        r.image.all fun image => image.extent = ⟨2, 2⟩ := by decide +kernel
    intro n hn r hr image himage
    have hextent := hall n hn r hr
    rw [himage] at hextent
    have hsize : image.extent = ⟨2, 2⟩ := by simpa using hextent
    rw [hsize]
    show Extent.Within ⟨2, 2⟩ 8192
    decide

theorem solve_uploads_poster :
    Admissible (poster {}) ∧
      (∀ p path e, (Program.generate.run (poster {}).graph).result = .ok p →
        ¬ (poster {}).Unwritten p path e) ∧
      ∃ p report s', (Program.generate.run (poster {}).graph).result = .ok p ∧
        solve.Returns (poster {}) report s' ∧ Uploaded (poster {}) s' p := by
  have hadmissible : Admissible (poster {}) := admissible_poster (by decide)
  have hwritten : ∀ p path e, (Program.generate.run (poster {}).graph).result = .ok p →
      ¬ (poster {}).Unwritten p path e :=
    fun _ _ _ _ h => by cases h.dumpSource
  exact ⟨hadmissible, hwritten, solve_uploads _ rfl posterSteps hadmissible hwritten⟩

/-- Settings with an empty path for the text of the program. -/
def pathless : Config := { outputSize := ⟨4, 4⟩, dumpSource := some "" }

/-- Accepted by the device, and yet not solved: the text of the program has nowhere to go. -/
theorem solve_poster_pathless :
    Admissible (poster pathless) ∧
      (solve.run (poster pathless)).result = .error (.unwrittenSource "" .notFound) :=
  ⟨admissible_poster (by decide), solve_of_unwritten (poster_generate pathless) ⟨rfl, rfl⟩⟩

end Session
end Texel
