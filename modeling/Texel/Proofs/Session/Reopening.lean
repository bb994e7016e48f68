import Texel.Proofs.Document.Acceptance
import Texel.Proofs.Session.History
import Texel.Session.Open

/-!
# Texel — saving and opening again

A document is opened from a directory: the images that it records are read from their files, and the
file that an image was read from becomes the path of its parameter. So what is saved afterwards are
paths from the working directory, no longer from the directory of the document.

* **`openDocument_returns_iff`** — which documents are opened, and what the session then holds.
* **`refers_opened`** — the paths that are saved of an opened document.
* **`openDocument_resaves`** — they are the recorded ones exactly if these do not depend on the
  directory; and then the same images are found again.
-/

namespace Texel

/-- A path stays as it is exactly if the directory does not matter. -/
theorem Path.join_eq_self_iff {base path : String} :
    Path.join base path = path ↔ base = "" ∨ path.startsWith "/" = true := by
  have hlonger : ∀ middle : String, base ++ middle ++ path = path → base = "" := by
    intro middle h
    have hlength := congrArg String.length h
    rw [String.length_append, String.length_append] at hlength
    exact String.length_eq_zero_iff.mp (by omega)
  have hcond :
      (path.startsWith "/" || base.isEmpty) = true ↔ base = "" ∨ path.startsWith "/" = true := by
    rw [Bool.or_eq_true, String.isEmpty_iff, or_comm]
  unfold Path.join
  by_cases hkept : base = "" ∨ path.startsWith "/" = true
  · rw [if_pos (hcond.mpr hkept)]
    exact iff_of_true rfl hkept
  · rw [if_neg (mt hcond.mp hkept)]
    refine iff_of_false (fun h => hkept (Or.inl ?_)) hkept
    split_ifs at h
    · exact hlonger "" (by rw [String.append_empty]; exact h)
    · exact hlonger "/" h

/-! ## Loading the images of a record -/

/-- Puts the image of a file into a parameter, with the path that it was read from. -/
def Store.load (files : Store) (base path : String) (q : Param) : Param :=
  { q with image := files.readImage? (Path.join base path), path := some (Path.join base path) }

/-- A node with the images of a record. -/
def NodeRecord.load (r : NodeRecord) (files : Store) (base : String) (n : Node Builtin) :
    Node Builtin :=
  { n with
    params := n.params.map (Param.applyEntries (files.load base) r.images)
    changed := n.changed || !r.images.isEmpty }

namespace Session

variable {δ π : Type}

/-- A session with another node in some place of its graph. -/
def withNode (s : Session δ π Builtin) (id : Nat) (n : Node Builtin) : Session δ π Builtin :=
  { s with graph := s.graph.mapNode id fun _ => n }

theorem withNode_self {s : Session δ π Builtin} {id : Nat} {n : Node Builtin}
    (hn : s.graph.node? id = some n) : s.withNode id n = s := by
  have hnodes : s.graph.nodes.modify id (fun _ => n) = s.graph.nodes := by
    obtain ⟨hlt, rfl⟩ := List.getElem?_eq_some_iff.mp hn
    rw [← List.set_eq_modify]
    exact List.set_getElem_self hlt
  rw [withNode, Graph.mapNode, hnodes]

theorem withNode_withNode (s : Session δ π Builtin) (id : Nat) (n n' : Node Builtin) :
    (s.withNode id n).withNode id n' = s.withNode id n' := by
  rw [withNode, withNode, withNode, Graph.mapNode, Graph.mapNode, Graph.mapNode,
    List.modify_modify_eq]
  rfl

theorem node?_withNode {s : Session δ π Builtin} {id : Nat} {n : Node Builtin}
    (hn : s.graph.node? id = some n) (n' : Node Builtin) :
    (s.withNode id n').graph.node? id = some n' := by
  show (s.graph.nodes.modify id fun _ => n')[id]? = some n'
  rw [List.getElem?_modify, show s.graph.nodes[id]? = some n from hn]
  exact congrArg some (if_pos rfl)

theorem loadImage_returns_iff {s s' : Session δ π Builtin} {id : Nat} {name path : String} :
    (loadImage id name path).Returns s () s' ↔
      ∃ image n n', s.files.readImage? path = some image ∧ s.graph.node? id = some n ∧
        n.setImage name (some image) (some path) = .ok n' ∧ s' = s.withNode id n' := by
  constructor
  · intro h
    obtain ⟨_, _, hstate, h⟩ := h.of_bind
    obtain ⟨rfl, rfl⟩ := hstate.of_state
    obtain ⟨image, _, hread, h⟩ := h.of_bind
    obtain ⟨himage, rfl⟩ := hread.of_ofOption
    obtain ⟨_, _, hreport, h⟩ := h.of_bind
    obtain rfl := hreport.2
    obtain ⟨g', hedit, rfl⟩ := h.of_mapError.of_within
    obtain ⟨n, n', hn, hn', rfl⟩ := Graph.edit_returns_iff.mp hedit
    exact ⟨image, n, n', himage, hn, hn', rfl⟩
  · rintro ⟨image, n, n', himage, hn, hn', rfl⟩
    exact (Action.Returns.state s).bind <| (Action.Returns.ofOption himage _ s).bind <|
      (Action.Returns.report _ s).bind <|
        ((Graph.edit_returns_iff.mpr ⟨n, n', hn, hn', rfl⟩).within).mapError _

/-- **One record.** The images are loaded one after the other, each into the node as the ones before
have left it. -/
theorem each_loadImage_returns_iff {s s' : Session δ π Builtin} {id : Nat} {n : Node Builtin}
    (hn : s.graph.node? id = some n) {base : String} {entries : List (String × String)} :
    (Action.each (fun e => loadImage id e.1 (Path.join base e.2)) entries).Returns s () s' ↔
      (∀ e ∈ entries, (s.files.readImage? (Path.join base e.2)).isSome = true) ∧
      ∃ n', entries.foldlM (fun n e => n.editParam e.1 (s.files.load base e.2)) n = .ok n' ∧
        s' = s.withNode id n' := by
  induction entries generalizing s n with
  | nil =>
    constructor
    · intro h
      refine ⟨fun e he => absurd he List.not_mem_nil, n, rfl, ?_⟩
      rw [withNode_self hn]
      exact h.of_pure.2.symm
    · rintro ⟨_, _, hfold, rfl⟩
      cases hfold
      rw [withNode_self hn]
      exact .each_nil _ s
  | cons e entries ih =>
    -- an image that can be read is what the file holds, so the edit does not depend on the run
    have hset : ∀ image, s.files.readImage? (Path.join base e.2) = some image →
        n.setImage e.1 (some image) (some (Path.join base e.2)) =
          n.editParam e.1 (s.files.load base e.2) := by
      intro image himage
      have hload :
          (fun p : Param => { p with image := some image, path := some (Path.join base e.2) }) =
          s.files.load base e.2 := by
        funext p
        rw [Store.load, himage]
      rw [Node.setImage, hload]
    rw [Action.each, Action.returns_bind_iff, List.foldlM_cons, List.forall_mem_cons]
    simp only [bind_eq_ok_iff]
    constructor
    · rintro ⟨_, _, hfirst, hrest⟩
      obtain ⟨image, m, n₁, himage, hm, hn₁, rfl⟩ := loadImage_returns_iff.mp hfirst
      cases hn.symm.trans hm
      obtain ⟨hreadable, n', hn', rfl⟩ := (ih (node?_withNode hn n₁)).mp hrest
      refine ⟨⟨by rw [himage]; rfl, hreadable⟩, n', ⟨n₁, (hset image himage).symm.trans hn₁, hn'⟩,
        ?_⟩
      exact withNode_withNode s id n₁ n'
    · rintro ⟨⟨hsome, hreadable⟩, n', ⟨n₁, hn₁, hn'⟩, rfl⟩
      obtain ⟨image, himage⟩ := Option.isSome_iff_exists.mp hsome
      have hfirst := loadImage_returns_iff.mpr
        ⟨image, n, n₁, himage, hn, (hset image himage).trans hn₁, rfl⟩
      refine ⟨(), _, hfirst, (ih (node?_withNode hn n₁)).mpr ⟨hreadable, n', hn', ?_⟩⟩
      exact (withNode_withNode s id n₁ n').symm

theorem loadImages_eq {base : String} {ids : Document.Ids} {r : NodeRecord} {id : Nat}
    (hid : ids.get? r.id = some id) :
    (loadImages base ids r : Action (Session δ π Builtin) Failure Unit) =
      Action.each (fun e => loadImage id e.1 (Path.join base e.2)) r.images := by
  rw [loadImages, hid]

theorem loadImages_returns_iff {s s' : Session δ π Builtin} {base : String} {ids : Document.Ids}
    {r : NodeRecord} {id : Nat} {n : Node Builtin} (hid : ids.get? r.id = some id)
    (hn : s.graph.node? id = some n) (hnames : ∀ e ∈ r.images, e.1 ∈ n.params.map (·.name)) :
    (loadImages base ids r).Returns s () s' ↔
      (∀ e ∈ r.images, (s.files.readImage? (Path.join base e.2)).isSome = true) ∧
      s' = s.withNode id (r.load s.files base n) := by
  rw [loadImages_eq hid, each_loadImage_returns_iff hn]
  simp only [Node.foldlM_editParam_eq_ok_iff (f := s.files.load base) fun _ _ => rfl]
  constructor
  · rintro ⟨hreadable, _, ⟨_, rfl⟩, rfl⟩
    exact ⟨hreadable, rfl⟩
  · rintro ⟨hreadable, rfl⟩
    exact ⟨hreadable, _, ⟨hnames, rfl⟩, rfl⟩

end Session

/-! ## Loading the images of a document -/

namespace Document

/-- The graph of some records, with the images of the first ones. -/
def loaded (files : Store) (base : String) (records : List NodeRecord) (g : Graph Builtin) :
    Graph Builtin :=
  { g with nodes := g.nodes.mapIdx fun i n => records[i]?.elim n (·.load files base n) }

/-- The graph of a document with its images. -/
def opened (d : Document) (files : Store) (base : String) : Graph Builtin :=
  (loaded files base d.nodes d.graph).clearChanges

theorem loaded_nil (files : Store) (base : String) (g : Graph Builtin) :
    loaded files base [] g = g := by
  have hnodes :
      (g.nodes.mapIdx fun i n => (([] : List NodeRecord)[i]?).elim n (·.load files base n)) =
      g.nodes := by
    apply List.ext_getElem?
    intro i
    rw [List.getElem?_mapIdx]
    cases g.nodes[i]? with
    | none => rfl
    | some n => rfl
  rw [loaded, hnodes]

theorem loaded_concat {files : Store} {base : String} {done : List NodeRecord} {r : NodeRecord}
    {g : Graph Builtin} {n : Node Builtin} (hn : g.nodes[done.length]? = some n) :
    (loaded files base done g).mapNode done.length (fun _ => r.load files base n) =
      loaded files base (done ++ [r]) g := by
  have hnodes :
      ((loaded files base done g).mapNode done.length (fun _ => r.load files base n)).nodes =
      (loaded files base (done ++ [r]) g).nodes := by
    apply List.ext_getElem?
    intro i
    rw [Graph.mapNode, loaded, loaded, List.getElem?_modify, List.getElem?_mapIdx,
      List.getElem?_mapIdx]
    by_cases hi : done.length = i
    · subst hi
      rw [hn, List.getElem?_concat_length]
      exact congrArg some (if_pos rfl)
    · have hother : (done ++ [r])[i]? = done[i]? := by
        rcases Nat.lt_or_gt_of_ne hi with hlt | hgt
        · rw [List.getElem?_eq_none (by simp; omega), List.getElem?_eq_none (by omega)]
        · rw [List.getElem?_append_left hgt]
      rw [hother]
      simp only [hi, if_false]
      exact id_map _
  exact congrArg (fun nodes => Graph.mk nodes g.connections g.order) hnodes

/-- The images that a record names have their parameters in the node of the record. -/
theorem Coherent.node_names {d : Document} (h : d.Coherent) {i : Nat} {r : NodeRecord}
    (hr : d.nodes[i]? = some r) :
    ∃ n, d.graph.nodes[i]? = some n ∧ ∀ e ∈ r.images, e.1 ∈ n.params.map (·.name) := by
  rw [getElem?_graph, hr]
  refine ⟨_, rfl, fun e he => ?_⟩
  show e.1 ∈ (r.builtin.operator.ports.params.map r.settle).map (·.name)
  have hkept : (r.builtin.operator.ports.params.map r.settle).map (·.name) =
      r.builtin.operator.ports.params.map (·.name) := by
    rw [List.map_map]
    exact List.map_congr_left fun q _ => congrArg Prod.fst (r.settle_outline q)
  rw [hkept, Builtin.mem_names]
  exact (h.known r (List.mem_of_getElem? hr)).images e he

/-- **All records.** -/
theorem each_loadImages_returns_iff {δ π : Type} {d : Document} (h : d.Coherent) {base : String}
    {s s' : Session δ π Builtin} (done rest : List NodeRecord) (hsplit : done ++ rest = d.nodes) :
    (Action.each (Session.loadImages base (places d.nodes)) rest).Returns
        { s with graph := loaded s.files base done d.graph } () s' ↔
      (∀ r ∈ rest, ∀ e ∈ r.images, (s.files.readImage? (Path.join base e.2)).isSome = true) ∧
      s' = { s with graph := loaded s.files base d.nodes d.graph } := by
  induction rest generalizing done with
  | nil =>
    rw [List.append_nil] at hsplit
    rw [hsplit]
    constructor
    · exact fun hnil => ⟨fun r hr => absurd hr List.not_mem_nil, hnil.of_pure.2.symm⟩
    · rintro ⟨_, rfl⟩
      exact .each_nil _ _
  | cons r rest ih =>
    -- the next record stands where the nodes with images end
    have hr : d.nodes[done.length]? = some r := by
      rw [← hsplit, List.getElem?_append_right le_rfl, Nat.sub_self]
      rfl
    have hid : (places d.nodes).get? r.id = some done.length :=
      (get?_places_eq_some_iff h.ids).mpr ⟨r, hr, rfl⟩
    obtain ⟨n, hn, hnames⟩ := h.node_names hr
    have hnode : (loaded s.files base done d.graph).node? done.length = some n := by
      show (d.graph.nodes.mapIdx _)[done.length]? = some n
      rw [List.getElem?_mapIdx, hn, Option.map_some, List.getElem?_eq_none le_rfl]
      rfl
    have hstate : Session.withNode { s with graph := loaded s.files base done d.graph } done.length
        (r.load s.files base n) = { s with graph := loaded s.files base (done ++ [r]) d.graph } :=
      congrArg (fun graph => { s with graph }) (loaded_concat hn)
    have hnext : done ++ [r] ++ rest = d.nodes := by
      rw [← hsplit, List.append_assoc, List.singleton_append]
    rw [Action.each, Action.returns_bind_iff, List.forall_mem_cons]
    constructor
    · rintro ⟨_, _, hfirst, hrest⟩
      obtain ⟨hreadable, rfl⟩ := (Session.loadImages_returns_iff hid hnode hnames).mp hfirst
      rw [hstate] at hrest
      obtain ⟨hothers, rfl⟩ := (ih (done ++ [r]) hnext).mp hrest
      exact ⟨⟨hreadable, hothers⟩, rfl⟩
    · rintro ⟨⟨hreadable, hothers⟩, rfl⟩
      refine ⟨(), _, (Session.loadImages_returns_iff hid hnode hnames).mpr ⟨hreadable, rfl⟩, ?_⟩
      rw [hstate]
      exact (ih (done ++ [r]) hnext).mpr ⟨hothers, rfl⟩

end Document

namespace Session

variable {δ π : Type}

/-- **Opening.** A document is opened if its parts fit together and all its images can be read. -/
theorem openDocument_returns_iff {d : Document} {base : String} {s s' : Session δ π Builtin} :
    (openDocument d base).Returns s () s' ↔
      d.Coherent ∧
      (∀ r ∈ d.nodes, ∀ e ∈ r.images, (s.files.readImage? (Path.join base e.2)).isSome = true) ∧
      s' = { s with graph := d.opened s.files base } := by
  have hstart : ({ s with graph := d.graph } : Session δ π Builtin) =
      { s with graph := Document.loaded s.files base [] d.graph } := by
    rw [Document.loaded_nil]
  constructor
  · intro h
    obtain ⟨⟨g, ids⟩, _, hexcept, h⟩ := h.of_bind
    obtain ⟨hbuild, rfl⟩ := hexcept.of_ofExcept
    obtain ⟨hcoherent, rfl, rfl⟩ := Document.build_eq_ok_iff.mp hbuild
    obtain ⟨_, _, hupdate, h⟩ := h.of_bind
    obtain rfl := hupdate.of_update
    obtain ⟨_, _, hloop, h⟩ := h.of_bind
    rw [hstart] at hloop
    obtain ⟨hreadable, rfl⟩ :=
      (Document.each_loadImages_returns_iff hcoherent [] d.nodes rfl).mp hloop
    exact ⟨hcoherent, hreadable, h.of_update⟩
  · rintro ⟨hcoherent, hreadable, rfl⟩
    have hbuild := Document.build_eq_ok_iff.mpr ⟨hcoherent, rfl, rfl⟩
    have hloop :=
      (Document.each_loadImages_returns_iff hcoherent [] d.nodes rfl).mpr ⟨hreadable, rfl⟩
    rw [← hstart] at hloop
    exact (Action.Returns.ofExcept hbuild s).bind <| (Action.Returns.update _ s).bind <|
      hloop.bind ⟨rfl, rfl⟩

theorem keeps_sound_loadImage (id : Nat) (name path : String) :
    (loadImage id name path).Keeps fun t : Session δ π Builtin => Document.Sound t.graph := by
  intro t ht
  rcases run_loadImage t id name path with hrun | ⟨image, hrun⟩
  · rw [hrun]
    exact ht
  · rw [hrun]
    exact ⟨ht.wellFormed.edit fun _ _ => Graph.setImage_keeps,
      ht.standard.edit fun _ _ => Graph.setImage_keeps⟩

theorem keeps_sound_loadImages (base : String) (ids : Document.Ids) (r : NodeRecord) :
    (loadImages base ids r).Keeps fun t : Session δ π Builtin => Document.Sound t.graph := by
  cases hid : ids.get? r.id with
  | none =>
    rw [loadImages, hid]
    exact Action.Keeps.pure ()
  | some id =>
    rw [loadImages_eq hid]
    apply Action.Keeps.each
    intro e
    exact keeps_sound_loadImage id e.1 _

theorem sound_openDocument {d : Document} {base : String} {s s' : Session δ π Builtin}
    (h : (openDocument d base).Returns s () s') : Document.Sound s'.graph := by
  obtain ⟨⟨g, ids⟩, _, hexcept, h⟩ := h.of_bind
  obtain ⟨hbuild, rfl⟩ := hexcept.of_ofExcept
  obtain ⟨_, _, hupdate, h⟩ := h.of_bind
  obtain rfl := hupdate.of_update
  obtain ⟨_, t, hloop, h⟩ := h.of_bind
  have ht : Document.Sound t.graph := hloop.2 ▸
    Action.Keeps.each (keeps_sound_loadImages base ids) d.nodes _ (Document.sound_of_build hbuild)
  obtain rfl := h.of_update
  exact ht.clearChanges

end Session

/-! ## What is saved -/

/-- The parameters of an operator that hold images. -/
def Builtin.imageNames (b : Builtin) : List String :=
  (b.operator.params.filter (·.2.1 = .image)).map Prod.fst

theorem Builtin.mem_imageNames {b : Builtin} {name : String} :
    name ∈ b.imageNames ↔ ∃ q ∈ b.operator.ports.params, q.kind = .image ∧ q.name = name := by
  have hperm :
      ((b.operator.ports.params.filter (·.kind = .image)).map (·.name)).Perm b.imageNames := by
    cases b <;> decide
  rw [← hperm.mem_iff, List.mem_map]
  simp only [List.mem_filter, decide_eq_true_eq, and_assoc]

namespace NodeRecord

/-- The file that is recorded for a parameter. -/
def image? (r : NodeRecord) (name : String) : Option String :=
  (r.images.find? (·.1 = name)).map (·.2)

theorem image?_ofNode {n : Node Builtin} (hnodup : (n.params.map (·.name)).Nodup) {p : Param}
    (hp : p ∈ n.params) (hkind : p.kind = .image) : (ofNode n).image? p.name = p.path := by
  apply Option.ext
  intro path
  rw [image?, find?_key_eq_some_iff ((images_sublist n).nodup hnodup), mem_images_ofNode]
  constructor
  · rintro ⟨p', hp', _, hpath, hname⟩
    rw [List.inj_on_of_nodup_map hnodup hp hp' hname]
    exact hpath
  · exact fun hpath => ⟨p, hp, hkind, hpath, rfl⟩

/-- A parameter with the settings and the images of a record. -/
def fill (r : NodeRecord) (files : Store) (base : String) (q : Param) : Param :=
  (r.settle q).applyEntries (files.load base) r.images

theorem fill_outline (r : NodeRecord) (files : Store) (base : String) (q : Param) :
    ((r.fill files base q).name, (r.fill files base q).kind) = (q.name, q.kind) :=
  (Param.view_applyEntries (f := files.load base) (fun p => (p.name, p.kind))
    (fun _ _ => rfl) _ _).trans (r.settle_outline q)

/-- Image and path of a parameter are those of the file that is recorded for it, if there is one. -/
theorem fill_picture {r : NodeRecord} (hkeys : (r.images.map Prod.fst).Nodup) (files : Store)
    (base : String) {q : Param} (hpath : q.path = none) (himage : q.image = none) :
    ((r.fill files base q).image, (r.fill files base q).path) =
      ((r.image? q.name).bind fun path => files.readImage? (Path.join base path),
        (r.image? q.name).map (Path.join base)) := by
  have hname : (r.settle q).name = q.name := congrArg Prod.fst (r.settle_outline q)
  cases hfile : r.image? q.name with
  | none =>
    have hnone : q.name ∉ r.images.map Prod.fst := find?_key_eq_none_iff.mp hfile
    have hsettles := Document.settles_settle r hpath himage
    rw [fill, Param.applyEntries_of_notMem (hname ▸ hnone), hsettles.image,
      hsettles.path_default hnone]
    rfl
  | some path =>
    have hmem : (q.name, path) ∈ r.images := (find?_key_eq_some_iff hkeys).mp hfile
    rw [fill,
      Param.applyEntries_of_mem (f := files.load base) (fun _ _ => rfl) hkeys (hname ▸ hmem)]
    rfl

end NodeRecord

/-- The image parameters of a node, with their images and files. -/
def Node.pictures {β : Type} (n : Node β) : List (String × Option Image × Option String) :=
  (n.params.filter (·.kind = .image)).map fun p => (p.name, p.image, p.path)

namespace Document

/-- A node of an opened document, told from its record. -/
theorem node_opened {d : Document} {files : Store} {base : String} {i : Nat} {n : Node Builtin}
    (hn : (d.opened files base).nodes[i]? = some n) :
    ∃ r, d.nodes[i]? = some r ∧ n.behavior = r.builtin ∧
      n.params = r.builtin.operator.ports.params.map (r.fill files base) := by
  rw [opened, Graph.clearChanges, loaded, List.getElem?_map, List.getElem?_mapIdx,
    getElem?_graph] at hn
  cases hr : d.nodes[i]? with
  | none =>
    rw [hr] at hn
    cases hn
  | some r =>
    rw [hr] at hn
    cases hn
    refine ⟨r, rfl, rfl, ?_⟩
    show (r.builtin.operator.ports.params.map r.settle).map _ = _
    rw [List.map_map]
    rfl

theorem nodup_opened {d : Document} {files : Store} {base : String} {i : Nat} {n : Node Builtin}
    (hn : (d.opened files base).nodes[i]? = some n) : (n.params.map (·.name)).Nodup := by
  obtain ⟨r, _, _, hparams⟩ := node_opened hn
  have hsame : n.params.map (·.name) = r.builtin.operator.ports.params.map (·.name) := by
    rw [hparams, List.map_map]
    exact List.map_congr_left fun q _ => congrArg Prod.fst (r.fill_outline files base q)
  rw [hsame]
  exact r.builtin.sorted_params.imp fun hlt => ne_of_lt hlt

theorem length_opened (d : Document) (files : Store) (base : String) :
    (d.opened files base).nodes.length = d.nodes.length := by
  simp [opened, Graph.clearChanges, loaded, graph, wired, unwired]

/-- The pictures of a node depend on the operator of its record and on the recorded files only. -/
theorem pictures_opened {d : Document} (hkeys : ∀ r ∈ d.nodes, (r.images.map Prod.fst).Nodup)
    {files : Store} {base : String} {i : Nat} {n : Node Builtin} {r : NodeRecord}
    (hn : (d.opened files base).nodes[i]? = some n) (hr : d.nodes[i]? = some r) :
    n.pictures = (r.builtin.operator.ports.params.filter (·.kind = .image)).map fun q =>
      (q.name, (r.image? q.name).bind fun path => files.readImage? (Path.join base path),
        (r.image? q.name).map (Path.join base)) := by
  obtain ⟨_, hr', _, hparams⟩ := node_opened hn
  cases hr.symm.trans hr'
  have houtline := fun q => Prod.mk.inj (r.fill_outline files base q)
  rw [Node.pictures, hparams, List.filter_map, List.map_map]
  have hfilter : ((fun p : Param => decide (p.kind = .image)) ∘ r.fill files base) =
      fun q => decide (q.kind = .image) := by
    funext q
    simp only [Function.comp, (houtline q).2]
  rw [hfilter]
  refine List.map_congr_left fun q hq => ?_
  have hmem := (List.mem_filter.mp hq).1
  refine Prod.ext (houtline q).1 ?_
  exact NodeRecord.fill_picture (hkeys r (List.mem_of_getElem? hr)) files base
    (r.builtin.path_params q hmem) (r.builtin.image_params q hmem)

theorem node_ofGraph {g : Graph Builtin} {i : Nat} {r : NodeRecord} :
    (ofGraph g).nodes[i]? = some r ↔ ∃ n, g.nodes[i]? = some n ∧ NodeRecord.ofNode n = r := by
  rw [ofGraph, List.getElem?_map, Option.map_eq_some_iff]

/-- The second document records for every image parameter the file of the first one, changed by
`f`. -/
structure Refers (f : String → String) (d d' : Document) : Prop where
  length : d'.nodes.length = d.nodes.length
  image? : ∀ (i : Nat) (r r' : NodeRecord), d.nodes[i]? = some r → d'.nodes[i]? = some r' →
    ∀ name ∈ r.builtin.imageNames, r'.image? name = (r.image? name).map f

/-- **What is saved** of an opened document are the files that its images were read from. -/
theorem refers_opened {d : Document} (hkeys : ∀ r ∈ d.nodes, (r.images.map Prod.fst).Nodup)
    (files : Store) (base : String) :
    Refers (Path.join base) d (ofGraph (d.opened files base)) where
  length := by
    show ((d.opened files base).nodes.map NodeRecord.ofNode).length = _
    rw [List.length_map, length_opened]
  image? := by
    intro i r r' hr hr' name hname
    obtain ⟨n, hn, rfl⟩ := node_ofGraph.mp hr'
    obtain ⟨_, hrecord, _, hparams⟩ := node_opened hn
    cases hr.symm.trans hrecord
    obtain ⟨q, hq, hkind, rfl⟩ := Builtin.mem_imageNames.mp hname
    obtain ⟨hfillName, hfillKind⟩ := Prod.mk.inj (r.fill_outline files base q)
    have hmem : r.fill files base q ∈ n.params := hparams ▸ List.mem_map_of_mem hq
    have hsaved := NodeRecord.image?_ofNode (nodup_opened hn) hmem (hfillKind.trans hkind)
    rw [hfillName] at hsaved
    rw [hsaved]
    exact congrArg Prod.snd (NodeRecord.fill_picture (hkeys r (List.mem_of_getElem? hr)) files base
      (r.builtin.path_params q hq) (r.builtin.image_params q hq))

section Resaved

variable {d : Document} {files : Store} {base : String}
  (hsame : Refers id d (ofGraph (d.opened files base)))
include hsame

/-- The recorded files of a document that is saved as it was can be read as before. -/
theorem Refers.readable (hkeys : ∀ r ∈ d.nodes, (r.images.map Prod.fst).Nodup)
    (h : ∀ r ∈ d.nodes, ∀ e ∈ r.images, (files.readImage? (Path.join base e.2)).isSome = true) :
    ∀ r ∈ (ofGraph (d.opened files base)).nodes, ∀ e ∈ r.images,
      (files.readImage? (Path.join base e.2)).isSome = true := by
  intro r' hr' e he
  obtain ⟨i, hi⟩ := List.getElem?_of_mem hr'
  obtain ⟨n, hn, rfl⟩ := node_ofGraph.mp hi
  obtain ⟨r, hr, _, hparams⟩ := node_opened hn
  -- the entry belongs to an image parameter, and that has its file from the record
  obtain ⟨p, hp, hkind, hpath, hname⟩ := NodeRecord.mem_images_ofNode.mp he
  obtain ⟨q, hq, rfl⟩ := List.mem_map.mp (hparams ▸ hp)
  obtain ⟨hfillName, hfillKind⟩ := Prod.mk.inj (r.fill_outline files base q)
  have hsaved := hsame.image? i r _ hr hi q.name
    (Builtin.mem_imageNames.mpr ⟨q, hq, hfillKind.symm.trans hkind, rfl⟩)
  rw [← hfillName, NodeRecord.image?_ofNode (nodup_opened hn) hp hkind, hpath, hfillName,
    Option.map_id, id] at hsaved
  have hmem : (q.name, e.2) ∈ r.images :=
    (find?_key_eq_some_iff (hkeys r (List.mem_of_getElem? hr))).mp hsaved.symm
  exact h r (List.mem_of_getElem? hr) (q.name, e.2) hmem

/-- Such a document shows the same images. -/
theorem Refers.pictures (hkeys : ∀ r ∈ d.nodes, (r.images.map Prod.fst).Nodup) :
    ((ofGraph (d.opened files base)).opened files base).nodes.map Node.pictures =
      (d.opened files base).nodes.map Node.pictures := by
  have hkeys' : ∀ r ∈ (ofGraph (d.opened files base)).nodes, (r.images.map Prod.fst).Nodup := by
    intro r' hr'
    obtain ⟨i, hi⟩ := List.getElem?_of_mem hr'
    obtain ⟨n, hn, rfl⟩ := node_ofGraph.mp hi
    exact (NodeRecord.images_sublist n).nodup (nodup_opened hn)
  have hlength : ((ofGraph (d.opened files base)).opened files base).nodes.length =
      (d.opened files base).nodes.length :=
    (length_opened _ files base).trans (List.length_map _)
  apply List.ext_getElem?
  intro i
  rw [List.getElem?_map, List.getElem?_map]
  cases hn : (d.opened files base).nodes[i]? with
  | none =>
    rw [List.getElem?_eq_none_iff, ← hlength, ← List.getElem?_eq_none_iff] at hn
    rw [hn]
  | some n =>
    have hi : i < ((ofGraph (d.opened files base)).opened files base).nodes.length :=
      hlength ▸ (List.getElem?_eq_some_iff.mp hn).1
    obtain ⟨m, hm⟩ : ∃ m, ((ofGraph (d.opened files base)).opened files base).nodes[i]? = some m :=
      ⟨_, List.getElem?_eq_getElem hi⟩
    obtain ⟨r, hr, hbuiltin, _⟩ := node_opened hn
    have hr' : (ofGraph (d.opened files base)).nodes[i]? = some (.ofNode n) :=
      node_ofGraph.mpr ⟨n, hn, rfl⟩
    rw [hm, Option.map_some, Option.map_some, pictures_opened hkeys' hm hr',
      pictures_opened hkeys hn hr,
      show (NodeRecord.ofNode n).builtin = r.builtin from hbuiltin]
    refine congrArg some (List.map_congr_left fun q hq => ?_)
    obtain ⟨hmem, hkind⟩ := List.mem_filter.mp hq
    have hfile := hsame.image? i r _ hr hr' q.name
      (Builtin.mem_imageNames.mpr ⟨q, hmem, of_decide_eq_true hkind, rfl⟩)
    rw [Option.map_id, id] at hfile
    rw [hfile]

end Resaved

/-- Files are recorded as before exactly if they do not depend on the directory. -/
theorem refers_id_iff {d d' : Document} {base : String} (h : Refers (Path.join base) d d') :
    Refers id d d' ↔ ∀ r ∈ d.nodes, ∀ name ∈ r.builtin.imageNames, ∀ path,
      r.image? name = some path → base = "" ∨ path.startsWith "/" = true := by
  constructor
  · intro hsame r hr name hname path hpath
    obtain ⟨i, hi⟩ := List.getElem?_of_mem hr
    have hlt : i < d'.nodes.length := h.length ▸ (List.getElem?_eq_some_iff.mp hi).1
    have hjoined := h.image? i r _ hi (List.getElem?_eq_getElem hlt) name hname
    have hkept := hsame.image? i r _ hi (List.getElem?_eq_getElem hlt) name hname
    rw [hjoined, hpath] at hkept
    exact Path.join_eq_self_iff.mp (Option.some.inj hkept)
  · intro hfree
    refine ⟨h.length, fun i r r' hr hr' name hname => ?_⟩
    rw [h.image? i r r' hr hr' name hname]
    cases hpath : r.image? name with
    | none => rfl
    | some path =>
      have hjoin :=
        Path.join_eq_self_iff.mpr (hfree r (List.mem_of_getElem? hr) name hname path hpath)
      exact congrArg some hjoin

end Document

/-- **Saving what was opened.** For every image parameter the file is recorded that its image was
read from. That is the path of the document only if the directory does not matter for it. If none of
the paths depends on the directory, what is saved can be opened from there again, with the same
images. -/
theorem Session.openDocument_resaves {δ π : Type} (d : Document) (base : String)
    (hkeys : ∀ r ∈ d.nodes, (r.images.map Prod.fst).Nodup) {s s' : Session δ π Builtin}
    (h : (openDocument d base).Returns s () s') :
    Document.Refers (Path.join base) d (.ofGraph s'.graph) ∧
    (Document.Refers id d (.ofGraph s'.graph) ↔
      ∀ r ∈ d.nodes, ∀ name ∈ r.builtin.imageNames, ∀ path, r.image? name = some path →
        base = "" ∨ path.startsWith "/" = true) ∧
    (Document.Refers id d (.ofGraph s'.graph) →
      ∀ t : Session δ π Builtin, t.files = s.files →
        ∃ t', (openDocument (.ofGraph s'.graph) base).Returns t () t' ∧
          t'.graph.nodes.map Node.pictures = s'.graph.nodes.map Node.pictures) := by
  have hsound : Document.Sound s'.graph := sound_openDocument h
  obtain ⟨_, hreadable, rfl⟩ := openDocument_returns_iff.mp h
  have hrefers := Document.refers_opened hkeys s.files base
  refine ⟨hrefers, Document.refers_id_iff hrefers, fun hsame t ht => ?_⟩
  refine ⟨_, openDocument_returns_iff.mpr ⟨hsound.coherent, ?_, rfl⟩, ?_⟩
  · rw [ht]
    exact hsame.readable hkeys hreadable
  · show ((Document.ofGraph (d.opened s.files base)).opened t.files base).nodes.map Node.pictures =
      _
    rw [ht]
    exact hsame.pictures hkeys

/-- A document with one image. -/
def Document.pictured (path : String) : Document where
  nodes := [{ id := 4, builtin := .imageInput, images := [("Image", path)] }]

/-- A session without a device, next to one image file. -/
def Session.beside (path : String) : Session Unit Unit Builtin where
  device := ()
  files := Store.place {} path (.picture (.png ⟨1, 1⟩ [10, 20, 30, 40]))

/-- The session after a document from the directory `sub` has been opened. -/
def Session.afterOpening (d : Document) (file : String) : Session Unit Unit Builtin :=
  ((openDocument d "sub").run (beside file)).state

/-- An absolute path stays as it is, and the image is found again. -/
theorem Session.pictured_resaved :
    (openDocument (.pictured "/b.png") "sub").Returns (beside "/b.png") ()
      (afterOpening (.pictured "/b.png") "/b.png") ∧
    Document.Refers id (.pictured "/b.png")
      (.ofGraph (afterOpening (.pictured "/b.png") "/b.png").graph) ∧
    ∃ t', (openDocument (.ofGraph (afterOpening (.pictured "/b.png") "/b.png").graph) "sub").Returns
        (beside "/b.png") () t' ∧
      t'.graph.nodes.map Node.pictures =
        (afterOpening (.pictured "/b.png") "/b.png").graph.nodes.map Node.pictures := by
  have hopened : (openDocument (.pictured "/b.png") "sub").Returns (beside "/b.png") ()
      (afterOpening (.pictured "/b.png") "/b.png") := ⟨by decide +kernel, rfl⟩
  have hkeys : ∀ r ∈ (Document.pictured "/b.png").nodes, (r.images.map Prod.fst).Nodup := by decide
  obtain ⟨_, hiff, hagain⟩ := openDocument_resaves _ _ hkeys hopened
  have hsame := hiff.mpr <| by
    intro r hr name hname path hpath
    obtain rfl := List.mem_singleton.mp hr
    obtain rfl : name = "Image" := List.mem_singleton.mp hname
    obtain rfl : "/b.png" = path := Option.some.inj hpath
    exact Or.inr (by decide +kernel)
  exact ⟨hopened, hsame, hagain hsame _ rfl⟩

/-- A relative path is saved with the directory before it, and is then looked for in the directory
of that name within the directory. -/
theorem Session.pictured_misplaced :
    (openDocument (.pictured "b.png") "sub").Returns (beside "sub/b.png") ()
      (afterOpening (.pictured "b.png") "sub/b.png") ∧
    Document.ofGraph (afterOpening (.pictured "b.png") "sub/b.png").graph =
      { nodes := [{ id := 0, builtin := .imageInput, images := [("Image", "sub/b.png")] }] } ∧
    ¬ Document.Refers id (.pictured "b.png")
      (.ofGraph (afterOpening (.pictured "b.png") "sub/b.png").graph) ∧
    ((openDocument (.ofGraph (afterOpening (.pictured "b.png") "sub/b.png").graph) "sub").run
      (beside "sub/b.png")).result = .error (.unreadableImage "sub/sub/b.png") := by
  have hsaved : Document.ofGraph (afterOpening (.pictured "b.png") "sub/b.png").graph =
      { nodes := [{ id := 0, builtin := .imageInput, images := [("Image", "sub/b.png")] }] } := by
    decide +kernel
  refine ⟨⟨by decide +kernel, rfl⟩, hsaved, fun hsame => ?_, by decide +kernel⟩
  rw [hsaved] at hsame
  have hfile := hsame.image? 0 _ _ rfl rfl "Image" (by decide)
  exact absurd hfile (by decide)

end Texel
