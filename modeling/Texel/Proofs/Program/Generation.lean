import Texel.Proofs.Program.Blueprint

/-!
# Texel — generation follows the blueprint

Generation goes over the evaluation order twice. The first pass collects the libraries and declares
uniforms and outputs; the second one writes the call of every node, after the functions that the
call needs. For either pass there is an invariant of the draft, and a step lemma; nothing on the way
can fail.

* **`Prepared`**, **`prepare_step`** — the first pass.
* **`Emitted`**, **`Emitted.step`** — the second pass.
* **`build_returns`** — the program that comes out.
-/

namespace Texel

namespace Glsl.Emitter

/-- The emitter after lines have been written at the innermost place. -/
def written (e : Emitter) (lines : List Line) : Emitter :=
  match e.blocks with
  | [] => { e with body := e.body ++ lines.map .line }
  | block :: outer => { e with blocks := { block with lines := block.lines ++ lines } :: outer }

theorem written_nil (e : Emitter) : e.written [] = e := by
  cases e with
  | mk uniforms definitions body blocks functions pasted =>
    cases blocks with
    | nil => simp [written]
    | cons block outer => simp [written]

theorem written_written (e : Emitter) (lines more : List Line) :
    (e.written lines).written more = e.written (lines ++ more) := by
  cases e with
  | mk uniforms definitions body blocks functions pasted =>
    cases blocks with
    | nil => simp [written]
    | cons block outer => simp [written]

theorem written_of_closed {e : Emitter} (h : e.blocks = []) (lines : List Line) :
    e.written lines = { e with body := e.body ++ lines.map .line } := by
  rw [written, h]

theorem written_frame (e : Emitter) (lines : List Line) :
    (e.written lines).functions = e.functions ∧ (e.written lines).pasted = e.pasted := by
  unfold written
  cases e.blocks with
  | nil => exact ⟨rfl, rfl⟩
  | cons block outer => exact ⟨rfl, rfl⟩

theorem append_returns (line : Line) (e : Emitter) :
    (append line).Returns e () (e.written [line]) := by
  have hsame : appendLine line e = e.written [line] := by
    unfold appendLine written
    cases e.blocks with
    | nil => rfl
    | cons block outer => rfl
  rw [← hsame]
  exact .update _ e

theorem closeBlock_returns {e : Emitter} {block : Block} {outer : List Block}
    (h : e.blocks = block :: outer) :
    (closeBlock .definitions).Returns e () { e with
      blocks := outer
      definitions := e.definitions ++ [.block block.signature block.lines] } := by
  refine (Action.Returns.state e).bind ?_
  rw [h]
  exact .update _ e

end Glsl.Emitter

namespace Program

open Glsl Builtin

variable {g : Graph Builtin} {order done : List Nat} {id : Nat} {n : Node Builtin}

/-! ## Small steps -/

theorem emitting_returns {α : Type} {x : Action Emitter CodeError α} {d : Draft} {a : α}
    {e : Emitter} (h : x.Returns d.emitter a e) :
    (emitting x).Returns d a { d with emitter := e } :=
  h.within

theorem nodeOf_returns (hn : g.node? id = some n) (d : Draft) : (nodeOf g id).Returns d n d :=
  .ofOption hn _ d

def Draft.written (d : Draft) (lines : List Line) : Draft :=
  { d with emitter := d.emitter.written lines }

theorem append_returns (line : Line) (d : Draft) :
    (emitting (Emitter.append line)).Returns d () (d.written [line]) :=
  emitting_returns (Emitter.append_returns line d.emitter)

/-- A loop that writes the lines of one item after another. -/
theorem each_written {α : Type} {f : α → Generation Unit} {lines : α → List Line} {xs : List α}
    {P : Draft → Prop} (hP : ∀ d ls, P d → P (d.written ls))
    (hf : ∀ x ∈ xs, ∀ d, P d → (f x).Returns d () (d.written (lines x))) {d : Draft} (hd : P d) :
    (Action.each f xs).Returns d () (d.written (xs.flatMap lines)) := by
  induction xs generalizing d with
  | nil =>
    have hsame : d.written [] = d := by rw [Draft.written, Emitter.written_nil]
    rw [List.flatMap_nil, hsame]
    exact .each_nil f d
  | cons x xs ih =>
    rw [List.forall_mem_cons] at hf
    have hwritten : (d.written (lines x)).written (xs.flatMap lines) =
        d.written ((x :: xs).flatMap lines) := by
      rw [List.flatMap_cons]
      simp only [Draft.written, Emitter.written_written]
    rw [← hwritten]
    exact .each_cons (hf.1 d hd) (ih hf.2 (hP d _ hd))

theorem declareVariable_returns {kind : Kind} (hkind : kind ≠ .none) (name : String) (d : Draft) :
    (emitting (Emitter.declareVariable kind name)).Returns d ()
    (d.written [.declare kind.held name]) := by
  have hnumeric : kind.held.isNumeric = true := by
    cases kind with
    | none => exact absurd rfl hkind
    | _ => rfl
  rw [Emitter.declareVariable, if_pos hnumeric]
  exact append_returns _ d

theorem Planned.declareOutputs_returns (h : Planned g order) (hn : g.node? id = some n)
    (d : Draft) :
    (declareOutputs g id).Returns d () (d.written (declarations g id)) := by
  refine (nodeOf_returns hn d).bind ?_
  rw [declarations_eq hn, List.map_eq_flatMap]
  refine each_written (P := fun _ => True) (fun _ _ _ => trivial) (fun s hs d _ => ?_) trivial
  exact declareVariable_returns (h.output_kind hn hs) _ d

/-! ## Operators of the nodes that are done -/

theorem mem_operators {b : Builtin} {ids : List Nat} :
    b ∈ operators g ids ↔ ∃ id ∈ ids, ∃ n, g.node? id = some n ∧ n.behavior = b := by
  simp only [operators, List.mem_map, List.mem_filterMap]
  constructor
  · rintro ⟨n, ⟨id, hid, hn⟩, hb⟩
    exact ⟨id, hid, n, hn, hb⟩
  · rintro ⟨id, hid, n, hn, hb⟩
    exact ⟨n, ⟨id, hid, hn⟩, hb⟩

theorem operators_snoc (hn : g.node? id = some n) (done : List Nat) :
    operators g (done ++ [id]) = operators g done ++ [n.behavior] := by
  simp [operators, hn]

/-! ## Libraries -/

/-- The libraries of `collected` have been put together, each once, for the nodes that are done. -/
structure Gathered (g : Graph Builtin) (done : List Nat) (collected : List Builtin) (d : Draft) :
    Prop where
  nodup : collected.Nodup
  mem_iff : ∀ b, b ∈ collected ↔ b ∈ operators g done ∧ b ≠ heightGradient
  included : d.included = collected.reverse.map (·.operator.function)
  complete : Complete d.library
  entries : entries d.library = collected.flatMap entriesOf

theorem function_injective {b c : Builtin} (h : b.operator.function = c.operator.function) :
    b = c := by
  have hall : ∀ b ∈ all, ∀ c ∈ all, b.operator.function = c.operator.function → b = c := by
    decide +kernel
  exact hall b b.mem_all c c.mem_all h

theorem gathered_empty (g : Graph Builtin) : Gathered g [] [] {} where
  nodup := .nil
  mem_iff b := by simp [operators]
  included := rfl
  complete := complete_empty
  entries := List.map_eq_nil_iff.mp holds_empty.headings

/-- A library that ends before the next one starts. -/
theorem entries_append_library {a b : String} (ha : Complete a) (hb : Complete b) :
    Complete (a ++ b ++ "\n") ∧ entries (a ++ b ++ "\n") = entries a ++ entries b := by
  have hab : Complete (a ++ b) := ha.append hb
  have hnewline : entries "\n" = [] := List.map_eq_nil_iff.mp holds_newline.headings
  refine ⟨hab.append holds_newline.toComplete, ?_⟩
  rw [entries_append hab, entries_append ha, hnewline, List.append_nil]

/-- A node that needs no library of its own. -/
theorem Gathered.keep {collected : List Builtin} {d : Draft} (h : Gathered g done collected d)
    (hn : g.node? id = some n) (hskip : n.behavior = heightGradient ∨ n.behavior ∈ collected) :
    Gathered g (done ++ [id]) collected d where
  nodup := h.nodup
  mem_iff b := by
    rw [h.mem_iff b, operators_snoc hn, List.mem_append, List.mem_singleton]
    refine and_congr_left fun hb => ⟨Or.inl, ?_⟩
    rintro (hold | rfl)
    · exact hold
    · rcases hskip with hskip | hskip
      · exact absurd hskip hb
      · exact ((h.mem_iff _).mp hskip).1
  included := h.included
  complete := h.complete
  entries := h.entries

/-- The first node of an operator. -/
theorem Gathered.add {collected : List Builtin} {d : Draft} (h : Gathered g done collected d)
    (hn : g.node? id = some n) (hsingle : n.behavior ≠ heightGradient)
    (hnew : n.behavior ∉ collected) :
    Gathered g (done ++ [id]) (collected ++ [n.behavior])
      { d with
        included := n.behavior.operator.function :: d.included
        library := d.library ++ n.behavior.operator.library ++ "\n" } := by
  obtain ⟨hcomplete, hentries⟩ :=
    entries_append_library h.complete n.behavior.library_holds.toComplete
  refine ⟨?_, fun b => ?_, ?_, hcomplete, ?_⟩
  · exact h.nodup.append (List.nodup_singleton _) (List.disjoint_singleton.mpr hnew)
  · rw [List.mem_append, List.mem_singleton, h.mem_iff b, operators_snoc hn, List.mem_append,
      List.mem_singleton]
    constructor
    · rintro (⟨hb, hne⟩ | rfl)
      · exact ⟨Or.inl hb, hne⟩
      · exact ⟨Or.inr rfl, hsingle⟩
    · rintro ⟨hb | hb, hne⟩
      · exact Or.inl ⟨hb, hne⟩
      · exact Or.inr hb
  · simp [h.included]
  · rw [hentries, h.entries, List.flatMap_append, List.flatMap_singleton]
    rfl

theorem Gathered.contains_iff {collected : List Builtin} {d : Draft}
    (h : Gathered g done collected d) (b : Builtin) :
    d.included.contains b.operator.function = true ↔ b ∈ collected := by
  rw [List.contains_iff_mem, h.included, List.mem_map]
  constructor
  · rintro ⟨c, hc, hfunction⟩
    exact function_injective hfunction ▸ List.mem_reverse.mp hc
  · exact fun hb => ⟨b, List.mem_reverse.mpr hb, rfl⟩

/-- One more node: its library is there, or is added. -/
theorem Gathered.step {collected : List Builtin} {d : Draft} (h : Gathered g done collected d)
    (hn : g.node? id = some n) :
    ∃ collected' d', (collectLibrary g id).Returns d () d' ∧
      Gathered g (done ++ [id]) collected' d' ∧ d'.emitter = d.emitter ∧ d'.uploads = d.uploads ∧
      d'.nextSlot = d.nextSlot := by
  have hoperator : (g.node? id).map (fun n => Operable.operator n.behavior) =
      some n.behavior.operator := by rw [hn]; rfl
  rw [collectLibrary, hoperator]
  simp only
  by_cases hmulti : n.behavior = heightGradient
  · rw [if_pos ((multiPass_iff _).mpr hmulti)]
    exact ⟨collected, d, .pure () d, h.keep hn (Or.inl hmulti), rfl, rfl, rfl⟩
  · rw [if_neg (mt (multiPass_iff _).mp hmulti)]
    by_cases hold : n.behavior ∈ collected
    · refine ⟨collected, d, .update_of ?_, h.keep hn (Or.inr hold), rfl, rfl, rfl⟩
      rw [if_pos ((h.contains_iff _).mpr hold)]
    · refine ⟨_, _, .update_of ?_, h.add hn hmulti hold, rfl, rfl, rfl⟩
      rw [if_neg (mt (h.contains_iff _).mp hold)]

/-! ## Uniforms -/

/-- The upload of a parameter of a node. -/
inductive IsUpload : Nat × Param → Upload → Prop
  | value {id : Nat} {p : Param} (hkind : p.kind ≠ .image) :
    IsUpload (id, p) (.value (uniformName id p.name) id p.name p.kind)
  | image {id : Nat} {p : Param} (hkind : p.kind = .image) (slot : Nat) :
    IsUpload (id, p)
      (.image (uniformName id p.name) (flagName (uniformName id p.name)) slot id p.name)

/-- The uniforms that an upload fills. -/
def Upload.uniforms : Upload → List UniformDecl
  | .value uniform _ _ kind => [.member uniform kind.typeName]
  | .image uniform flag slot _ _ => [.image uniform slot, .member flag "int"]

/-- The slot that an upload fills. -/
def Upload.slot? : Upload → Option Nat
  | .value .. => none
  | .image _ _ slot _ _ => some slot

/-- The draft after uploads have been added. -/
def Draft.uploading (d : Draft) (us : List Upload) (nextSlot : Nat) : Draft :=
  { d with
    emitter := { d.emitter with uniforms := d.emitter.uniforms ++ us.flatMap Upload.uniforms }
    uploads := d.uploads ++ us
    nextSlot }

/-- The parameters of some nodes. -/
def parameters (g : Graph Builtin) (ids : List Nat) : List (Nat × Param) :=
  ids.flatMap fun id => ((g.node? id).map fun n => n.params.map (id, ·)).getD []

theorem parameters_snoc (hn : g.node? id = some n) (done : List Nat) :
    parameters g (done ++ [id]) = parameters g done ++ n.params.map (id, ·) := by
  simp [parameters, hn]

theorem declareParam_returns (id : Nat) {p : Param} (hp : p.kind ≠ .none) (d : Draft) :
    ∃ u count, IsUpload (id, p) u ∧ [u].filterMap Upload.slot? = List.range' d.nextSlot count ∧
      (declareParam id p).Returns d () (d.uploading [u] (d.nextSlot + count)) := by
  by_cases himage : p.kind = .image
  · refine ⟨_, 1, .image himage d.nextSlot, rfl, ?_⟩
    rw [declareParam, himage]
    refine (Action.Returns.state d).bind ?_
    refine (Action.Returns.update _ d).bind ?_
    refine (emitting_returns (Action.Returns.update _ _)).bind ?_
    refine (emitting_returns (Action.Returns.update _ _)).bind ?_
    refine .update_of ?_
    simp [Draft.uploading, Upload.uniforms]
  · refine ⟨_, 0, .value himage, rfl, ?_⟩
    have hdeclare : Emitter.declareUniform p.kind (uniformName id p.name) 0 = .update fun e =>
        { e with uniforms := e.uniforms ++ [.member (uniformName id p.name) p.kind.typeName] } := by
      unfold Emitter.declareUniform
      cases hkind : p.kind <;> first | rfl | exact absurd hkind himage | exact absurd hkind hp
    have hreturns : (do
        emitting (Emitter.declareUniform p.kind (uniformName id p.name) 0)
        Action.update fun d => { d with
          uploads := d.uploads ++ [.value (uniformName id p.name) id p.name p.kind] } :
          Generation Unit).Returns d ()
        (d.uploading [.value (uniformName id p.name) id p.name p.kind] d.nextSlot) := by
      rw [hdeclare]
      refine (emitting_returns (Action.Returns.update _ _)).bind (.update_of ?_)
      simp [Draft.uploading, Upload.uniforms]
    rw [declareParam]
    cases hkind : p.kind with
    | image => exact absurd hkind himage
    | none => exact absurd hkind hp
    | _ => rw [hkind] at hreturns; exact hreturns

/-- All parameters of a node. -/
theorem declareParams_returns (id : Nat) {ps : List Param} (hps : ∀ p ∈ ps, p.kind ≠ .none)
    (d : Draft) :
    ∃ us count, List.Forall₂ IsUpload (ps.map (id, ·)) us ∧
      us.filterMap Upload.slot? = List.range' d.nextSlot count ∧
      (Action.each (declareParam id) ps).Returns d () (d.uploading us (d.nextSlot + count)) := by
  induction ps generalizing d with
  | nil =>
    refine ⟨[], 0, .nil, rfl, ?_⟩
    have hsame : d.uploading [] (d.nextSlot + 0) = d := by simp [Draft.uploading]
    rw [hsame]
    exact .each_nil _ d
  | cons p ps ih =>
    rw [List.forall_mem_cons] at hps
    obtain ⟨u, count, hu, hslot, hfirst⟩ := declareParam_returns id hps.1 d
    obtain ⟨us, more, hus, hslots, hrest⟩ := ih hps.2 (d.uploading [u] (d.nextSlot + count))
    refine ⟨u :: us, count + more, .cons hu hus, ?_, ?_⟩
    · rw [← List.singleton_append, List.filterMap_append, hslot, hslots, ← List.range'_append_1]
      rfl
    · have hboth : (d.uploading [u] (d.nextSlot + count)).uploading us (d.nextSlot + count + more) =
          d.uploading (u :: us) (d.nextSlot + (count + more)) := by
        simp [Draft.uploading, Nat.add_assoc]
      rw [← hboth]
      exact .each_cons hfirst hrest

/-! ## The first pass -/

/-- The draft after the first pass over the nodes that are done. -/
structure Prepared (g : Graph Builtin) (done : List Nat) (collected : List Builtin) (d : Draft) :
    Prop where
  gathered : Gathered g done collected d
  uploads : List.Forall₂ IsUpload (parameters g done) d.uploads
  slots : ∃ count, d.uploads.filterMap Upload.slot? = List.range' 1 count ∧ d.nextSlot = 1 + count
  emitter : d.emitter =
    { uniforms := d.uploads.flatMap Upload.uniforms
      body := (done.flatMap (declarations g)).map .line }

theorem Planned.prepare_step (h : Planned g order) (hn : g.node? id = some n)
    {collected : List Builtin} {d : Draft} (hd : Prepared g done collected d) :
    ∃ collected' d', (do
      collectLibrary g id
      declareUniforms g id
      declareOutputs g id : Generation Unit).Returns d () d' ∧
      Prepared g (done ++ [id]) collected' d' := by
  obtain ⟨collected', d₁, hcollect, hgathered, hemitter, huploads, hnext⟩ := hd.gathered.step hn
  obtain ⟨us, more, hus, hslots, hdeclare⟩ :=
    declareParams_returns id (fun p hp => h.param_kind hn hp) d₁
  refine ⟨collected', (d₁.uploading us (d₁.nextSlot + more)).written (declarations g id), ?_, ?_⟩
  · have huniforms : (declareUniforms g id).Returns d₁ () (d₁.uploading us (d₁.nextSlot + more)) :=
      (nodeOf_returns hn d₁).bind hdeclare
    exact hcollect.bind (huniforms.bind (h.declareOutputs_returns hn _))
  · refine ⟨⟨hgathered.nodup, hgathered.mem_iff, hgathered.included, hgathered.complete,
      hgathered.entries⟩, ?_, ?_, ?_⟩
    · rw [parameters_snoc hn]
      show List.Forall₂ IsUpload _ (d₁.uploads ++ us)
      rw [huploads]
      exact List.rel_append hd.uploads hus
    · obtain ⟨count, hbefore, hcount⟩ := hd.slots
      refine ⟨count + more, ?_, ?_⟩
      · show (d₁.uploads ++ us).filterMap Upload.slot? = _
        rw [List.filterMap_append, huploads, hbefore, hslots, hnext, hcount, List.range'_append_1]
      · show d₁.nextSlot + more = _
        rw [hnext, hcount, Nat.add_assoc]
    · simp only [Draft.written, Draft.uploading, Emitter.written, huploads, hemitter, hd.emitter,
        List.flatMap_append, List.map_append, List.flatMap_singleton]

theorem Planned.prepare (h : Planned g order) :
    ∃ collected d, (Action.each (fun id => do
      collectLibrary g id
      declareUniforms g id
      declareOutputs g id : Nat → Generation Unit) order).Returns {} () d ∧
      Prepared g order collected d := by
  have hstart : ∃ collected, Prepared g [] collected {} :=
    ⟨[], gathered_empty g, .nil, ⟨0, rfl, rfl⟩, rfl⟩
  obtain ⟨d, hreturns, collected, hd⟩ := Action.Returns.each
    (P := fun done d => ∃ collected, Prepared g done collected d)
    (fun done id rest (hdone : _ = order) d hd => by
      obtain ⟨collected, hd⟩ := hd
      obtain ⟨n, hn⟩ := h.exists_node (show id ∈ order by rw [← hdone]; simp)
      obtain ⟨collected', d', hreturns, hd'⟩ := h.prepare_step hn hd
      exact ⟨d', hreturns, collected', hd'⟩) hstart
  exact ⟨collected, d, hreturns, hd⟩

/-! ## Calls -/

theorem calleeName_single (h : n.behavior ≠ heightGradient) :
    calleeName n = n.behavior.operator.function :=
  if_neg (mt (multiPass_iff n.behavior).mp h)

theorem calleeName_multi (h : n.behavior = heightGradient) :
    calleeName n = specialisedName gradient n.id := by
  have hpass : (Operable.operator n.behavior).multiPass = true := (multiPass_iff _).mpr h
  rw [calleeName]
  simp only [hpass, if_true]
  rw [h]
  rfl

/-- The library at hand is that of the operators `collected` and the multi-pass nodes `nodes`. -/
structure Stocked (collected : List Builtin) (nodes : List Nat) (d : Draft) : Prop where
  nodup : collected.Nodup
  single : heightGradient ∉ collected
  nodup_nodes : nodes.Nodup
  complete : Complete d.library
  entries : entries d.library = table collected nodes
  functions : d.emitter.functions = functionsIn d.library

variable {collected : List Builtin} {nodes : List Nat} {d : Draft}

theorem Stocked.written (hd : Stocked collected nodes d) (lines : List Line) :
    Stocked collected nodes (d.written lines) :=
  { hd with functions := (Emitter.written_frame d.emitter lines).1.trans hd.functions }

/-- There are as many functions as entries, or more. -/
theorem Stocked.length_le (hd : Stocked collected nodes d) :
    (table collected nodes).length ≤ d.emitter.functions.length := by
  rw [← hd.entries, hd.functions]
  exact List.length_filterMap_le _ _

/-- The entry of the function of an operator. -/
theorem exists_find?_entriesOf (b : Builtin) :
    ∃ entry, Entry.find? b.entriesOf b.operator.function = some entry ∧
      entry.parameters = b.signature := by
  have hmem : ⟨b.operator.function, b.signature, b.calls⟩ ∈ b.entriesOf.map (·.toHeading) := by
    rw [map_toHeading_entriesOf, headings]
    simp
  obtain ⟨entry, hentry, hheading⟩ := List.mem_map.mp hmem
  have hnodup : (b.entriesOf.map (·.name)).Nodup := by
    rw [map_name_entriesOf]
    exact b.nodup_names
  have hname : entry.name = b.operator.function := congrArg Heading.name hheading
  exact ⟨entry, hname ▸ Entry.find?_of_mem hnodup hentry, congrArg Heading.parameters hheading⟩

/-- The function of a node is at hand. -/
structure Supplied (collected : List Builtin) (nodes : List Nat) (n : Node Builtin) : Prop where
  single : n.behavior ≠ heightGradient → n.behavior ∈ collected
  multi : n.behavior = heightGradient → n.id ∈ nodes

theorem Stocked.exists_entry (hd : Stocked collected nodes d) (hn : Supplied collected nodes n) :
    ∃ entry, Entry.find? (table collected nodes) (calleeName n) = some entry ∧
      entry.parameters = n.behavior.signature := by
  by_cases hmulti : n.behavior = heightGradient
  · refine ⟨gradientEntry n.id, ?_, hmulti ▸ rfl⟩
    rw [calleeName_multi hmulti]
    exact find?_table_specialised hd.nodup hd.single hd.nodup_nodes (hn.multi hmulti)
  · obtain ⟨entry, hentry, hparameters⟩ := exists_find?_entriesOf n.behavior
    refine ⟨entry, ?_, hparameters⟩
    rw [calleeName_single hmulti, find?_table_operator hd.nodup hd.single hd.nodup_nodes
      (hn.single hmulti) (names_subset_mentions _ _ (function_mem_names _)), hentry]

/-- A call, after what pasting its function copies. -/
theorem Planned.emitCall_returns (h : Planned g order) (hn : g.node? id = some n)
    (hd : Stocked collected nodes d) (hsupplied : Supplied collected nodes n) {es : List Entry}
    {q : List String} (hpaste : Pastes (Entry.find? (table collected nodes))
      d.emitter.functions.length d.emitter.pasted [calleeName n] es q) :
    (emitCall g id).Returns d ()
      (Draft.written { d with emitter := d.emitter.copied es q } (calls g id)) := by
  obtain ⟨entry, hentry, hparameters⟩ := hd.exists_entry hsupplied
  rw [← hd.entries] at hpaste hentry
  obtain ⟨f, hf, hheading, _⟩ :=
    Emitter.exists_function? (e := d.emitter.copied es q) hd.functions hentry
  have hcall : f.callParameters = n.behavior.signature :=
    (congrArg Heading.parameters hheading).trans hparameters
  refine (nodeOf_returns hn d).bind ((Action.Returns.state d).bind ?_)
  refine (emitting_returns (Emitter.paste_returns hd.functions hpaste)).bind ?_
  refine (Action.Returns.state _).bind ((Action.Returns.ofOption hf _ _).bind ?_)
  refine (Action.Returns.ofExcept (hcall ▸ h.arguments_eq hn) _).bind ?_
  rw [calls_eq hn]
  exact append_returns _ _

/-- A call of a function that has been pasted. -/
theorem Planned.emitCall_pasted (h : Planned g order) (hn : g.node? id = some n)
    (hd : Stocked collected nodes d) (hsupplied : Supplied collected nodes n)
    (hpasted : calleeName n ∈ d.emitter.pasted) :
    (emitCall g id).Returns d () (d.written (calls g id)) := by
  have hreturns := h.emitCall_returns hn hd hsupplied (.skip hpasted .nil)
  have hsame : d.emitter.copied [] d.emitter.pasted = d.emitter := by simp [Emitter.copied]
  rw [hsame] at hreturns
  exact hreturns

/-! ## Specialised functions -/

/-- The draft after a multi-pass node has been specialised. -/
def Draft.specialised (d : Draft) (block : Piece) (id : Nat) : Draft :=
  { d with
    emitter := { d.emitter with
      blocks := []
      definitions := d.emitter.definitions ++ [block]
      functions := functionsIn (d.library ++ gradientLibrary id ++ "\n") }
    library := d.library ++ gradientLibrary id ++ "\n" }

/-- The scope of a subtree function, written into an open block. -/
theorem Planned.members_returns (h : Planned g order) {ids : List Nat} (last : Line)
    (hd : Stocked collected nodes d)
    (hids : ∀ m ∈ ids, ∃ k, g.node? m = some k ∧ Supplied collected nodes k ∧
      calleeName k ∈ d.emitter.pasted) :
    (do
      Action.each (declareOutputs g) ids
      Action.each (emitCall g) ids
      emitting (Emitter.append last) :
      Generation Unit).Returns d () (d.written (scope g ids last)) := by
  have hdeclare : (Action.each (declareOutputs g) ids).Returns d ()
      (d.written (ids.flatMap (declarations g))) := by
    refine each_written (P := fun _ => True) (fun _ _ _ => trivial) (fun m hm d _ => ?_) trivial
    obtain ⟨k, hk, _⟩ := hids m hm
    exact h.declareOutputs_returns hk d
  have hcall : (Action.each (emitCall g) ids).Returns (d.written (ids.flatMap (declarations g))) ()
      ((d.written (ids.flatMap (declarations g))).written (ids.flatMap (calls g))) := by
    -- writing lines changes neither the library nor what has been pasted
    refine each_written
      (P := fun d' => Stocked collected nodes d' ∧ d'.emitter.pasted = d.emitter.pasted)
      (fun d' lines hd' => ⟨hd'.1.written lines, ?_⟩) (fun m hm d' hd' => ?_) ⟨hd.written _, ?_⟩
    · exact (Emitter.written_frame d'.emitter lines).2.trans hd'.2
    · obtain ⟨k, hk, hsupplied, hpasted⟩ := hids m hm
      exact h.emitCall_pasted hk hd'.1 hsupplied (hd'.2 ▸ hpasted)
    · exact (Emitter.written_frame d.emitter _).2
  have hall : ((d.written (ids.flatMap (declarations g))).written (ids.flatMap (calls g))).written
      [last] = d.written (scope g ids last) := by
    simp only [Draft.written, Emitter.written_written, scope]
  rw [← hall]
  exact hdeclare.bind (hcall.bind (append_returns last _))

theorem Planned.specialise_returns (h : Planned g order) (hmulti : n.behavior = heightGradient)
    (hd : Stocked collected nodes d) (hblocks : d.emitter.blocks = [])
    (hmembers : ∀ m ∈ members g order n.id, ∃ k, g.node? m = some k ∧ Supplied collected nodes k ∧
      calleeName k ∈ d.emitter.pasted) :
    (specialise g order n).Returns d () (d.specialised (subtreeBlock g order n) n.id) := by
  have hlibrary : (Operable.operator n.behavior).library = Source.heightGradient := by
    rw [hmulti]; rfl
  have hfunction : (Operable.operator n.behavior).function = gradient := by rw [hmulti]; rfl
  let opened : Draft := { d with
    emitter := { d.emitter with blocks := [⟨some (subtreeSignature n.id), []⟩] } }
  have hopen :
      (emitting (Emitter.openBlock (some (subtreeSignature n.id)))).Returns d () opened := by
    refine emitting_returns (.update_of ?_)
    rw [hblocks]
  have hstocked : Stocked collected nodes opened := { hd with functions := hd.functions }
  have hscope := h.members_returns (.ret (returned g n)) hstocked hmembers
  obtain ⟨_, d₁, hdeclare, hscope⟩ := hscope.of_bind
  obtain ⟨_, d₂, hcall, hret⟩ := hscope.of_bind
  let closed : Draft := { d with
    emitter := { d.emitter with
      blocks := []
      definitions := d.emitter.definitions ++ [subtreeBlock g order n] } }
  have hclose : (emitting (Emitter.closeBlock .definitions)).Returns
      (opened.written (scope g (members g order n.id) (.ret (returned g n)))) () closed := by
    have hone :
        (opened.written (scope g (members g order n.id) (.ret (returned g n)))).emitter.blocks =
        [⟨some (subtreeSignature n.id), scope g (members g order n.id) (.ret (returned g n))⟩] :=
          rfl
    have hreturns := emitting_returns (Emitter.closeBlock_returns hone)
    exact hreturns
  refine hopen.bind (hdeclare.bind (hcall.bind ?_))
  refine (Action.Returns.ofExcept (h.subtreeResult_eq n) _).bind (hret.bind (hclose.bind ?_))
  rw [hlibrary, hfunction]
  refine (Action.Returns.update _ closed).bind ((Action.Returns.state _).bind ?_)
  exact (emitting_returns (Emitter.load_returns _ _)).bind (.report _ _)

/-! ## The second pass -/

/-- The multi-pass nodes among some nodes. -/
def gradients (g : Graph Builtin) (ids : List Nat) : List Nat :=
  ids.filter fun id => (g.node? id).map (·.behavior) = some heightGradient

theorem mem_gradients {ids : List Nat} : id ∈ gradients g ids ↔
    id ∈ ids ∧ ∃ n, g.node? id = some n ∧ n.behavior = heightGradient := by
  simp [gradients]

theorem gradients_snoc (hn : g.node? id = some n) (done : List Nat) :
    gradients g (done ++ [id]) =
      gradients g done ++ if n.behavior = heightGradient then [id] else [] := by
  rw [gradients, List.filter_append]
  by_cases hmulti : n.behavior = heightGradient
  · simp [gradients, hn, hmulti]
  · simp [gradients, hn, hmulti]

/-- The functions that the calls of some nodes need. -/
def Provided (g : Graph Builtin) (done : List Nat) (name : String) : Prop :=
  (∃ b ∈ operators g done, b ≠ heightGradient ∧ name ∈ b.names) ∨
    ∃ m ∈ gradients g done, name = specialisedName gradient m

theorem provided_snoc (hn : g.node? id = some n) {name : String} :
    Provided g (done ++ [id]) name ↔ Provided g done name ∨
      (n.behavior ≠ heightGradient ∧ name ∈ n.behavior.names) ∨
      (n.behavior = heightGradient ∧ name = specialisedName gradient id) := by
  have hlibraries : (∃ b ∈ operators g (done ++ [id]), b ≠ heightGradient ∧ name ∈ b.names) ↔
      (∃ b ∈ operators g done, b ≠ heightGradient ∧ name ∈ b.names) ∨
        (n.behavior ≠ heightGradient ∧ name ∈ n.behavior.names) := by
    simp only [operators_snoc hn, List.mem_append, List.mem_singleton, or_and_right, exists_or,
      exists_eq_left]
  have hown : (∃ m ∈ gradients g (done ++ [id]), name = specialisedName gradient m) ↔
      (∃ m ∈ gradients g done, name = specialisedName gradient m) ∨
        (n.behavior = heightGradient ∧ name = specialisedName gradient id) := by
    rw [gradients_snoc hn]
    by_cases hmulti : n.behavior = heightGradient
    · simp only [hmulti, if_true, List.mem_append, List.mem_singleton, or_and_right, exists_or,
        exists_eq_left, true_and]
    · simp only [hmulti, if_false, List.append_nil, false_and, or_false]
  rw [Provided, hlibraries, hown, or_or_or_comm, Provided]

/-- The function of a node that is done is there. -/
theorem Planned.provided_calleeName (h : Planned g order) (hn : g.node? id = some n)
    (hid : id ∈ done) : Provided g done (calleeName n) := by
  by_cases hmulti : n.behavior = heightGradient
  · rw [calleeName_multi hmulti, h.id_eq hn]
    exact Or.inr ⟨id, mem_gradients.mpr ⟨hid, n, hn, hmulti⟩, rfl⟩
  · rw [calleeName_single hmulti]
    exact Or.inl ⟨n.behavior, mem_operators.mpr ⟨id, hid, n, hn, rfl⟩, hmulti,
      n.behavior.function_mem_names⟩

/-- What the calls of the nodes that are done leave in the draft, apart from functions. -/
structure Called (g : Graph Builtin) (order : List Nat) (collected : List Builtin)
    (done : List Nat) (d : Draft) : Prop where
  mem_collected : ∀ b, b ∈ collected ↔ b ∈ operators g order ∧ b ≠ heightGradient
  body : d.emitter.body = (order.flatMap (declarations g) ++ done.flatMap (calls g)).map .line
  blocks : d.emitter.blocks = []
  uploads : List.Forall₂ IsUpload (parameters g order) d.uploads
  slots : ∃ count, d.uploads.filterMap Upload.slot? = List.range' 1 count
  uniforms : d.emitter.uniforms = d.uploads.flatMap Upload.uniforms

/-- The draft after the calls of the nodes that are done. -/
structure Emitted (g : Graph Builtin) (order : List Nat) (collected : List Builtin)
    (done : List Nat) (d : Draft) : Prop
    extends Stocked collected (gradients g done) d, Called g order collected done d where
  pasted : ∀ name, name ∈ d.emitter.pasted ↔ Provided g done name
  definitions : Defines g order done d.emitter.definitions

theorem Called.supplied (hd : Called g order collected done d) (h : Planned g order)
    (hn : g.node? id = some n) (hmulti : n.behavior = heightGradient → id ∈ nodes) :
    Supplied collected nodes n where
  single hsingle :=
    (hd.mem_collected _).mpr ⟨mem_operators.mpr ⟨id, h.mem_order hn, n, hn, rfl⟩, hsingle⟩
  multi := h.id_eq hn ▸ hmulti

/-- A call in the body, after the copies that it needs. -/
theorem Called.emitted (hd : Called g order collected done d)
    (hstocked : Stocked collected (gradients g (done ++ [id])) d) {es : List Entry}
    {q : List String} (hpasted : ∀ name, name ∈ q ↔ Provided g (done ++ [id]) name)
    (hdefinitions : Defines g order (done ++ [id]) (d.emitter.definitions ++ es.map Entry.piece)) :
    Emitted g order collected (done ++ [id])
      (Draft.written { d with emitter := d.emitter.copied es q } (calls g id)) := by
  have hclosed : (d.emitter.copied es q).blocks = [] := hd.blocks
  rw [Draft.written, Emitter.written_of_closed hclosed]
  refine { hstocked, hd with
    functions := hstocked.functions
    body := ?_
    blocks := hd.blocks
    uniforms := hd.uniforms
    pasted := hpasted
    definitions := hdefinitions }
  show d.emitter.body ++ _ = _
  rw [hd.body, ← List.map_append, List.flatMap_append, List.flatMap_singleton, List.append_assoc]

theorem Planned.notMem_done (h : Planned g order) {rest : List Nat}
    (horder : done ++ id :: rest = order) : id ∉ done :=
  h.isOrder.notMem_done horder

/-- What a multi-pass node needs comes before it. -/
theorem Planned.mem_done_of_mem_members (h : Planned g order) {rest : List Nat}
    (horder : done ++ id :: rest = order) {m : Nat} (hm : m ∈ members g order id) : m ∈ done := by
  obtain ⟨_, hancestor⟩ := List.mem_filter.mp hm
  obtain ⟨_, hpath⟩ := (Graph.mem_ancestors_iff h.wellFormed).mp (of_decide_eq_true hancestor)
  have hlt := h.isOrder.lt_of_transGen hpath
  rw [← horder, List.idxOf_append_of_notMem (h.notMem_done horder), List.idxOf_cons_self] at hlt
  by_contra hdone
  rw [List.idxOf_append_of_notMem hdone] at hlt
  omega

/-- A single-pass node finds its function in the library at hand. -/
theorem Emitted.supplied_single (hd : Emitted g order collected done d) (h : Planned g order)
    (hn : g.node? id = some n) (hsingle : n.behavior ≠ heightGradient) :
    Stocked collected (gradients g (done ++ [id])) d ∧
      Supplied collected (gradients g (done ++ [id])) n := by
  have hgradients : gradients g (done ++ [id]) = gradients g done := by
    rw [gradients_snoc hn, if_neg hsingle, List.append_nil]
  exact ⟨hgradients ▸ hd.toStocked, hd.toCalled.supplied h hn fun hmulti => absurd hmulti hsingle⟩

/-- A node whose function has been pasted. -/
theorem Emitted.again (hd : Emitted g order collected done d) (h : Planned g order)
    (hn : g.node? id = some n) (hsingle : n.behavior ≠ heightGradient)
    (hold : n.behavior ∈ operators g done) :
    ∃ d', (emitCall g id).Returns d () d' ∧ Emitted g order collected (done ++ [id]) d' := by
  obtain ⟨hstocked, hsupplied⟩ := hd.supplied_single h hn hsingle
  have hprovided : ∀ name, name ∈ d.emitter.pasted ↔ Provided g (done ++ [id]) name := by
    intro name
    rw [hd.pasted, provided_snoc hn]
    refine ⟨Or.inl, ?_⟩
    rintro (hname | ⟨_, hname⟩ | ⟨hmulti, _⟩)
    · exact hname
    · exact Or.inl ⟨n.behavior, hold, hsingle, hname⟩
    · exact absurd hmulti hsingle
  have hcallee : calleeName n ∈ d.emitter.pasted := by
    rw [hprovided]
    exact h.provided_calleeName hn (by simp)
  refine ⟨_, h.emitCall_returns hn hstocked hsupplied (.skip hcallee .nil),
    hd.toCalled.emitted hstocked hprovided ?_⟩
  rw [List.map_nil, List.append_nil]
  exact .again hd.definitions hn hsingle hold

/-- Nothing of a library has been pasted before the first node of its operator. -/
theorem notMem_names_of_provided {b : Builtin} (hb : b ≠ heightGradient)
    (hnew : b ∉ operators g done) {name : String} (hname : Provided g done name) :
    name ∉ b.names := by
  intro hmem
  have hmention := names_subset_mentions b name hmem
  rcases hname with ⟨c, hc, _, hother⟩ | ⟨m, _, rfl⟩
  · have hbc : b ≠ c := by
      rintro rfl
      exact hnew hc
    exact disjoint_names hbc name hmention hother
  · exact notMem_mentions_of_not_plain hb (specialisedName_not_plain m) hmention

/-- The first node of an operator. -/
theorem Emitted.library (hd : Emitted g order collected done d) (h : Planned g order)
    (hn : g.node? id = some n) (hsingle : n.behavior ≠ heightGradient)
    (hnew : n.behavior ∉ operators g done) :
    ∃ d', (emitCall g id).Returns d () d' ∧ Emitted g order collected (done ++ [id]) d' := by
  obtain ⟨hstocked, hsupplied⟩ := hd.supplied_single h hn hsingle
  have hmem := hsupplied.single hsingle
  have hroom : n.behavior.names.length ≤ d.emitter.functions.length := by
    refine le_trans ?_ hstocked.length_le
    rw [← map_name_entriesOf, List.length_map, table, List.length_append]
    exact le_trans (List.sublist_flatten_of_mem (List.mem_map_of_mem hmem)).length_le
      (Nat.le_add_right _ _)
  have hfresh : ∀ name ∈ n.behavior.names, name ∉ d.emitter.pasted := fun name hname hpasted =>
    notMem_names_of_provided hsingle hnew ((hd.pasted name).mp hpasted) hname
  obtain ⟨now, hpaste, hnow⟩ :=
    pastes_operator hstocked.nodup hstocked.single hstocked.nodup_nodes hmem hfresh hroom
  rw [← calleeName_single hsingle] at hpaste
  refine ⟨_, h.emitCall_returns hn hstocked hsupplied hpaste, hd.toCalled.emitted hstocked ?_ ?_⟩
  · intro name
    rw [hnow, hd.pasted, provided_snoc hn, or_comm]
    simp only [hsingle, ne_eq, not_false_eq_true, true_and, false_and, or_false]
  · exact .library hd.definitions hn hsingle hnew

/-- The functions of what a multi-pass node needs have been pasted. -/
theorem Emitted.members_pasted (hd : Emitted g order collected done d) (h : Planned g order)
    {rest : List Nat} (horder : done ++ id :: rest = order) :
    ∀ m ∈ members g order id, ∃ k, g.node? m = some k ∧
      Supplied collected (gradients g done) k ∧ calleeName k ∈ d.emitter.pasted := by
  intro m hm
  have hdone := h.mem_done_of_mem_members horder hm
  obtain ⟨k, hk⟩ := h.exists_node (show m ∈ order by rw [← horder]; simp [hdone])
  refine ⟨k, hk, hd.toCalled.supplied h hk fun hkmulti => ?_, ?_⟩
  · exact mem_gradients.mpr ⟨hdone, k, hk, hkmulti⟩
  · exact (hd.pasted _).mpr (h.provided_calleeName hk hdone)

/-- The library after a multi-pass node has been specialised. -/
theorem Stocked.specialised (hd : Stocked collected nodes d) (hid : id ∉ nodes) (block : Piece) :
    Stocked collected (nodes ++ [id]) (d.specialised block id) := by
  obtain ⟨hcomplete, hentries⟩ :=
    entries_append_library hd.complete (gradientLibrary_holds id).toComplete
  refine ⟨hd.nodup, hd.single, ?_, hcomplete, ?_, rfl⟩
  · exact hd.nodup_nodes.append (List.nodup_singleton id) (List.disjoint_singleton.mpr hid)
  · show Glsl.entries (d.library ++ gradientLibrary id ++ "\n") = _
    rw [hentries, hd.entries, entries_gradientLibrary, table, table, List.map_append,
      List.append_assoc, List.map_singleton]

/-- The function of a multi-pass node has not been pasted before its turn. -/
theorem Emitted.specialised_fresh (hd : Emitted g order collected done d) (hid : id ∉ done) :
    specialisedName gradient id ∉ d.emitter.pasted := by
  rw [hd.pasted]
  rintro (⟨b, _, hb, hname⟩ | ⟨m, hm, hname⟩)
  · exact notMem_mentions_of_not_plain hb (specialisedName_not_plain id)
      (names_subset_mentions b _ hname)
  · exact hid (specialisedName_inj.mp hname ▸ (mem_gradients.mp hm).1)

/-- A multi-pass node. -/
theorem Emitted.subtree (hd : Emitted g order collected done d) (h : Planned g order)
    {rest : List Nat} (horder : done ++ id :: rest = order) (hn : g.node? id = some n)
    (hmulti : n.behavior = heightGradient) :
    ∃ d', (do
      specialise g order n
      emitCall g id : Generation Unit).Returns d () d' ∧
      Emitted g order collected (done ++ [id]) d' := by
  obtain rfl := h.id_eq hn
  have hdone := h.notMem_done horder
  have hgradients : gradients g (done ++ [n.id]) = gradients g done ++ [n.id] := by
    rw [gradients_snoc hn, if_pos hmulti]
  have hstocked : Stocked collected (gradients g (done ++ [n.id]))
      (d.specialised (subtreeBlock g order n) n.id) := by
    rw [hgradients]
    exact hd.toStocked.specialised (fun hmem => hdone (mem_gradients.mp hmem).1) _
  have hcalled : Called g order collected done (d.specialised (subtreeBlock g order n) n.id) :=
    { hd.toCalled with
      body := hd.body
      blocks := rfl
      uniforms := hd.uniforms }
  have hmem : n.id ∈ gradients g (done ++ [n.id]) := by
    rw [hgradients]
    simp
  have hroom : 1 ≤ (d.specialised (subtreeBlock g order n) n.id).emitter.functions.length := by
    refine le_trans ?_ hstocked.length_le
    rw [table, List.length_append, List.length_map]
    have := List.length_pos_of_mem hmem
    omega
  have hspecialise :=
    h.specialise_returns hmulti hd.toStocked hd.blocks (hd.members_pasted h horder)
  have hpaste := pastes_specialised hstocked.nodup hstocked.single hstocked.nodup_nodes hmem
    (hd.specialised_fresh hdone) hroom
  rw [← calleeName_multi hmulti] at hpaste
  refine ⟨_, hspecialise.bind (h.emitCall_returns hn hstocked ?_ hpaste),
    hcalled.emitted hstocked ?_ ?_⟩
  · exact hcalled.supplied h hn fun _ => hmem
  · intro name
    rw [List.mem_cons, hd.pasted, provided_snoc hn, calleeName_multi hmulti, or_comm]
    simp [hmulti]
  · show Defines g order (done ++ [n.id]) (d.emitter.definitions ++ [subtreeBlock g order n] ++ _)
    rw [List.append_assoc]
    exact .subtree hd.definitions hn hmulti

/-- **One node of the body.** -/
theorem Emitted.step (hd : Emitted g order collected done d) (h : Planned g order)
    {rest : List Nat} (horder : done ++ id :: rest = order) :
    ∃ d', (emitNode g order id).Returns d () d' ∧ Emitted g order collected (done ++ [id]) d' := by
  obtain ⟨n, hn⟩ := h.exists_node (show id ∈ order by rw [← horder]; simp)
  by_cases hmulti : n.behavior = heightGradient
  · have hpass : (Operable.operator n.behavior).multiPass = true := (multiPass_iff _).mpr hmulti
    obtain ⟨d', hreturns, hd'⟩ := hd.subtree h horder hn hmulti
    refine ⟨d', (nodeOf_returns hn d).bind ?_, hd'⟩
    rw [if_pos hpass]
    exact hreturns
  · have hpass : ¬ (Operable.operator n.behavior).multiPass = true := mt (multiPass_iff _).mp hmulti
    have hcall : ∃ d', (emitCall g id).Returns d () d' ∧
        Emitted g order collected (done ++ [id]) d' := by
      by_cases hold : n.behavior ∈ operators g done
      · exact hd.again h hn hmulti hold
      · exact hd.library h hn hmulti hold
    obtain ⟨d', hreturns, hd'⟩ := hcall
    refine ⟨d', (nodeOf_returns hn d).bind ?_, hd'⟩
    rw [if_neg hpass]
    exact hreturns

/-- The second pass starts from what the first one has left. -/
theorem Prepared.emitted (hd : Prepared g order collected d) :
    Emitted g order collected [] { d with
      emitter := { d.emitter with functions := functionsIn d.library } } := by
  have hgathered := hd.gathered
  have hsingle : heightGradient ∉ collected := fun hmem => ((hgathered.mem_iff _).mp hmem).2 rfl
  refine ⟨⟨hgathered.nodup, hsingle, .nil, hgathered.complete, ?_, rfl⟩,
    ⟨hgathered.mem_iff, ?_, ?_, hd.uploads, ?_, ?_⟩, ?_, ?_⟩
  · show entries d.library = _
    rw [hgathered.entries, table]
    simp [gradients]
  · show d.emitter.body = _
    rw [hd.emitter]
    simp
  · show d.emitter.blocks = _
    rw [hd.emitter]
  · obtain ⟨count, hslots, _⟩ := hd.slots
    exact ⟨count, hslots⟩
  · show d.emitter.uniforms = _
    rw [hd.emitter]
  · intro name
    show name ∈ d.emitter.pasted ↔ _
    rw [hd.emitter]
    simp [Provided, operators, gradients]
  · show Defines g order [] d.emitter.definitions
    rw [hd.emitter]
    exact .nil

/-! ## The program -/

/-- What a program has to do with its graph. -/
structure Blueprint (g : Graph Builtin) (order : List Nat) (p : Program) : Prop where
  order_eq : p.order = order
  result : ∃ last, order.getLast? = some last ∧ p.result = resultNode g order last
  body : p.body = (scope g order (.store (fetched g .vec4 p.result 0))).map .line
  definitions : Defines g order order p.definitions
  uploads : List.Forall₂ IsUpload (parameters g order) p.uploads
  /-- Images have the slots from 1 on. -/
  slots : ∃ count, p.uploads.filterMap Upload.slot? = List.range' 1 count
  uniforms : p.uniforms = p.uploads.flatMap Upload.uniforms

theorem resultNode_mem {β : Type} [Operable β] (g : Graph β) {last : Nat}
    (hlast : order.getLast? = some last) : resultNode g order last ∈ order := by
  rw [resultNode]
  cases hfound : order.reverse.find? _ with
  | none => exact List.mem_of_getLast? hlast
  | some id => exact List.mem_reverse.mp (List.mem_of_find?_eq_some hfound)

theorem Planned.emitStore_returns (h : Planned g order) (hid : id ∈ order) (d : Draft) :
    (emitStore g id).Returns d () (d.written [.store (fetched g .vec4 id 0)]) := by
  obtain ⟨n, hn⟩ := h.exists_node hid
  obtain ⟨s, hs⟩ := h.exists_output hn
  refine (Action.Returns.ofOption hs _ d).bind ?_
  exact (Action.Returns.ofExcept (h.converted_output hs rfl) d).bind (append_returns _ d)

/-- **Building succeeds and follows the blueprint.** -/
theorem Planned.build_returns (h : Planned g order) (hne : order ≠ []) :
    ∃ p d, (build g order).Returns {} p d ∧ Blueprint g order p := by
  obtain ⟨last, hlast⟩ : ∃ last, order.getLast? = some last :=
    ⟨_, List.getLast?_eq_some_getLast hne⟩
  obtain ⟨collected, d₁, hprepare, hprepared⟩ := h.prepare
  obtain ⟨d₂, hemit, hemitted⟩ := Action.Returns.each
    (fun done id rest horder d hd => hd.step h horder) hprepared.emitted
  have hstore := h.emitStore_returns (resultNode_mem g hlast) d₂
  rw [Draft.written, Emitter.written_of_closed hemitted.blocks] at hstore
  refine ⟨_, _, (Action.Returns.ofOption hlast _ _).bind (hprepare.bind
    ((Action.Returns.state d₁).bind ((emitting_returns (Emitter.load_returns _ _)).bind
      (hemit.bind (hstore.bind ((Action.Returns.state _).bind (.pure _ _))))))), ?_⟩
  refine ⟨rfl, ⟨last, hlast, rfl⟩, ?_, hemitted.definitions, hemitted.uploads,
    hemitted.slots, hemitted.uniforms⟩
  show d₂.emitter.body ++ _ = _
  rw [hemitted.body, ← List.map_append, scope]

end Program
end Texel
