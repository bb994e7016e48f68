import Texel.Proofs.Program.Assembly

/-!
# Texel — how a program is laid out

The code of a program stands in a fixed order, whatever the operators of its graph are. The body
declares the outputs of all nodes, calls the nodes and stores the result; a subtree function does
the same for the nodes it needs, and returns. Between the subtree functions there are copies of
library functions, and nothing else.

* **`CallOf`**, **`ScopeOf`** — the call of a node, and the lines of a body.
* **`PieceOf`** — what the definitions consist of.
* **`Laid`**, **`Laid.step`** — the draft in the second pass.
* **`Layout`**, **`layout_of_generate`** — every program.
-/

namespace Texel.Program

open Glsl

variable {β : Type} [Operable β] {g : Graph β} {order done : List Nat} {id : Nat} {n : Node β}
  {d d' : Draft}

/-! ## Code -/

/-- The nodes whose turn comes before that of a node. -/
def earlier (order : List Nat) (id : Nat) : List Nat := order.takeWhile (· ≠ id)

/-- The nodes up to a node. -/
def upTo (order : List Nat) (id : Nat) : List Nat := earlier order id ++ [id]

/-- The line calls a node, with arguments for the parameters that its function has in the libraries
when the nodes `known` have had their turn. -/
inductive CallOf (g : Graph β) (order known : List Nat) : (id : Nat) → (line : Line) → Prop
  | intro {id : Nat} {n : Node β} {f : Function} {arguments : List Expr} (hn : g.node? id = some n)
    (hknown : known <+: order)
    (hf : find? (functionsIn (libraryOf (sources g order known))) (calleeName n) = some f)
    (harguments : Program.arguments g n 0 f.callParameters = .ok arguments) :
    CallOf g order known id (.call (calleeName n) arguments)

/-- The lines declare the outputs of some nodes, call each of them and end with the last one. When a
node is called, certain nodes have had their turn. -/
def ScopeOf (g : Graph β) (order : List Nat) (known : Nat → List Nat) (ids : List Nat) (last : Line)
    (lines : List Line) : Prop :=
  ∃ calls, List.Forall₂ (fun id => CallOf g order (known id) id) ids calls ∧
    lines = ids.flatMap (declarations g) ++ calls ++ [last]

/-- The block is the subtree function of a node. Its calls were written before the turn of the
node. -/
inductive SubtreeOf (g : Graph β) (order : List Nat) (n : Node β) : (piece : Piece) → Prop
  | intro {value : Expr} {lines : List Line} (hvalue : subtreeResult g n = .ok value)
    (hlines : ScopeOf g order (fun _ => earlier order n.id) (members g order n.id) (.ret value)
      lines) :
    SubtreeOf g order n (.block (some (subtreeSignature n.id)) lines)

/-- A definition has been copied from the libraries, or is a subtree function. -/
inductive PieceOf (g : Graph β) (order : List Nat) : (piece : Piece) → Prop
  | copy {library : String} {e : Entry} (hlibrary : Scanned g order library)
    (he : Entry.find? (entries library) e.name = some e) : PieceOf g order e.piece
  | subtree {n : Node β} {piece : Piece} (hn : n ∈ g.nodes) (h : SubtreeOf g order n piece) :
    PieceOf g order piece

/-! ## Steps -/

omit [Operable β] in
/-- What comes before a node in an evaluation order. -/
theorem earlier_eq (horder : g.IsEvaluationOrder order) {rest : List Nat}
    (hsplit : done ++ id :: rest = order) : earlier order id = done := by
  have hdone : ∀ m ∈ done, decide (m ≠ id) = true := fun m hm =>
    decide_eq_true fun heq => horder.notMem_done hsplit (heq ▸ hm)
  rw [earlier, ← hsplit, List.takeWhile_append_of_pos hdone]
  simp

/-- The draft once functions have been copied and lines written. -/
def Draft.extended (d : Draft) (es : List Entry) (q : List String) (lines : List Line) : Draft :=
  Draft.written { d with emitter := d.emitter.copied es q } lines

theorem Draft.extended_nil (d : Draft) : d.extended [] d.emitter.pasted [] = d := by
  simp [Draft.extended, Draft.written, Emitter.written_nil, Emitter.copied]

theorem Draft.extended_extended (d : Draft) (es fs : List Entry) (q r : List String)
    (lines more : List Line) :
    (d.extended es q lines).extended fs r more = d.extended (es ++ fs) r (lines ++ more) := by
  simp only [Draft.extended, Draft.written, Emitter.copied_written, Emitter.copied_copied,
    Emitter.written_written]

theorem Draft.extended_written (d : Draft) (es : List Entry) (q : List String)
    (lines more : List Line) :
    (d.written lines).extended es q more = d.extended es q (lines ++ more) := by
  simp only [Draft.extended, Draft.written, Emitter.copied_written, Emitter.written_written]

/-- **One call.** -/
theorem Assembled.callOf (hd : Assembled g order done d) (hdone : done <+: order)
    (h : (emitCall g id).Returns d () d') :
    ∃ es q call, CallOf g order done id call ∧ (∀ e ∈ es, PieceOf g order e.piece) ∧
      d' = d.extended es q [call] := by
  obtain ⟨n, es, q, f, arguments, hn, hwalked, hf, harguments, hd'⟩ := hd.emitCall_cases h
  refine ⟨es, q, _, .intro hn hdone hf harguments, fun e he => ?_, hd'⟩
  exact .copy ⟨done, hdone, hd.library⟩ (hwalked.found e he)

/-- **Calls**, one for each node. -/
theorem Assembled.callsOf (hd : Assembled g order done d) (hdone : done <+: order) {ids : List Nat}
    (h : (Action.each (emitCall g) ids).Returns d () d') :
    ∃ es q calls, List.Forall₂ (CallOf g order done) ids calls ∧
      (∀ e ∈ es, PieceOf g order e.piece) ∧ d' = d.extended es q calls := by
  refine (Action.Returns.of_each (P := fun before x => Assembled g order done x ∧
    ∃ es q calls, List.Forall₂ (CallOf g order done) before calls ∧
      (∀ e ∈ es, PieceOf g order e.piece) ∧ x = d.extended es q calls)
    (fun before id after hsplit x x' hx hcall => ?_) ⟨hd, ?_⟩ h).2
  · obtain ⟨hx, es, q, calls, hcalls, hes, rfl⟩ := hx
    obtain ⟨fs, r, call, hcallOf, hfs, rfl⟩ := hx.callOf hdone hcall
    refine ⟨(hx.call hdone hcall).1, es ++ fs, r, calls ++ [call], ?_, ?_, ?_⟩
    · exact List.rel_append hcalls (.cons hcallOf .nil)
    · exact List.forall_mem_append.mpr ⟨hes, hfs⟩
    · exact d.extended_extended es fs q r calls [call]
  · exact ⟨[], d.emitter.pasted, [], .nil, fun e he => absurd he List.not_mem_nil,
      d.extended_nil.symm⟩

/-- **Specialising** a node adds its subtree function, after what that calls. -/
theorem Assembled.subtreeOf (hd : Assembled g order done d) (hdone : done <+: order)
    (hearlier : earlier order n.id = done) (h : (Program.specialise g order n).Returns d () d') :
    ∃ (es : List Entry) (block : Piece), SubtreeOf g order n block ∧
      (∀ e ∈ es, PieceOf g order e.piece) ∧
      d'.emitter.body = d.emitter.body ∧ d'.emitter.blocks = d.emitter.blocks ∧
      d'.emitter.definitions = d.emitter.definitions ++ es.map Entry.piece ++ [block] := by
  obtain ⟨d₁, d₂, value, hcall, hvalue, hclose, library, -, rfl⟩ := specialise_cases h
  obtain ⟨es, q, calls, hcalls, hes, rfl⟩ := (hd.declared n).callsOf hdone hcall
  obtain ⟨block, outer, hblocks, rfl⟩ := closeBlock_cases hclose
  rw [Draft.extended_written, Draft.extended, written_written] at hblocks ⊢
  -- the lines have gone to the block that is closed
  obtain ⟨rfl, rfl⟩ := List.cons.inj hblocks
  exact ⟨es, _, .intro hvalue ⟨calls, hearlier.symm ▸ hcalls, rfl⟩, hes, rfl, rfl, rfl⟩

/-! ## The second pass -/

/-- The draft once the nodes `done` have been called. -/
structure Laid (g : Graph β) (order done : List Nat) (d : Draft) : Prop
    extends AllCalled g order done d where
  blocks : d.emitter.blocks = []
  body : ∃ calls, List.Forall₂ (fun id => CallOf g order (upTo order id) id) done calls ∧
    d.emitter.body = (order.flatMap (declarations g) ++ calls).map .line
  pieces : ∀ piece ∈ d.emitter.definitions, PieceOf g order piece
  subtrees : ∀ n ∈ g.nodes, n.id ∈ done → (operatorOf n).multiPass = true →
    ∃ piece ∈ d.emitter.definitions, SubtreeOf g order n piece

theorem Declared.laid (hd : Declared g order d) : Laid g order [] d.loaded where
  toAllCalled := hd.allCalled
  blocks := hd.blocks
  body := ⟨[], .nil, by rw [List.append_nil]; exact hd.body⟩
  pieces piece hpiece := by
    replace hpiece : piece ∈ d.emitter.definitions := hpiece
    rw [hd.definitions] at hpiece
    exact absurd hpiece List.not_mem_nil
  subtrees n hn hid := absurd hid List.not_mem_nil

/-- What a turn has put into the definitions before the node is called: nothing if it is
single-pass, else its subtree function. -/
theorem Laid.prepared (hwell : g.WellFormed) (hd : Laid g order done d) (hdone : done <+: order)
    (hearlier : earlier order id = done) (hn : g.node? id = some n)
    (h : if (operatorOf n).multiPass = true then (Program.specialise g order n).Returns d () d'
      else d' = d) :
    d'.emitter.body = d.emitter.body ∧ d'.emitter.blocks = [] ∧
      d.emitter.definitions ⊆ d'.emitter.definitions ∧
      (∀ piece ∈ d'.emitter.definitions, PieceOf g order piece) ∧
      ((operatorOf n).multiPass = true →
        ∃ piece ∈ d'.emitter.definitions, SubtreeOf g order n piece) := by
  split_ifs at h with hmulti
  · obtain ⟨es, block, hblock, hes, hbody, hblocks, hdefinitions⟩ :=
      hd.toAssembled.subtreeOf hdone (hwell.ids id n hn ▸ hearlier) h
    rw [hdefinitions]
    refine ⟨hbody, hblocks.trans hd.blocks, ?_, ?_, fun _ => ⟨block, by simp, hblock⟩⟩
    · exact List.subset_append_of_subset_left _ (List.subset_append_left _ _)
    · simp only [List.forall_mem_append, List.forall_mem_map, List.forall_mem_singleton]
      exact ⟨⟨hd.pieces, hes⟩, .subtree (List.mem_of_getElem? hn) hblock⟩
  · rw [h]
    exact ⟨rfl, hd.blocks, fun _ hmem => hmem, hd.pieces, fun hyes => absurd hyes hmulti⟩

/-- **One node of the body.** -/
theorem Laid.step (hwell : g.WellFormed) (horder : g.IsEvaluationOrder order)
    (hd : Laid g order done d) {rest : List Nat} (hsplit : done ++ id :: rest = order)
    (h : (emitNode g order id).Returns d () d') : Laid g order (done ++ [id]) d' := by
  have hnow : done ++ [id] <+: order := ⟨rest, by rw [← hsplit]; simp⟩
  have hearlier := earlier_eq horder hsplit
  have hcalled := hd.toAllCalled.step hsplit h
  obtain ⟨n, d₁, hn, hd₁, _, hturn, hcall⟩ := hd.toAssembled.emitNode_cases hsplit h
  obtain ⟨hbody, hblocks, hkept, hpieces, hown⟩ := hd.prepared hwell ⟨id :: rest, hsplit⟩
    hearlier hn hturn
  obtain ⟨es, q, call, hcallOf, hes, rfl⟩ := hd₁.callOf hnow hcall
  rw [← hearlier] at hcallOf
  -- nothing is open, so the call goes to the body
  have hemitter : (d₁.extended es q [call]).emitter =
      { d₁.emitter.copied es q with body := d₁.emitter.body ++ [.line call] } :=
    Emitter.written_of_closed (e := d₁.emitter.copied es q) hblocks [call]
  obtain ⟨calls, hcalls, hcallsBody⟩ := hd.body
  refine ⟨hcalled, ?_, ⟨calls ++ [call], List.rel_append hcalls (.cons hcallOf .nil), ?_⟩, ?_, ?_⟩
  · rw [hemitter]
    exact hblocks
  · rw [hemitter, ← List.append_assoc, List.map_append, ← hcallsBody, ← hbody]
    rfl
  · rw [hemitter]
    show ∀ piece ∈ d₁.emitter.definitions ++ es.map Entry.piece, PieceOf g order piece
    exact List.forall_mem_append.mpr ⟨hpieces, List.forall_mem_map.mpr hes⟩
  · intro k hk hid hmulti
    rw [hemitter]
    show ∃ piece ∈ d₁.emitter.definitions ++ es.map Entry.piece, SubtreeOf g order k piece
    have hfound : ∃ piece ∈ d₁.emitter.definitions, SubtreeOf g order k piece := by
      rcases List.mem_append.mp hid with hid | hid
      · obtain ⟨piece, hmem, hpiece⟩ := hd.subtrees k hk hid hmulti
        exact ⟨piece, hkept hmem, hpiece⟩
      · have hkn : k = n := by
          refine Option.some.inj ((node?_of_mem hwell hk).symm.trans ?_)
          rw [List.mem_singleton.mp hid, hn]
        exact hkn ▸ hown (hkn ▸ hmulti)
    obtain ⟨piece, hmem, hpiece⟩ := hfound
    exact ⟨piece, List.mem_append_left _ hmem, hpiece⟩

/-! ## Programs -/

/-- How the code of a program stands. -/
structure Layout (g : Graph β) (p : Program) : Prop where
  body : ∃ s value lines, g.output? p.result 0 = some s ∧
    Expr.converted s.kind .vec4 (.var (outputName p.result 0)) = .ok value ∧
    ScopeOf g p.order (upTo p.order) p.order (.store value) lines ∧ p.body = lines.map .line
  pieces : ∀ piece ∈ p.definitions, PieceOf g p.order piece
  /-- Every multi-pass node has a subtree function. -/
  subtrees : ∀ n ∈ g.nodes, (operatorOf n).multiPass = true →
    ∃ piece ∈ p.definitions, SubtreeOf g p.order n piece

/-- **Every program is laid out this way.** -/
theorem layout_of_generate (hwell : g.WellFormed) {p : Program}
    (h : (generate.run g).result = .ok p) : Layout g p := by
  obtain ⟨order, -, horder, hbuild⟩ := exists_order_of_generate hwell h
  obtain ⟨d₁, d₂, hd₁, hemit, hstore, rfl, -, hdefinitions, hbody⟩ := build_steps ⟨hbuild, rfl⟩
  have hd₂ : Laid g p.order p.order d₂ :=
    Action.Returns.of_each (fun _ _ _ hsplit _ _ hx hstep => hx.step hwell horder hsplit hstep)
      hd₁.laid hemit
  obtain ⟨s, value, hs, hvalue, hd'⟩ := emitStore_cases hstore
  have hemitter := Emitter.written_of_closed hd₂.blocks [.store value]
  obtain ⟨calls, hcalls, hcallsBody⟩ := hd₂.body
  refine ⟨⟨s, value, _, hs, hvalue, ⟨calls, hcalls, rfl⟩, ?_⟩, ?_, fun n hn hmulti => ?_⟩
  · rw [hbody, hd', Draft.written, hemitter, List.map_append, ← hcallsBody]
  · rw [hdefinitions, hd', Draft.written, hemitter]
    exact hd₂.pieces
  · rw [hdefinitions, hd', Draft.written, hemitter]
    exact hd₂.subtrees n hn (mem_order hwell horder hn) hmulti

end Texel.Program
