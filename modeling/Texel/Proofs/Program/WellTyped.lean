import Texel.Proofs.Glsl.Renaming
import Texel.Proofs.Program.Calls
import Texel.Proofs.Program.Layout
import Texel.Proofs.Program.Provenance
import Texel.Proofs.Program.Shape

/-!
# Texel — the text of a program is well typed

The text of a program is read back here: the body and the subtree functions line by line, and the
definitions with the scanner of libraries. Every call has arguments for the parameters that its
function had in the libraries when the call was written. The definition that is there in the end may
be another one: a library that is added later can have a function of the same name, while one that
has been copied stays. As long as all libraries agree on its parameters, the call fits its
definition.

* **`IsTypedCall`**, **`IsTypedScope`**, **`Typed`** — the text of a call, of a body, and of a
  program.
* **`PieceOf.exists_entryOf`** — what is found in the text of a definition.
* **`calls_typed`** — every program is well typed.
* **`steady_builtin`** — the libraries of built-in operators agree.
-/

namespace Texel.Program

open Glsl
open Shader (ValueType HasType Expression)

variable {β : Type} [Operable β] {g : Graph β} {p : Program} {order : List Nat}

/-! ## Texts -/

/-- A text that is read as one expression, which is a color and nothing else. -/
def IsColor (scope : List (String × ValueType)) (text : String) : Prop :=
  ∃ e, Expression.listOf? text = some [e] ∧
    ∀ type, HasType scope e type ↔ type = Kind.vec4.valueType

/-- Wherever the libraries have a function of the name while nodes take their turns, its parameters
are the same. -/
def Steady (g : Graph β) (order : List Nat) (name : String) : Prop :=
  ∀ library library' f f', Scanned g order library → Scanned g order library' →
    find? (functionsIn library) name = some f → find? (functionsIn library') name = some f' →
    f'.callParameters = f.callParameters

/-- The line calls a node. The function that the libraries have when the nodes `known` have had
their turn accepts the arguments; so does the function in the definitions if it is steady. -/
def IsTypedCall (g : Graph β) (p : Program) (known : List Nat) (id : Nat) (text : String) : Prop :=
  ∃ n arguments es, g.node? id = some n ∧
    text = "\t" ++ calleeName n ++ "(" ++ arguments ++ ");\n" ∧
    Expression.listOf? arguments = some es ∧
    (∃ f, find? (functionsIn (libraryOf (sources g p.order known))) (calleeName n) = some f ∧
      Accepts (types g p) n f es) ∧
    ∃ f ∈ functionsIn p.definitionsText, f.name = calleeName n ∧
      (Steady g p.order (calleeName n) → Accepts (types g p) n f es)

/-- Declarations of the outputs of some nodes, a call for each, and what is done with a color. -/
def IsTypedScope (g : Graph β) (p : Program) (known : Nat → List Nat) (ids : List Nat)
    (before after text : String) : Prop :=
  ∃ calls color, List.Forall₂ (fun id => IsTypedCall g p (known id) id) ids calls ∧
    IsColor (types g p) color ∧
    text = String.join (ids.flatMap (declarationTexts g) ++ calls ++ [before ++ color ++ after])

/-- The subtree function of a node: its calls were written before the turn of the node. -/
def IsTypedSubtree (g : Graph β) (p : Program) (n : Node β) (e : Entry) : Prop :=
  e.name = subtreeName n.id ∧ ∃ lines,
    e.text = subtreeSignature n.id ++ " \x7b\n" ++ lines ++ "\x7d" ∧
    IsTypedScope g p (fun _ => earlier p.order n.id) (p.order.filter (· ∈ g.ancestors n.id))
      "\treturn " ";\n" lines

structure Typed (g : Graph β) (p : Program) : Prop where
  /-- The body calls every node when its turn comes, and stores a color. -/
  body : IsTypedScope g p (upTo p.order) p.order "\timageStore(uOutput, cCoords, " ");\n" p.bodyText
  /-- There is nothing but functions in the definitions. -/
  whole : p.definitionsText = textOfEntries p.defined
  /-- A function is one of the libraries or a subtree function. -/
  definitions : ∀ e ∈ p.defined, (∃ library, Scanned g p.order library ∧ e ∈ entries library) ∨
    ∃ n ∈ g.nodes, IsTypedSubtree g p n e
  /-- Every multi-pass node has a subtree function. -/
  subtrees :
    ∀ n ∈ g.nodes, (operatorOf n).multiPass = true → ∃ e ∈ p.defined, IsTypedSubtree g p n e

/-! ## Lines -/

theorem isIdentifier_of_find? {library name : String} {f : Function}
    (h : find? (functionsIn library) name = some f) : isIdentifier name.toList = true :=
  name_of_find? h ▸ isIdentifier_of_mem_words (mem_of_find? h) List.mem_cons_self

omit [Operable β] in
theorem plain_declarations (hvalued : g.Valued) (ids : List Nat) :
    ∀ line ∈ ids.flatMap (declarations g), line.Plain := by
  intro line hline
  obtain ⟨id, -, hline⟩ := List.mem_flatMap.mp hline
  cases hn : g.node? id with
  | none => simp [declarations, hn] at hline
  | some n =>
    rw [declarations_eq hn] at hline
    obtain ⟨s, hs, rfl⟩ := List.mem_map.mp hline
    exact ⟨isNumeric_held ((hvalued n (List.mem_of_getElem? hn)).1 s hs), isName_outputName _ _⟩

/-- What has a type can be read, alone. -/
theorem Fits.isColor {scope : List (String × ValueType)} {e : Expr} (h : Fits scope e .vec4) :
    IsColor scope e.render := by
  refine ⟨e.tree, ?_, h.iff⟩
  have hplain : ∀ x ∈ [e], x.Plain := List.forall_mem_singleton.mpr h.plain
  have hread := Expr.listOf?_render hplain
  rwa [List.map_singleton, List.map_singleton, String.intercalate_singleton] at hread

section

variable (hwell : g.WellFormed) (hparams : ParamsApart g) (hp : Assembly g p)

include hwell hparams hp

theorem CallOf.plain {known : List Nat} {id : Nat} {line : Line}
    (h : CallOf g order known id line) :
    line.Plain := by
  cases h with
  | intro hn _ hf harguments =>
    have hpasses := passes_arguments hwell hparams hp (List.mem_of_getElem? hn) harguments
    exact ⟨isIdentifier_of_find? hf, hpasses.1⟩

/-- The lines of a body can be read if the last one can. -/
theorem ScopeOf.plain (hvalued : g.Valued) {known : Nat → List Nat} {ids : List Nat} {last : Line}
    {lines : List Line} (h : ScopeOf g order known ids last lines) (hlast : last.Plain) :
    ∀ line ∈ lines, line.Plain := by
  obtain ⟨calls, hcalls, rfl⟩ := h
  simp only [List.forall_mem_append, List.forall_mem_singleton]
  refine ⟨⟨plain_declarations hvalued ids, fun line hline => ?_⟩, hlast⟩
  obtain ⟨id, _, hcall⟩ := exists_of_mem_right hcalls hline
  exact hcall.plain hwell hparams hp

/-! ## Definitions -/

/-- The function that a definition is found as. -/
inductive EntryOf (g : Graph β) (order : List Nat) : (piece : Piece) → (e : Entry) → Prop
  | copy {library : String} {e : Entry} (hlibrary : Scanned g order library)
    (he : Entry.find? (entries library) e.name = some e) : EntryOf g order e.piece e
  | subtree {n : Node β} {value : Expr} {lines : List Line} {e : Entry} (hn : n ∈ g.nodes)
    (hvalue : subtreeResult g n = .ok value)
    (hlines : ScopeOf g order (fun _ => earlier order n.id) (members g order n.id)
      (.ret value) lines)
    (he : e.IsBlock (subtreeName n.id) lines) :
    EntryOf g order (.block (some (subtreeSignature n.id)) lines) e

omit hwell hparams hp in
/-- A subtree function is found under its own name. -/
theorem EntryOf.isBlock {id : Nat} {lines : List Line} {e : Entry}
    (h : EntryOf g order (.block (some (subtreeSignature id)) lines) e) :
    e.IsBlock (subtreeName id) lines := by
  generalize hpiece : Piece.block (some (subtreeSignature id)) lines = piece at h
  cases h with
  | copy => cases hpiece
  | subtree _ _ _ he =>
    obtain ⟨hsignature, rfl⟩ := Piece.block.inj hpiece
    rwa [subtreeSignature_inj.mp (Option.some.inj hsignature)]

/-- **A definition** is one function. -/
theorem PieceOf.exists_entryOf (hvalued : g.Valued) {piece : Piece} (h : PieceOf g order piece) :
    ∃ e, EntryOf g order piece e ∧ Holding piece.render [e] := by
  cases h with
  | @copy library e hlibrary he =>
    exact ⟨e, .copy hlibrary he, holding_definition (Entry.mem_of_find? he)⟩
  | @subtree n _ hn h =>
    cases h with
    | @intro value lines hvalue hlines =>
      have hreturn : (Line.ret value).Plain := (fits_subtreeResult hwell hparams hp hvalue).plain
      obtain ⟨e, hholding, hblock⟩ := exists_holding_block (isName_subtreeName n.id).1
        (hlines.plain hwell hparams hp hvalued hreturn)
      rw [← subtreeSignature_eq] at hholding
      exact ⟨e, .subtree hn hvalue hlines hblock, hholding⟩

/-- **The definitions**, one by one. -/
theorem exists_entries (hvalued : g.Valued) {pieces : List Piece}
    (h : ∀ piece ∈ pieces, PieceOf g order piece) :
    ∃ es, List.Forall₂ (EntryOf g order) pieces es ∧ Holding (renderPieces pieces) es := by
  induction pieces with
  | nil => exact ⟨[], .nil, holding_empty⟩
  | cons piece pieces ih =>
    rw [List.forall_mem_cons] at h
    obtain ⟨e, he, hpiece⟩ := h.1.exists_entryOf hwell hparams hp hvalued
    obtain ⟨es, hes, hpieces⟩ := ih h.2
    refine ⟨e :: es, .cons he hes, ?_⟩
    rw [renderPieces, List.map_cons, String.join_cons]
    exact hpiece.append hpieces

end

omit [Operable β] in
/-- What is found in the definitions is a function with these parameters. -/
theorem exists_function_of_defined {e : Entry} (he : e ∈ p.defined) :
    ∃ f ∈ functionsIn p.definitionsText, f.heading = e.toHeading := by
  obtain ⟨f, hf, hentry⟩ := List.mem_filterMap.mp he
  obtain ⟨_, _, rfl⟩ := Option.map_eq_some_iff.mp hentry
  exact ⟨f, hf, rfl⟩

/-- A steady function has the same parameters in the definitions as in the libraries. -/
theorem Steady.parameters_eq {library library' name : String} {e : Entry} {f : Function}
    (h : Steady g order name) (hlibrary : Scanned g order library)
    (hlibrary' : Scanned g order library') (he : Entry.find? (entries library) name = some e)
    (hf : find? (functionsIn library') name = some f) : e.parameters = f.callParameters := by
  rw [find?_entries] at he
  obtain ⟨f', hf', hentry⟩ := Option.bind_eq_some_iff.mp he
  obtain ⟨_, _, rfl⟩ := Option.map_eq_some_iff.mp hentry
  exact h library' library f f' hlibrary' hlibrary hf hf'

/-! ## Programs -/

section

variable (hwell : g.WellFormed) (hparams : ParamsApart g) (hp : Assembly g p)
  (hentries : List.Forall₂ (EntryOf g p.order) p.definitions p.defined)

include hp hentries

omit hwell hparams in
/-- The function of a node is defined, with the parameters that it has in the libraries if it is
steady. -/
theorem exists_definition_of_callee {n : Node β} (hn : n ∈ g.nodes) {library : String}
    {f : Function} (hlibrary : Scanned g p.order library)
    (hf : find? (functionsIn library) (calleeName n) = some f) :
    ∃ f' ∈ functionsIn p.definitionsText, f'.name = calleeName n ∧
      (Steady g p.order (calleeName n) → f'.callParameters = f.callParameters) := by
  obtain ⟨text, hmem⟩ := hp.called n hn
  obtain ⟨e, he, hentry⟩ := exists_of_mem_left hentries hmem
  generalize hpiece : Piece.definition (calleeName n) text = piece at hentry
  cases hentry with
  | copy hcopied hfind =>
    obtain ⟨hname, -⟩ := Piece.definition.inj hpiece
    obtain ⟨f', hf', hheading⟩ := exists_function_of_defined he
    refine ⟨f', hf', (congrArg Heading.name hheading).trans hname.symm, fun hsteady => ?_⟩
    rw [← hname] at hfind
    exact (congrArg Heading.parameters hheading).trans
      (hsteady.parameters_eq hcopied hlibrary hfind hf)
  | subtree => cases hpiece

include hwell hparams

/-- **A call** is well typed. -/
theorem CallOf.isTypedCall {known : List Nat} {id : Nat} {line : Line}
    (h : CallOf g p.order known id line) : IsTypedCall g p known id line.render := by
  cases h with
  | @intro n f arguments hn hknown hf harguments =>
    have hmem : n ∈ g.nodes := List.mem_of_getElem? hn
    obtain ⟨hplain, hpasses⟩ := passes_arguments hwell hparams hp hmem harguments
    obtain ⟨f', hf', hname, hsame⟩ :=
      exists_definition_of_callee hp hentries hmem ⟨known, hknown, rfl⟩ hf
    refine ⟨n, _, _, hn, rfl, Expr.listOf?_render hplain, ⟨f, hf, names_callParameters f, hpasses⟩,
      f', hf', hname, fun hsteady => ⟨names_callParameters f', ?_⟩⟩
    rw [hsame hsteady]
    exact hpasses

/-- **A body** is well typed if it ends with a color. -/
theorem ScopeOf.isTypedScope {known : Nat → List Nat} {ids : List Nat} {last : Line}
    {lines : List Line} (h : ScopeOf g p.order known ids last lines) {before after : String}
    {value : Expr} (hlast : last.render = before ++ value.render ++ after)
    (hvalue : Fits (types g p) value .vec4) :
    IsTypedScope g p known ids before after (renderLines lines) := by
  obtain ⟨calls, hcalls, rfl⟩ := h
  refine ⟨calls.map Line.render, value.render, ?_, hvalue.isColor, ?_⟩
  · rw [List.forall₂_map_right_iff]
    exact hcalls.imp fun id line hcall => hcall.isTypedCall hwell hparams hp hentries
  · rw [renderLines, List.map_append, List.map_append, map_render_declarations, List.map_singleton,
      hlast]

theorem EntryOf.isTypedSubtree {n : Node β} {lines : List Line} {e : Entry} {value : Expr}
    (hvalue : subtreeResult g n = .ok value)
    (hlines : ScopeOf g p.order (fun _ => earlier p.order n.id) (members g p.order n.id)
      (.ret value) lines)
    (he : e.IsBlock (subtreeName n.id) lines) : IsTypedSubtree g p n e := by
  refine ⟨he.name, renderLines lines, ?_, ?_⟩
  · rw [he.text, blockText, subtreeSignature_eq]
  · exact hlines.isTypedScope hwell hparams hp hentries rfl
      (fits_subtreeResult hwell hparams hp hvalue)

end

/-- **The text of a program** is well typed. -/
theorem Layout.typed (hwell : g.WellFormed) (hparams : ParamsApart g) (hvalued : g.Valued)
    (hp : Assembly g p) (h : Layout g p) : Typed g p := by
  obtain ⟨es, hes, hholding⟩ := exists_entries hwell hparams hp hvalued h.pieces
  obtain rfl : p.defined = es := hholding.entries_eq
  obtain ⟨s, value, lines, hs, hvalue, hlines, hbody⟩ := h.body
  exact {
    body := by
      rw [bodyText, hbody, renderPieces_lines]
      exact hlines.isTypedScope hwell hparams hp hes rfl (fits_stored hwell hparams hp hs hvalue)
    whole := hholding.text_eq
    definitions := by
      intro e he
      obtain ⟨piece, _, hpiece⟩ := exists_of_mem_right hes he
      cases hpiece with
      | copy hlibrary hfind => exact Or.inl ⟨_, hlibrary, Entry.mem_of_find? hfind⟩
      | subtree hn hvalue hlines hblock =>
        exact Or.inr ⟨_, hn, EntryOf.isTypedSubtree hwell hparams hp hes hvalue hlines hblock⟩
    subtrees := by
      intro n hn hmulti
      obtain ⟨_, hmem, ⟨hvalue, hlines⟩⟩ := h.subtrees n hn hmulti
      obtain ⟨e, he, hentry⟩ := exists_of_mem_left hes hmem
      exact ⟨e, he, EntryOf.isTypedSubtree hwell hparams hp hes hvalue hlines hentry.isBlock⟩ }

/-- **Calls are well typed.** -/
theorem calls_typed (operations : List (Graph.Operation β))
    (hparams : ParamsApart (.ofOperations operations))
    (h : (generate.run (.ofOperations operations)).result = .ok p) :
    Typed (.ofOperations operations) p := by
  have hwell := Graph.wellFormed_ofOperations operations
  exact (layout_of_generate hwell h).typed hwell hparams (valued_of_generate hwell h)
    (assembly_of_generate hwell h)

/-! ## Libraries that agree -/

/-- Libraries that agree on the parameters of a function keep it steady. -/
theorem steady_of_agree (htidy : Tidy g) {name : String} {parameters : List (String × Parameter)}
    (h : ∀ n ∈ g.nodes, ∀ e ∈ entries (contribution n), e.name = name → e.parameters = parameters) :
    Steady g order name := by
  have hfound : ∀ library f, Scanned g order library → find? (functionsIn library) name = some f →
      f.callParameters = parameters := by
    rintro _ f ⟨done, _, rfl⟩ hf
    obtain ⟨text, htext⟩ := Option.isSome_iff_exists.mp (isSome_definitionText? (mem_of_find? hf))
    have hentry : Entry.find? (entries (libraryOf (sources g order done))) name =
        some ⟨f.heading, text⟩ := by
      rw [find?_entries, hf, Option.bind_some, Function.entryIn?, htext, Option.map_some]
    obtain ⟨n, hn, hown⟩ :=
      exists_source_of_find? (fun n hn => htidy n (mem_sources hn)) hentry
    exact h n (mem_sources hn) _ (Entry.mem_of_find? hown) (Entry.name_of_find? hown)
  intro library library' f f' hlibrary hlibrary' hf hf'
  rw [hfound library f hlibrary hf, hfound library' f' hlibrary' hf']

open Builtin

theorem contribution_multi {n : Node Builtin} (h : n.behavior = heightGradient) :
    contribution n = gradientLibrary n.id ++ "\n" := by
  have hmulti : (operatorOf n).multiPass = true := (multiPass_iff _).mpr h
  have hoperator : operatorOf n = heightGradient.operator := congrArg Builtin.operator h
  rw [contribution, if_pos hmulti, hoperator]
  rfl

theorem contribution_single {n : Node Builtin} (h : n.behavior ≠ heightGradient) :
    contribution n = n.behavior.operator.library ++ "\n" :=
  contribution_of_single (mt (multiPass_iff n.behavior).mp h)

theorem tidy_builtin (g : Graph Builtin) : Tidy g := by
  intro n _
  by_cases hmulti : n.behavior = heightGradient
  · rw [contribution_multi hmulti]
    exact (gradientLibrary_holds n.id).toSettled.append holds_newline.toSettled
  · rw [contribution_single hmulti]
    exact n.behavior.library_holds.toSettled.append holds_newline.toSettled

/-- What a built-in library has under the name of the function of a node is that function. -/
theorem parameters_of_contribution {m n : Node Builtin} {e : Entry}
    (he : e ∈ entries (contribution m)) (hname : e.name = calleeName n) :
    e.parameters = n.behavior.signature := by
  by_cases hm : m.behavior = heightGradient
  · rw [contribution_multi hm, entries_newline, entries_gradientLibrary] at he
    obtain rfl := List.mem_singleton.mp he
    by_cases hn : n.behavior = heightGradient
    · rw [hn]
      rfl
    · replace hname : specialisedName Builtin.gradient m.id = n.behavior.operator.function :=
        hname.trans (calleeName_single hn)
      have hmention := names_subset_mentions _ _ n.behavior.function_mem_names
      exact absurd (hname ▸ hmention)
        (notMem_mentions_of_not_plain hn (specialisedName_not_plain m.id))
  · rw [contribution_single hm, entries_newline] at he
    have hmem : e.name ∈ m.behavior.names := by
      rw [← map_name_entriesOf]
      exact List.mem_map_of_mem he
    by_cases hn : n.behavior = heightGradient
    · rw [hname, calleeName_multi hn] at hmem
      exact absurd (names_subset_mentions _ _ hmem)
        (notMem_mentions_of_not_plain hm (specialisedName_not_plain n.id))
    · rw [calleeName_single hn] at hname
      rw [hname] at hmem
      -- no two operators share a name, and no library has one twice
      have hsame : n.behavior = m.behavior := by
        by_contra hne
        exact disjoint_names hne _ (names_subset_mentions _ _ n.behavior.function_mem_names) hmem
      obtain ⟨entry, hentry, hparameters⟩ := exists_find?_entriesOf n.behavior
      have hnodup : (n.behavior.entriesOf.map (·.name)).Nodup := by
        rw [map_name_entriesOf]
        exact n.behavior.nodup_names
      have he' : e ∈ n.behavior.entriesOf := hsame ▸ he
      rw [List.inj_on_of_nodup_map hnodup he' (Entry.mem_of_find? hentry)
        (hname.trans (Entry.name_of_find? hentry).symm), hparameters]

/-- **Built-in functions are steady**, so every call of one fits its definition. -/
theorem steady_builtin {g : Graph Builtin} (n : Node Builtin) : Steady g order (calleeName n) :=
  steady_of_agree (tidy_builtin g) fun _ _ _ he hname => parameters_of_contribution he hname

/-- The gradient of a gradient of noise. -/
theorem nestedGradients_typed :
    ParamsApart (.ofOperations (nestedGradients.map .edit)) ∧
    ∃ p, (generate.run (.ofOperations (nestedGradients.map .edit))).result = .ok p ∧
      Typed (.ofOperations (nestedGradients.map .edit)) p ∧
      ∀ n : Node Builtin,
        Steady (.ofOperations (nestedGradients.map .edit)) p.order (calleeName n) := by
  have hparams : ParamsApart (.ofOperations (nestedGradients.map .edit)) := by decide +kernel
  have hedits := Graph.ofEdits_eq_ofOperations nestedGradients
  obtain ⟨p, hresult, _⟩ := generate_of_acyclic (Graph.wellFormed_ofEdits nestedGradients)
    (Graph.standard_ofEdits nestedGradients) acyclic_nestedGradients (by decide +kernel)
  rw [hedits] at hresult
  exact ⟨hparams, p, hresult, calls_typed (nestedGradients.map .edit) hparams hresult,
    steady_builtin⟩

/-! ## Libraries that disagree -/

def wash : Operator where
  function := "f"
  library := "void f(out vec4 r)\x7b\x7d"
  outputs := [("Color", .vec4)]

/-- Has a function of the same name as `wash`, with one more parameter. -/
def glaze : Operator where
  function := "g"
  library := "void f(float x,out vec4 r)\x7b\x7dvoid g(out vec4 r)\x7b\x7d"
  outputs := [("Color", .vec4)]
  multiPass := true

/-- A wash, a glaze over it, and one more wash. -/
def washes : List (Graph.Operation Operator) :=
  [.edit (.create wash), .edit (.create glaze), .edit (.create wash)]

/-- The body of their program. The second wash is called like the function of the glaze. -/
def washesBody : String :=
  "\tvec4 out_0_0;\n\tvec4 out_1_0;\n\tvec4 out_2_0;\n" ++
    "\tf(out_0_0);\n\tg_1(out_1_0);\n\tf(0.0, out_2_0);\n" ++
    "\timageStore(uOutput, cCoords, out_2_0);\n"

/-- The definitions of their program. The function of the first wash has been copied, and stays. -/
def washesDefinitions : String :=
  "void f(out vec4 r)\x7b\x7d\n\n" ++
    "vec4 subtree_1(vec2 cUV) \x7b\n\treturn vec4(0.0);\n\x7d\n\n" ++
    "void g_1(out vec4 r)\x7b\x7d\n\n"

theorem exists_washes : ∃ p, (generate.run (.ofOperations washes)).result = .ok p ∧
    (p.bodyText, p.definitionsText) = (washesBody, washesDefinitions) :=
  exists_program (f := fun p => (p.bodyText, p.definitionsText)) (by decide +kernel)

/-- The last call has an argument more than the one function of its name that is defined. -/
theorem washes_call_unfit :
    ParamsApart (.ofOperations washes) ∧
    ∃ p, (generate.run (.ofOperations washes)).result = .ok p ∧
      p.bodyText = washesBody ∧ p.definitionsText = washesDefinitions ∧
      ∃ es, Expression.listOf? "0.0, out_2_0" = some es ∧
        ∀ n : Node Operator, ∀ f ∈ functionsIn p.definitionsText, f.name = "f" →
          ¬ Accepts (types (.ofOperations washes) p) n f es := by
  have hcount : (Expression.listOf? "0.0, out_2_0").map List.length = some 2 := by decide +kernel
  have hone : ∀ f ∈ functionsIn washesDefinitions, f.name = "f" → f.callParameters.length = 1 := by
    decide +kernel
  obtain ⟨p, hp, htexts⟩ := exists_washes
  obtain ⟨hbody, hdefinitions⟩ := Prod.mk.inj htexts
  obtain ⟨es, hes, hlength⟩ := Option.map_eq_some_iff.mp hcount
  refine ⟨by decide +kernel, p, hp, hbody, hdefinitions, es, hes, fun n f hf hname haccepts => ?_⟩
  rw [hdefinitions] at hf
  have hparameters := haccepts.2.length_eq
  rw [hlength, hone f hf hname] at hparameters
  cases hparameters

end Texel.Program
