import Texel.Proofs.Glsl.Emission
import Texel.Proofs.Glsl.Lines
import Texel.Proofs.Glsl.Recognition
import Texel.Proofs.Glsl.Spans

/-!
# Texel — the functions in the text of definitions

The definitions of a program are one text, put together from copied definitions and from functions
that are written for a node. The scanner that reads libraries reads that text as well, and finds one
function for each of them, with the calls it makes.

* **`Holding`** — a text with the functions that are found in it, after which another may follow.
* **`holding_definition`** — a definition that has been copied is found as it was.
* **`exists_holding_block`** — a function that is written from lines calls what its lines call.
-/

namespace Texel.Glsl

open Text Correspondence Grammar

/-! ## Texts with their functions -/

/-- The texts of some functions, with a blank line behind each. -/
def textOfEntries (es : List Entry) : String := String.join (es.map fun e => e.text ++ "\n\n")

/-- Exactly these functions are found in the text, which consists of nothing else and can be
followed by another. -/
structure Holding (text : String) (es : List Entry) : Prop extends Settled text where
  entries_eq : entries text = es
  text_eq : text = textOfEntries es

theorem textOfEntries_singleton (e : Entry) : textOfEntries [e] = e.text ++ "\n\n" := by
  rw [textOfEntries, List.map_singleton, String.join_cons, String.join_nil, String.append_empty]

theorem holding_empty : Holding "" [] := ⟨settled_empty, rfl, rfl⟩

theorem Holding.append {a b : String} {es fs : List Entry} (ha : Holding a es) (hb : Holding b fs) :
    Holding (a ++ b) (es ++ fs) where
  toSettled := ha.toSettled.append hb.toSettled
  entries_eq := by rw [entries_append ha.toSettled.complete, ha.entries_eq, hb.entries_eq]
  text_eq := by
    rw [textOfEntries, List.map_append, String.join_append]
    exact congrArg₂ _ ha.text_eq hb.text_eq

/-- **A copy.** -/
theorem holding_definition {source : String} {e : Entry} (h : e ∈ entries source) :
    Holding e.piece.render [e] := by
  obtain ⟨f, hf, hentry⟩ := List.mem_filterMap.mp h
  obtain ⟨text, htext, rfl⟩ := Option.map_eq_some_iff.mp hentry
  obtain ⟨hsettled, f₀, hfunctions, hcopy⟩ := copy_definition hf htext
  refine ⟨hsettled, ?_, (textOfEntries_singleton _).symm⟩
  have hheading : f₀.heading = f.heading := by
    rw [Function.heading, hcopy.name, callParameters_congr hcopy.groups, hcopy.calls]
    rfl
  show entries (text ++ "\n\n") = _
  rw [entries, hfunctions, List.filterMap_cons, Function.entryIn?, hcopy.text, htext, hheading]
  rfl

/-! ## Calls -/

/-- The calls of a function are among those of the text. -/
theorem calls_of_utters {names : List String} {text : String} {f : Function}
    (h : Utters names text.toList) (hf : f ∈ functionsIn text) :
    ∀ name ∈ f.calls, name ∈ names ∧ name ≠ f.name := by
  obtain ⟨before, first, inner, last, after, htokens, -, -, -, -, hcalls⟩ :=
    (Reader.bodied (tokens text)).2 f (List.mem_reverse.mp hf)
  have hchain := h.tokens
  have hsplit : (tokens text).reverse =
      after.reverse ++ (first :: inner ++ [last]).reverse ++ before.reverse := by
    rw [htokens]
    simp
  rw [hsplit] at hchain
  rw [hcalls]
  exact callsIn_subset (List.IsChain.right_of_append (List.IsChain.left_of_append hchain))

/-! ## Functions of one value -/

/-- A text without braces, comments and directives. -/
theorem balanced_of_forall {cs : List Char} (h : ∀ c ∈ cs, c ∉ ['/', '\x7b', '\x7d', '#']) :
    Balanced cs := by
  induction cs with
  | nil => exact .nil
  | cons c cs ih =>
    rw [List.forall_mem_cons, List.mem_cons, not_or] at h
    exact .plain h.1.2 (fun hc => absurd hc h.1.1) (ih h.2)

/-- The texts between the words of a generated head. -/
def blank : Separator := ⟨[.blank ' ' (by decide)], List.cons_ne_nil _ _⟩

/-- A definition with one parameter, written as generated ones are. -/
def oneParameter (result w type v : Word) {inner : List Char} (h : Balanced inner) :
    Definition where
  returnType := result
  afterType := blank
  name := w
  afterName := []
  parameters := .groups ⟨[], ⟨[], type, blank, v⟩, []⟩ [] (List.nodup_singleton _)
  afterParameters := blank.gap
  inner := inner
  balanced := h

/-- What is found of a function of one value. -/
structure IsFunctionOf (result w type v text : String) (f : Function) : Prop where
  name : f.name = w
  returnType : f.returnType = result
  parameters : f.callParameters = [(v, ⟨(Kind.ofTypeName? type).getD .none, .none, type⟩)]
  text : f.definitionText? text = some text

/-- **A function of one value** is found from its head to its last brace. -/
theorem exists_functionOf {result w type v text inner : String}
    (hwords : ∀ word ∈ [result, w, type, v], isIdentifier word.toList = true)
    (hinner : Balanced inner.toList)
    (htext : text = headText result w type v ++ " \x7b" ++ inner ++ "\x7d") :
    Settled (text ++ "\n") ∧ ∃ f, functionsIn text = [f] ∧ IsFunctionOf result w type v text f := by
  simp only [List.forall_mem_cons] at hwords
  obtain ⟨hresult, hw, htype, hv, -⟩ := hwords
  generalize hd : oneParameter ⟨result.toList, hresult⟩ ⟨w.toList, hw⟩ ⟨type.toList, htype⟩
    ⟨v.toList, hv⟩ hinner = d
  have hchars : d.chars = text.toList := by
    subst hd htext
    rw [String.toList_append, String.toList_append, String.toList_append, toList_headText]
    simp [Definition.chars, Definition.head, Definition.body, oneParameter, blank, charsOf,
      Element.chars, Separator.elements, Gap.elements, Filler.chars, Mark.char, Parameters.elements,
      Padded.elements, Group.elements]
  have hstart : Lexer.Ready {} [] := ⟨rfl, rfl⟩
  obtain ⟨f, hfound, hready⟩ := hstart.definition d [] rfl
  rw [hchars] at hready
  have hread : (tokens text).foldl Reader.step {} = ⟨.outside, [f]⟩ := by
    rw [tokens, Lexer.finish, Lexer.close_of_code hready.mode, hready.read]
  refine ⟨settled_newline hready.mode (by rw [hread]), f, by rw [functionsIn, hread]; rfl, ?_⟩
  have hgroup : d.parameters.declared = [⟨[], ⟨type.toList, htype⟩, blank, ⟨v.toList, hv⟩⟩] := by
    rw [← hd]
    rfl
  have hword : ∀ {u : String} (hu : isIdentifier u.toList = true),
      Word.text ⟨u.toList, hu⟩ = u := fun _ => String.ofList_toList
  refine ⟨?_, ?_, ?_, ?_⟩
  · rw [hfound.name, ← hd]
    exact hword hw
  · rw [hfound.returnType, ← hd]
    exact hword hresult
  · rw [Function.callParameters, hfound.parameters, hgroup]
    simp [hfound.parameter?, hgroup, hword, Group.parameter, Group.qualifier]
  · rw [Function.definitionText?, hfound.definition, List.nil_append, hchars]
    exact slice?_whole text

/-- Lines that end, one after the other. -/
theorem ended_renderLines {names : List String} {lines : List Line} (h : ∀ line ∈ lines, line.Plain)
    (hhelpers : ∀ name ∈ helperNames, name ∈ names)
    (hcallees : ∀ line ∈ lines, ∀ name ∈ line.callees, name ∈ names) :
    Ended names (renderLines lines).toList := by
  induction lines with
  | nil => exact ended_nil names
  | cons line lines ih =>
    rw [List.forall_mem_cons] at h hcallees
    rw [renderLines, List.map_cons, String.join_cons, String.toList_append]
    exact (Line.ended_render h.1 hhelpers hcallees.1).append (ih h.2 hcallees.2)

theorem balanced_renderLines {lines : List Line} (h : ∀ line ∈ lines, line.Plain) :
    Balanced (renderLines lines).toList := by
  refine balanced_of_forall fun c hc => ?_
  rw [renderLines, String.toList_join, List.flatMap_map] at hc
  obtain ⟨line, hline, hc⟩ := List.mem_flatMap.mp hc
  obtain ⟨cs, hcs, hinline⟩ := Line.inline_render (h line hline)
  rw [hcs] at hc
  rcases List.mem_append.mp hc with hc | hc
  · have hspec := isInline_spec (hinline c hc)
    simp only [List.mem_cons, not_or] at hspec ⊢
    tauto
  · rw [List.mem_singleton.mp hc]
    decide

/-- What a function of one value with some lines for its body calls. -/
theorem calls_functionOf {result w type v text : String} {lines : List Line} {f : Function}
    (hwords : ∀ word ∈ [result, type], isIdentifier word.toList = true ∧ word ∈ notCalls)
    (hnames : ∀ word ∈ [w, v], isIdentifier word.toList = true)
    (hlines : ∀ line ∈ lines, line.Plain)
    (htext : text = headText result w type v ++ " \x7b\n" ++ renderLines lines ++ "\x7d")
    (hf : f ∈ functionsIn text) (hself : f.name = w) :
    ∀ name ∈ f.calls, name ∈ helperNames ∨ ∃ line ∈ lines, name ∈ line.callees := by
  simp only [List.forall_mem_cons] at hwords hnames
  obtain ⟨⟨hresult, hresultCall⟩, ⟨htype, htypeCall⟩, -⟩ := hwords
  obtain ⟨hw, hv, -⟩ := hnames
  generalize hall : w :: (helperNames ++ lines.flatMap Line.callees) = names
  have hmem : ∀ {name}, name = w ∨ name ∈ helperNames ∨ (∃ line ∈ lines, name ∈ line.callees) ↔
      name ∈ names := by
    intro name
    rw [← hall, List.mem_cons, List.mem_append, List.mem_flatMap]
  have hfront : Ended names (result.toList ++ [' ']) :=
    ended_callee hresult (Or.inr (by rwa [String.ofList_toList])) (Or.inl rfl)
  have hparameter : Utters names (type.toList ++ [' '] ++ v.toList) :=
    (ended_callee htype (Or.inr (by rwa [String.ofList_toList])) (Or.inl rfl)).before
      (utters_word names hv)
  have hhead := (hfront.append (hparameter.applied hw
    (Or.inl (by rw [String.ofList_toList]; exact hmem.mp (Or.inl rfl))))).append
      (ended_blank names (c := ' ') (by decide))
  have hbody := ended_renderLines hlines (fun name hname => hmem.mp (Or.inr (Or.inl hname)))
    fun line hline name hname => hmem.mp (Or.inr (Or.inr ⟨line, hline, hname⟩))
  have hbrace {c : Char} (hc : c = '\x7b' ∨ c = '\x7d') : Ended names [c] := by
    rcases hc with rfl | rfl
    · exact ended_symbol names (by decide) (by decide) (by decide) (by decide)
    · exact ended_symbol names (by decide) (by decide) (by decide) (by decide)
  have hutters : Utters names text.toList := by
    have hwhole := ((((hhead.append (hbrace (Or.inl rfl))).append
      (ended_blank names (c := '\n') (by decide))).append hbody).append
        (hbrace (Or.inr rfl))).utters
    have hopen : " \x7b\n".toList = [' ', '\x7b', '\n'] := by decide
    have hclose : "\x7d".toList = ['\x7d'] := by decide
    rw [htext, String.toList_append, String.toList_append, String.toList_append, toList_headText,
      hopen, hclose]
    simpa only [List.append_assoc, List.cons_append, List.nil_append] using hwhole
  intro name hname
  obtain ⟨hnames, hne⟩ := calls_of_utters hutters hf name hname
  exact (hmem.mpr hnames).resolve_left (hself ▸ hne)

/-! ## Functions of the coordinate -/

/-- What the text of a function of the coordinate is, without the blank line behind it. -/
def blockText (w : String) (lines : List Line) : String :=
  headText "vec4" w "vec2" coordName ++ " \x7b\n" ++ renderLines lines ++ "\x7d"

/-- The parameters of a function of the coordinate. -/
def coordParameters : List (String × Parameter) := [(coordName, ⟨.vec2, .none, "vec2"⟩)]

/-- A function of the coordinate, with some lines for its body. -/
structure Entry.IsBlock (w : String) (lines : List Line) (e : Entry) : Prop where
  name : e.name = w
  parameters : e.parameters = coordParameters
  calls : ∀ name ∈ e.calls, name ∈ helperNames ∨ ∃ line ∈ lines, name ∈ line.callees
  text : e.text = blockText w lines

/-- **A block** is one function. -/
theorem exists_holding_block {w : String} {lines : List Line} (hw : isIdentifier w.toList = true)
    (hlines : ∀ line ∈ lines, line.Plain) :
    ∃ e, Holding (Piece.block (some (headText "vec4" w "vec2" coordName)) lines).render [e] ∧
      e.IsBlock w lines := by
  have hwords : ∀ word ∈ ["vec4", "vec2"], isIdentifier word.toList = true ∧ word ∈ notCalls := by
    decide
  have hcoord : isIdentifier coordName.toList = true := by decide
  have hinner : Balanced ("\n" ++ renderLines lines).toList := by
    have hline : "\n".toList = ['\n'] := by decide
    rw [String.toList_append, hline]
    exact .plain (by decide) (fun h => absurd h (by decide)) (balanced_renderLines hlines)
  have htext : blockText w lines =
      headText "vec4" w "vec2" coordName ++ " \x7b" ++ ("\n" ++ renderLines lines) ++ "\x7d" := by
    have hopen : " \x7b\n" = " \x7b" ++ "\n" := by decide
    rw [blockText, hopen]
    simp only [String.append_assoc]
  obtain ⟨hsettled, f, hfunctions, hf⟩ := exists_functionOf
    (List.forall_mem_cons.mpr ⟨(hwords "vec4" (by simp)).1, List.forall_mem_cons.mpr ⟨hw,
      List.forall_mem_cons.mpr ⟨(hwords "vec2" (by simp)).1,
        List.forall_mem_singleton.mpr hcoord⟩⟩⟩)
    hinner htext
  have hcalls := calls_functionOf hwords (by simp [hw, hcoord]) hlines rfl
    (hfunctions ▸ List.mem_singleton_self f) hf.name
  have hrender : (Piece.block (some (headText "vec4" w "vec2" coordName)) lines).render =
      blockText w lines ++ "\n" ++ "\n" := by
    have hend : "\x7d\n\n" = "\x7d" ++ "\n" ++ "\n" := by decide
    show headText "vec4" w "vec2" coordName ++ " \x7b\n" ++ renderLines lines ++ "\x7d\n\n" = _
    rw [hend, blockText]
    simp only [String.append_assoc]
  refine ⟨⟨f.heading, blockText w lines⟩, ⟨?_, ?_, ?_⟩, hf.name, hf.parameters, hcalls, rfl⟩
  · rw [hrender]
    exact hsettled.append ⟨rfl, rfl, rfl⟩
  · rw [hrender, entries_newline, entries_newline, entries, hfunctions, List.filterMap_cons,
      Function.entryIn?, hf.text]
    rfl
  · have hblank : "\n" ++ "\n" = "\n\n" := by decide
    rw [hrender, String.append_assoc, hblank, textOfEntries_singleton]

/-! ## Reading -/

/-- Lines that can be read, with their statements. -/
theorem forall₂_readLine {lines : List Line} (h : ∀ line ∈ lines, line.Plain)
    (hcallees : ∀ line ∈ lines, ∀ f ∈ line.callees, Shader.Parse.IsFree f) :
    List.Forall₂ ReadLine (lines.map Line.render) (lines.map Line.tree) := by
  rw [List.forall₂_map_left_iff, List.forall₂_map_right_iff, List.forall₂_same]
  exact fun line hline => Line.read_render (h line hline) (hcallees line hline)

/-- **A body** is read as the statements of its lines. -/
theorem statementsOf?_renderLines {lines : List Line} (h : ∀ line ∈ lines, line.Plain)
    (hcallees : ∀ line ∈ lines, ∀ f ∈ line.callees, Shader.Parse.IsFree f) :
    statementsOf? (renderLines lines) = some (lines.map Line.tree) :=
  statementsOf?_join (forall₂_readLine h hcallees)

/-- The signature of a function of the coordinate. -/
def blockSignature (w : String) : Shader.Signature :=
  ⟨some (Shader.Parse.typeNamed "vec4"), w, [⟨[], Shader.Parse.typeNamed "vec2", some coordName⟩]⟩

/-- **A function of the coordinate** is read with the statements of its lines. -/
theorem listOf?_blockText {w : String} {lines : List Line} (hw : IsName w)
    (h : ∀ line ∈ lines, line.Plain)
    (hcallees : ∀ line ∈ lines, ∀ f ∈ line.callees, Shader.Parse.IsFree f) :
    Shader.Item.listOf? (blockText w lines) =
      some [.function (blockSignature w) (lines.map Line.tree)] := by
  obtain ⟨hvec4, hvec4Word, -⟩ := isType_words "vec4" (by simp)
  obtain ⟨hvec2, hvec2Word, -⟩ := isType_words "vec2" (by simp)
  have hhead := readHead_function ⟨hvec4, hvec4Word⟩ hw ⟨hvec2, hvec2Word⟩
    (isName_words coordName (by simp))
  exact listOf?_block hhead (forall₂_readLine h hcallees)

end Texel.Glsl
