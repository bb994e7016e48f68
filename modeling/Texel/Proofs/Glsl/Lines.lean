import Texel.Glsl.Code
import Texel.Proofs.Glsl.Rendering
import Texel.Proofs.Shader.Statements

/-!
# Texel — generated lines are read as they are meant

A line of generated code is one statement, and `Line.tree` is the statement that is meant. The text
of some lines is read as their statements, and so is the text of a function that has them for its
body.

* **`Line.read_render`** — a line; **`Line.ended_render`** says which functions it calls.
* **`statementsOf?_join`** — the lines of a body.
* **`listOf?_block`** — a function with a body of lines.
-/

namespace Texel.Glsl

open Shader (Expression Statement ValueType)
open Shader.Token (Spells Reads LinesRead endsName endsNumber spells_blank spells_symbol)
open Shader.Parse (Heads Whole IsFree Says Opens listTokens typeNamed)
open Correspondence

/-! ## Statements -/

namespace Line

/-- The statement of a line. Text as it is has none. -/
def tree : Line → Statement
  | .text _ => .block []
  | .declare kind name => .declare (.variableList {} (typeNamed kind.typeName) [⟨name, [], none⟩])
  | .call function arguments => .evaluate (.call function (arguments.map Expr.tree))
  | .ret value => .leave (some value.tree)
  | .store value =>
    .evaluate (.call "imageStore" [.variable "uOutput", .variable "cCoords", value.tree])

/-- The function that a line calls as a whole. -/
def callees : Line → List String
  | .call function _ => [function]
  | .store _ => ["imageStore"]
  | _ => []

/-- The line is made of words, and its expressions can be read. -/
def Plain : Line → Prop
  | .text _ => False
  | .declare kind name => kind.isNumeric = true ∧ IsName name
  | .call function arguments => isIdentifier function.toList = true ∧ ∀ e ∈ arguments, e.Plain
  | .ret value | .store value => value.Plain

end Line

/-! ## Characters -/

/-- The characters of a line, but for its end. -/
def isInline (c : Char) : Bool := isMild c || c == '\t' || c == ';'

/-- None of them ends a line, opens a comment or stands for a brace. -/
theorem isInline_spec {c : Char} (h : isInline c = true) :
    c ∉ ['\n', '\r', '\\', '/', '\x7b', '\x7d', '#'] := by
  intro hmem
  have hnone : (['\n', '\r', '\\', '/', '\x7b', '\x7d', '#'].filter isInline) = [] := by decide
  exact List.filter_eq_nil_iff.mp hnone c hmem h

theorem ne_newline_of_isInline {c : Char} (h : isInline c = true) : c ≠ '\n' := by
  rintro rfl
  exact absurd h (by decide)

theorem isPlain_of_isInline {c : Char} (h : isInline c = true) : Shader.Token.isPlain c = true := by
  have hspec := isInline_spec h
  simp only [List.mem_cons, not_or] at hspec
  simp [Shader.Token.isPlain, hspec]

theorem isInline_of_isMild {c : Char} (h : isMild c = true) : isInline c = true := by
  rw [isInline, h]
  rfl

/-! ## Lines -/

/-- The characters of a line are read as a statement, and the line has an end. -/
structure ReadLine (text : String) (s : Statement) : Prop where
  exists_tokens : ∃ cs ts, text.toList = cs ++ ['\n'] ∧ (∀ c ∈ cs, isInline c = true) ∧
    Reads cs ts ∧ Says ts s

/-- The words of a list in parentheses, behind a name. -/
theorem whole_call {f : String} {texts : List String} {es : List Expression} (hf : IsName f)
    (h : List.Forall₂ Means texts es) :
    ∃ ts, Whole (.name f :: ts) (.call f es) ∧
      Spells endsName (f.toList ++ '(' :: listChars (texts.map String.toList) ++ [')'])
        (.name f :: ts) := by
  obtain ⟨tss, hwhole, hspells⟩ := spells_list h
  exact ⟨_, (Shader.Parse.heads_call hf.2 hwhole).whole, spells_applied hf.1 hspells⟩

theorem means_renders {es : List Expr} (h : ∀ e ∈ es, e.Plain) :
    List.Forall₂ Means (es.map Expr.render) (es.map Expr.tree) := by
  rw [List.forall₂_map_left_iff, List.forall₂_map_right_iff, List.forall₂_same]
  exact fun e he => Expr.means_render (h e he)

/-- The text of a call as a statement. -/
def callText (f : String) (texts : List String) : String :=
  "\t" ++ f ++ "(" ++ ", ".intercalate texts ++ ");\n"

theorem toList_callText (f : String) (texts : List String) : (callText f texts).toList =
    '\t' :: (f.toList ++ '(' :: listChars (texts.map String.toList) ++ [')']) ++ [';'] ++
    ['\n'] := by
  rw [callText, String.toList_append, String.toList_append, String.toList_append,
    String.toList_append, toList_intercalate]
  simp

theorem inline_call {f : String} {texts : List String} {es : List Expression}
    (hf : isIdentifier f.toList = true) (h : List.Forall₂ Means texts es) :
    ∀ c ∈ '\t' :: (f.toList ++ '(' :: listChars (texts.map String.toList) ++ [')']) ++ [';'],
      isInline c = true := by
  have hmild := mild_applied hf (mild_list (forall_of_means h fun _ _ hmeans => hmeans.mild))
  rw [List.forall_mem_append, List.forall_mem_cons]
  exact ⟨⟨by decide, fun c hc => isInline_of_isMild (hmild c hc)⟩,
    List.forall_mem_singleton.mpr (by decide)⟩

theorem readLine_call {f : String} {texts : List String} {es : List Expression} (hf : IsName f)
    (h : List.Forall₂ Means texts es) : ReadLine (callText f texts) (.evaluate (.call f es)) := by
  obtain ⟨ts, hwhole, hspells⟩ := whole_call hf h
  have hline := (spells_blank (c := '\t') (by decide)).before
    (hspells.append (spells_symbol (c := ';') (by decide)) ⟨_, _, rfl, by decide⟩)
  exact ⟨_, _, toList_callText f texts, inline_call hf.1 h, hline.reads,
    Shader.Parse.says_evaluate hwhole hf.2⟩

theorem toList_leaveText (text : String) : ("\treturn " ++ text ++ ";\n").toList =
    '\t' :: ("return".toList ++ ' ' :: text.toList ++ [';']) ++ ['\n'] := by
  simp

/-- Two texts with a blank between them, as a line. -/
theorem inline_pair {a b : List Char} (ha : ∀ c ∈ a, isMild c = true)
    (hb : ∀ c ∈ b, isMild c = true) :
    ∀ c ∈ '\t' :: (a ++ ' ' :: b ++ [';']), isInline c = true := by
  simp only [List.forall_mem_cons, List.forall_mem_append]
  exact ⟨by decide, ⟨fun c hc => isInline_of_isMild (ha c hc), by decide,
    fun c hc => isInline_of_isMild (hb c hc)⟩, by decide, fun c hc => absurd hc List.not_mem_nil⟩

theorem mild_return : ∀ c ∈ "return".toList, isMild c = true := mild_word (by decide)

theorem readLine_leave {text : String} {e : Expression} (h : Means text e) :
    ReadLine ("\treturn " ++ text ++ ";\n") (.leave (some e)) := by
  obtain ⟨ts, hheads, hspells, -⟩ := h.reads
  have hreturn : Spells endsName "return".toList [.name "return"] := spells_word (by decide)
  have hvalue : Spells endsNumber (' ' :: text.toList) ts :=
    (spells_blank (by decide)).before hspells
  have hline := (spells_blank (c := '\t') (by decide)).before
    ((hreturn.append hvalue ⟨_, _, rfl, by decide⟩).append (spells_symbol (c := ';') (by decide))
      ⟨_, _, rfl, by decide⟩)
  exact ⟨_, _, toList_leaveText text, inline_pair mild_return h.mild, hline.reads,
    Shader.Parse.says_leave hheads.whole⟩

theorem toList_declareText (type w : String) : ("\t" ++ type ++ " " ++ w ++ ";\n").toList =
    '\t' :: (type.toList ++ ' ' :: w.toList ++ [';']) ++ ['\n'] := by
  simp

theorem readLine_declare {type w : String}
    (htype : (ValueType.ofName? type).isSome ∧ isIdentifier type.toList = true) (hw : IsName w) :
    ReadLine ("\t" ++ type ++ " " ++ w ++ ";\n")
      (.declare (.variableList {} (typeNamed type) [⟨w, [], none⟩])) := by
  have hname : Spells endsName (' ' :: w.toList) [.name w] :=
    (spells_blank (by decide)).before (spells_word hw.1)
  have hline := (spells_blank (c := '\t') (by decide)).before
    (((spells_word htype.2).append hname ⟨_, _, rfl, by decide⟩).append
      (spells_symbol (c := ';') (by decide)) ⟨_, _, rfl, by decide⟩)
  exact ⟨_, _, toList_declareText type w, inline_pair (mild_word htype.2) (mild_word hw.1),
    hline.reads, Shader.Parse.says_declare htype.1 hw.2⟩

theorem Kind.isType_typeName {kind : Kind} (h : kind.isNumeric = true) :
    (ValueType.ofName? kind.typeName).isSome ∧ isIdentifier kind.typeName.toList = true ∧
      kind.typeName ∈ notCalls := by
  refine isType_words kind.typeName ?_
  cases kind with
  | none => cases h
  | scalar => decide
  | vec2 => decide
  | vec3 => decide
  | vec4 => decide
  | image => cases h

/-- The words that the last line of a program has. -/
theorem isName_destination : ∀ w ∈ ["uOutput", "cCoords", "imageStore"], IsName w := by
  decide +kernel

theorem render_store (value : Expr) :
    (Line.store value).render = callText "imageStore" ["uOutput", "cCoords", value.render] := by
  show "\timageStore(uOutput, cCoords, " ++ value.render ++ ");\n" = _
  rw [← String.toList_inj, toList_callText]
  generalize value.render = text
  simp [listChars]

theorem means_store {value : Expr} (h : value.Plain) :
    List.Forall₂ Means ["uOutput", "cCoords", value.render]
      [.variable "uOutput", .variable "cCoords", value.tree] :=
  .cons (means_name (isName_destination "uOutput" (by simp)))
    (.cons (means_name (isName_destination "cCoords" (by simp))) (.cons (Expr.means_render h) .nil))

/-- **A line** is read as its statement. -/
theorem Line.read_render {line : Line} (h : line.Plain) (hcallees : ∀ f ∈ line.callees, IsFree f) :
    ReadLine line.render line.tree := by
  cases line with
  | text s => exact False.elim h
  | declare kind name =>
    obtain ⟨hknown, hword, -⟩ := Kind.isType_typeName h.1
    exact readLine_declare ⟨hknown, hword⟩ h.2
  | call function arguments =>
    have hf : IsName function := ⟨h.1, hcallees function (List.mem_singleton_self function)⟩
    exact readLine_call hf (means_renders h.2)
  | ret value => exact readLine_leave (Expr.means_render h)
  | store value =>
    rw [render_store]
    exact readLine_call (isName_destination _ (by simp)) (means_store h)

/-- A line is made of such characters, whatever it calls. -/
theorem Line.inline_render {line : Line} (h : line.Plain) :
    ∃ cs, line.render.toList = cs ++ ['\n'] ∧ ∀ c ∈ cs, isInline c = true := by
  cases line with
  | text s => exact False.elim h
  | declare kind name =>
    obtain ⟨-, hword, -⟩ := Kind.isType_typeName h.1
    exact ⟨_, toList_declareText _ _, inline_pair (mild_word hword) (mild_word h.2.1)⟩
  | call function arguments =>
    exact ⟨_, toList_callText _ _, inline_call h.1 (means_renders h.2)⟩
  | ret value => exact ⟨_, toList_leaveText _, inline_pair mild_return (Expr.means_render h).mild⟩
  | store value =>
    rw [render_store]
    exact ⟨_, toList_callText _ _,
      inline_call (isName_destination "imageStore" (by simp)).1 (means_store h)⟩

/-- **A line** ends where a call may begin, and calls nothing but its function and helpers. -/
theorem Line.ended_render {line : Line} (h : line.Plain) {names : List String}
    (hhelpers : ∀ name ∈ helperNames, name ∈ names)
    (hcallees : ∀ name ∈ line.callees, name ∈ names) :
    Ended names line.render.toList := by
  have htab : Ended names ['\t'] := ended_blank names (by decide)
  have hnewline : Ended names ['\n'] := ended_blank names (by decide)
  have hcall {f : String} {texts : List String} {es : List Expression}
      (hf : isIdentifier f.toList = true) (hmem : f ∈ names) (h : List.Forall₂ Means texts es) :
      Ended names (callText f texts).toList := by
    have hlist := utters_list (forall_of_means h fun _ _ hmeans => hmeans.utters names hhelpers)
    have happlied := hlist.applied hf (Or.inl (by rwa [String.ofList_toList]))
    rw [toList_callText]
    exact (((htab.append happlied).utters).mark (by decide) (by decide)).append hnewline
  cases line with
  | text s => exact False.elim h
  | declare kind name =>
    obtain ⟨-, hword, hcall⟩ := Kind.isType_typeName h.1
    have htype : Ended names (kind.typeName.toList ++ [' ']) :=
      ended_callee hword (Or.inr (by rwa [String.ofList_toList])) (Or.inl rfl)
    have hline := (((htab.append htype).before (utters_word names h.2.1)).mark (c := ';')
      (by decide) (by decide)).append hnewline
    show Ended names ("\t" ++ kind.typeName ++ " " ++ name ++ ";\n").toList
    rw [toList_declareText, List.append_cons kind.typeName.toList]
    exact hline
  | call function arguments =>
    exact hcall h.1 (hcallees function (List.mem_singleton_self function)) (means_renders h.2)
  | ret value =>
    have hreturn : Ended names ("return".toList ++ [' ']) :=
      ended_callee (by decide) (Or.inr (by decide)) (Or.inl rfl)
    have hline := (((htab.append hreturn).before ((Expr.means_render h).utters names hhelpers)).mark
      (c := ';') (by decide) (by decide)).append hnewline
    show Ended names ("\treturn " ++ value.render ++ ";\n").toList
    rw [toList_leaveText, List.append_cons "return".toList]
    exact hline
  | store value =>
    rw [render_store]
    exact hcall (isName_destination "imageStore" (by simp)).1
      (hcallees "imageStore" (List.mem_singleton_self _)) (means_store h)

/-! ## Bodies -/

/-- The statements of a text that is the body of a function. -/
def statementsOf? (text : String) : Option (List Statement) :=
  (Shader.Item.listOf? ("void main() \x7b\n" ++ text ++ "\x7d")).bind fun
    | [.function _ statements] => some statements
    | _ => none

/-- The lines of a body are read one by one. -/
theorem linesRead_join {texts : List String} {ss : List Statement}
    (h : List.Forall₂ ReadLine texts ss) :
    ∃ tss, List.Forall₂ Says tss ss ∧ ∀ {rest : List Char} {us : List Shader.Token},
      LinesRead rest us → LinesRead (texts.flatMap String.toList ++ rest) (tss.flatten ++ us) := by
  induction h with
  | nil => exact ⟨[], .nil, fun hrest => hrest⟩
  | @cons text s texts ss hline _ ih =>
    obtain ⟨cs, ts, hcs, hinline, hreads, hsays⟩ := hline.exists_tokens
    obtain ⟨tss, htss, hmore⟩ := ih
    refine ⟨ts :: tss, .cons hsays htss, fun hrest => ?_⟩
    have hnewline : '\n' ∉ cs := fun hmem => ne_newline_of_isInline (hinline _ hmem) rfl
    rw [List.flatMap_cons, hcs, List.flatten_cons, List.append_assoc, List.append_assoc,
      List.append_assoc, List.singleton_append]
    exact LinesRead.cons hnewline hreads (hmore hrest)

theorem isPlain_join {texts : List String} {ss : List Statement}
    (h : List.Forall₂ ReadLine texts ss) :
    ∀ c ∈ texts.flatMap String.toList, Shader.Token.isPlain c = true := by
  induction h with
  | nil => exact fun c hc => absurd hc List.not_mem_nil
  | @cons text s texts ss hline _ ih =>
    obtain ⟨cs, ts, hcs, hinline, -⟩ := hline.exists_tokens
    rw [List.flatMap_cons, hcs]
    refine List.forall_mem_append.mpr ⟨List.forall_mem_append.mpr ⟨?_, ?_⟩, ih⟩
    · exact fun c hc => isPlain_of_isInline (hinline c hc)
    · exact List.forall_mem_singleton.mpr (by decide)

/-- The head of a function is read up to the brace behind it. -/
structure ReadHead (text : String) (signature : Shader.Signature) : Prop where
  exists_tokens : ∃ ts, (∀ c ∈ text.toList, isInline c = true) ∧
    Spells endsName text.toList ts ∧ Opens ts signature

/-- **A function** whose body consists of lines. -/
theorem listOf?_block {head : String} {signature : Shader.Signature} {texts : List String}
    {ss : List Statement} (hhead : ReadHead head signature) (h : List.Forall₂ ReadLine texts ss) :
    Shader.Item.listOf? (head ++ " \x7b\n" ++ String.join texts ++ "\x7d") =
      some [.function signature ss] := by
  obtain ⟨ts, hinline, hspells, hopens⟩ := hhead.exists_tokens
  obtain ⟨tss, hsays, hlines⟩ := linesRead_join h
  have htext : (head ++ " \x7b\n" ++ String.join texts ++ "\x7d").toList =
      (head.toList ++ [' ', '\x7b']) ++ '\n' :: (texts.flatMap String.toList ++ ['\x7d']) := by
    simp [String.toList_join]
  have hplain : ∀ c ∈ (head.toList ++ [' ', '\x7b']) ++
      '\n' :: (texts.flatMap String.toList ++ ['\x7d']), Shader.Token.isPlain c = true := by
    simp only [List.forall_mem_append, List.forall_mem_cons]
    exact ⟨⟨fun c hc => isPlain_of_isInline (hinline c hc), by decide, by decide,
      fun c hc => absurd hc List.not_mem_nil⟩, by decide, isPlain_join h, by decide,
      fun c hc => absurd hc List.not_mem_nil⟩
  have hnewline : '\n' ∉ head.toList ++ [' ', '\x7b'] := by
    rw [List.mem_append, not_or]
    exact ⟨fun hmem => ne_newline_of_isInline (hinline _ hmem) rfl, by decide⟩
  have hbrace : Reads (head.toList ++ [' ', '\x7b']) (ts ++ [.symbol "\x7b"]) :=
    (hspells.append ((spells_blank (by decide)).before (spells_symbol (c := '\x7b') (by decide)))
      ⟨_, _, rfl, by decide⟩).reads
  have hlast : LinesRead ['\x7d'] [.symbol "\x7d"] :=
    Shader.Token.linesRead_last (by decide) (spells_symbol (c := '\x7d') (by decide)).reads
  have htokens : Shader.Token.ofText? (head ++ " \x7b\n" ++ String.join texts ++ "\x7d") =
      some (ts ++ .symbol "\x7b" :: (tss.flatten ++ [.symbol "\x7d"])) := by
    refine Shader.Token.ofText?_of_linesRead (htext ▸ hplain) ?_
    rw [htext, List.append_cons ts]
    exact LinesRead.cons hnewline hbrace (hlines hlast)
  exact Shader.Item.listOf?_function htokens hopens hsays

/-- The head of a function of one value. -/
def headText (result w type v : String) : String :=
  result ++ " " ++ w ++ "(" ++ type ++ " " ++ v ++ ")"

theorem toList_headText (result w type v : String) : (headText result w type v).toList =
    result.toList ++ ' ' :: (w.toList ++ '(' :: (type.toList ++ ' ' :: v.toList) ++ [')']) := by
  simp [headText]

theorem readHead_function {result w type v : String}
    (hresult : (ValueType.ofName? result).isSome ∧ isIdentifier result.toList = true)
    (hw : IsName w) (htype : (ValueType.ofName? type).isSome ∧ isIdentifier type.toList = true)
    (hv : IsName v) : ReadHead (headText result w type v)
      ⟨some (typeNamed result), w, [⟨[], typeNamed type, some v⟩]⟩ := by
  have htext := toList_headText result w type v
  refine ⟨_, ?_, ?_, Shader.Parse.opens_function hresult.1 htype.1 hw.2 hv.2⟩
  · have hparameter : ∀ c ∈ type.toList ++ ' ' :: v.toList, isMild c = true :=
      List.forall_mem_append.mpr
        ⟨mild_word htype.2, List.forall_mem_cons.mpr ⟨by decide, mild_word hv.1⟩⟩
    rw [htext]
    refine fun c hc => isInline_of_isMild ?_
    rcases List.mem_append.mp hc with hc | hc
    · exact mild_word hresult.2 c hc
    · rcases List.mem_cons.mp hc with rfl | hc
      · decide
      · exact mild_applied hw.1 hparameter c hc
  · have hparameter : Spells endsName (type.toList ++ ' ' :: v.toList) [.name type, .name v] :=
      (spells_word htype.2).append ((spells_blank (by decide)).before (spells_word hv.1))
        ⟨_, _, rfl, by decide⟩
    have happlied := (spells_blank (c := ' ') (by decide)).before
      (spells_applied hw.1 (hparameter.mono fun _ => endsName_of_endsNumber))
    rw [htext]
    exact (spells_word hresult.2).append happlied ⟨_, _, rfl, by decide⟩

/-- **The body of a program.** -/
theorem statementsOf?_join {texts : List String} {ss : List Statement}
    (h : List.Forall₂ ReadLine texts ss) : statementsOf? (String.join texts) = some ss := by
  have hmain : isIdentifier "void".toList = true ∧ IsName "main" := by decide +kernel
  have hhead : ReadHead "void main()" ⟨none, "main", []⟩ := by
    refine ⟨_, ?_, ?_, Shader.Parse.opens_procedure hmain.2.2⟩
    · have hname := mild_applied hmain.2.1 (List.forall_mem_nil (isMild · = true))
      show ∀ c ∈ "void".toList ++ ' ' :: ("main".toList ++ ['('] ++ [')']), isInline c = true
      refine List.forall_mem_append.mpr ⟨fun c hc => isInline_of_isMild (mild_word hmain.1 c hc),
        List.forall_mem_cons.mpr ⟨by decide, fun c hc => isInline_of_isMild (hname c hc)⟩⟩
    · have hempty : Spells endsNumber [] [] := fun rest us _ hreads => hreads
      have hname := (spells_blank (c := ' ') (by decide)).before (spells_applied hmain.2.1 hempty)
      exact (spells_word hmain.1).append hname ⟨_, _, rfl, by decide⟩
  have hopen : "void main() \x7b\n" = "void main()" ++ " \x7b\n" := by decide
  rw [statementsOf?, hopen, listOf?_block hhead h]
  rfl

end Texel.Glsl
