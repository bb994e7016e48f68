import Texel.Glsl.Expr
import Texel.Proofs.Glsl.Callees
import Texel.Proofs.Shader.Reading

/-!
# Texel — generated expressions are read as they are meant

An expression is written as text, and a text is read as a syntax tree. `Expr.tree` is the tree that
is meant, and here the reader finds it: what is converted stays together, and a part is taken of all
that stands before the point.

* **`Means`** — a text is read as a tree, and still is when a part of it is taken. The lemmas that
  follow say how texts are put together.
* **`Conversion.means_text`** — every conversion keeps the meaning of what it converts.
* **`Expr.means_render`**, **`Expr.listOf?_render`** — expressions, and lists of them.
-/

namespace Texel.Glsl

open Shader (Expression ValueType)
open Shader.Token (Spells endsName endsNumber)
open Shader.Parse (Heads Whole IsFree listTokens)
open Correspondence

/-! ## Trees -/

/-- The numbers that generated code has. -/
def zeroTree : Expression := .literal .float (.decimal 0 (-1))

def oneTree : Expression := .literal .float (.decimal 10 (-1))

/-- The tree of a converted expression. -/
def Conversion.tree (conversion : Conversion) (e : Expression) : Expression :=
  match conversion with
  | .identity => e
  | .vec2ToScalar => .field e "x"
  | .vec3ToScalar => .call "rgb_to_float" [e]
  | .vec4ToScalar => .call "rgba_to_float" [e]
  | .scalarToVec2 => .construct "vec2" [] [e, oneTree]
  | .vec3ToVec2 => .construct "vec2" [] [.call "rgb_to_float" [e], oneTree]
  | .vec4ToVec2 => .construct "vec2" [] [.call "rgb_to_float" [.field e "xyz"], .field e "w"]
  | .scalarToVec3 => .construct "vec3" [] [e]
  | .vec2ToVec3 => .construct "vec3" [] [.field e "x"]
  | .vec4ToVec3 => .field e "xyz"
  | .scalarToVec4 => .construct "vec4" [] [.construct "vec3" [] [e], oneTree]
  | .vec2ToVec4 => .construct "vec4" [] [.construct "vec3" [] [.field e "x"], .field e "y"]
  | .vec3ToVec4 => .construct "vec4" [] [e, oneTree]

namespace Expr

def tree : Expr → Expression
  | .var name => .variable name
  | .coord => .variable coordName
  | .zero .scalar => zeroTree
  | .zero kind => .construct kind.typeName [] [zeroTree]
  | .sample image position =>
    .binary "*"
      (.call "imageLoad" [.variable image,
        .call "uv_to_texel" [position.tree, .call "imageSize" [.variable image]]])
      (.construct "float" [] [.variable (flagName image)])
  | .convert conversion e => conversion.tree e.tree

end Expr

/-! ## Texts that mean a tree -/

/-- A word that names a variable or a function. -/
def IsName (w : String) : Prop := isIdentifier w.toList = true ∧ IsFree w

instance (w : String) : Decidable (IsName w) := inferInstanceAs (Decidable (_ ∧ _))

/-- The functions that generated expressions call: those of the template and those for images. -/
def helperNames : List String :=
  ["rgb_to_float", "rgba_to_float", "uv_to_texel", "imageSize", "imageLoad"]

/-- The characters that generated expressions are made of. -/
def isMild (c : Char) : Bool := Identifier.isPart c || ['(', ')', ',', ' ', '.', '*'].contains c

/-- The text can be put where an expression is expected. -/
structure Means (text : String) (e : Expression) : Prop where
  /-- It is read as the tree where an argument stands, and before a point if it stays bare there. -/
  reads : ∃ ts, Heads ts e ∧ Spells endsNumber text.toList ts ∧
    (Conversion.operand text = text → Spells endsName text.toList ts)
  mild : ∀ c ∈ text.toList, isMild c = true
  utters : ∀ names, (∀ name ∈ helperNames, name ∈ names) → Utters names text.toList

theorem endsName_of_endsNumber {c : Char} (h : endsNumber c = true) : endsName c = true := by
  simp only [endsNumber, Bool.or_eq_true, beq_iff_eq] at h
  rcases h with ((rfl | rfl) | rfl) | rfl
  · decide
  · decide
  · decide
  · decide

theorem Means.of_spells {text : String} {ts : List Shader.Token} {e : Expression}
    (hheads : Heads ts e) (h : Spells endsName text.toList ts)
    (hmild : ∀ c ∈ text.toList, isMild c = true)
    (hutters : ∀ names, (∀ name ∈ helperNames, name ∈ names) → Utters names text.toList) :
    Means text e :=
  ⟨⟨ts, hheads, h.mono fun _ => endsName_of_endsNumber, fun _ => h⟩, hmild, hutters⟩

theorem Means.congr {text text' : String} {e : Expression} (h : Means text e)
    (htext : text'.toList = text.toList) : Means text' e :=
  String.toList_inj.mp htext ▸ h

theorem exists_cons_of_isIdentifier {w : List Char} (h : isIdentifier w = true) :
    ∃ c cs, w = c :: cs ∧ Identifier.isStart c = true ∧ ∀ d ∈ cs, Identifier.isPart d = true := by
  cases w with
  | nil => cases h
  | cons c cs =>
    rw [isIdentifier, Bool.and_eq_true, List.all_eq_true] at h
    exact ⟨c, cs, rfl, h⟩

theorem spells_word {w : String} (h : isIdentifier w.toList = true) :
    Spells endsName w.toList [.name w] := by
  obtain ⟨c, cs, hcs, hc, hparts⟩ := exists_cons_of_isIdentifier h
  have hstart : Shader.Token.isNameStart c = true := by
    unfold Identifier.isStart at hc
    unfold Shader.Token.isNameStart
    rw [hc]
    rfl
  have hword : ∀ d ∈ cs, Shader.Token.isNamePart d = true := by
    intro d hd
    have := hparts d hd
    simp only [Identifier.isPart, Char.isAlphanum, Bool.or_eq_true] at this
    simp only [Shader.Token.isNamePart, Shader.Token.isNameStart, Bool.or_eq_true]
    tauto
  have hw : w = String.ofList (c :: cs) := by rw [← hcs, String.ofList_toList]
  rw [hcs, hw]
  exact Shader.Token.spells_name hstart hword

theorem isMild_of_isPart {c : Char} (h : Identifier.isPart c = true) : isMild c = true := by
  rw [isMild, h]
  rfl

theorem mild_word {w : List Char} (h : isIdentifier w = true) : ∀ c ∈ w, isMild c = true := by
  obtain ⟨c, cs, rfl, hc, hparts⟩ := exists_cons_of_isIdentifier h
  exact List.forall_mem_cons.mpr
    ⟨isMild_of_isPart (isPart_of_isStart hc), fun d hd => isMild_of_isPart (hparts d hd)⟩

theorem means_name {w : String} (h : IsName w) : Means w (.variable w) :=
  .of_spells (Shader.Parse.heads_name h.2) (spells_word h.1) (mild_word h.1) fun names _ =>
    utters_word names h.1

/-- The characters of a number are symbols. -/
theorem utters_number (names : List String) {c : Char} (hblank : isBlank c = false)
    (hstart : Identifier.isStart c = false) (hslash : c ≠ '/') (hhash : c ≠ '#') :
    Utters names [c, '.', '0'] := by
  have hfirst := ended_symbol names hblank hstart hslash hhash
  have hpoint : Ended names ['.'] :=
    ended_symbol names (by decide) (by decide) (by decide) (by decide)
  have hlast : Ended names ['0'] :=
    ended_symbol names (by decide) (by decide) (by decide) (by decide)
  exact ((hfirst.append hpoint).append hlast).utters

theorem mild_number {c : Char} (hc : isMild c = true) : ∀ d ∈ [c, '.', '0'], isMild d = true := by
  simp only [List.forall_mem_cons]
  exact ⟨hc, by decide, by decide, fun d hd => absurd hd List.not_mem_nil⟩

theorem means_zero : Means "0.0" zeroTree where
  reads := ⟨_, Shader.Parse.heads_real 0 (-1), Shader.Token.spells_real (c := '0') (by decide),
    fun h => absurd h (by decide)⟩
  mild := mild_number (c := '0') (by decide)
  utters names _ := utters_number names (c := '0') (by decide) (by decide) (by decide) (by decide)

theorem means_one : Means "1.0" oneTree where
  reads := ⟨_, Shader.Parse.heads_real 10 (-1), Shader.Token.spells_real (c := '1') (by decide),
    fun h => absurd h (by decide)⟩
  mild := mild_number (c := '1') (by decide)
  utters names _ := utters_number names (c := '1') (by decide) (by decide) (by decide) (by decide)

/-- A tree in parentheses. -/
theorem spells_paren {text : List Char} {ts : List Shader.Token} (h : Spells endsNumber text ts) :
    Spells (fun _ => true) ('(' :: text ++ [')']) (.symbol "(" :: ts ++ [.symbol ")"]) := by
  have hclose := h.append (Shader.Token.spells_symbol (c := ')') (by decide)) ⟨_, _, rfl, by decide⟩
  exact (Shader.Token.spells_symbol (c := '(') (by decide)).before hclose

theorem mild_paren {text : List Char} (h : ∀ c ∈ text, isMild c = true) :
    ∀ c ∈ '(' :: text ++ [')'], isMild c = true :=
  List.forall_mem_append.mpr
    ⟨List.forall_mem_cons.mpr ⟨by decide, h⟩, List.forall_mem_singleton.mpr (by decide)⟩

theorem toList_paren (text : String) :
    ("(" ++ text ++ ")").toList = '(' :: text.toList ++ [')'] := by
  simp

theorem operand_eq (text : String) :
    Conversion.operand text = text ∨ Conversion.operand text = "(" ++ text ++ ")" := by
  unfold Conversion.operand
  simp only
  split_ifs
  · exact Or.inl rfl
  · exact Or.inr rfl

theorem not_isDigit_of_isStart {c : Char} (h : Identifier.isStart c = true) :
    (!c.isDigit) = true := by
  by_contra hdigit
  simp only [Bool.not_eq_true', Bool.not_eq_false, Char.isDigit, Bool.and_eq_true,
    decide_eq_true_eq, UInt32.le_iff_toNat_le] at hdigit
  simp only [Identifier.isStart, Char.isAlpha, Char.isUpper, Char.isLower, Bool.or_eq_true,
    Bool.and_eq_true, decide_eq_true_eq, UInt32.le_iff_toNat_le, beq_iff_eq] at h
  rcases h with h | rfl
  · have h9 : '9'.val.toNat = 57 := rfl
    have hA : 'A'.val.toNat = 65 := rfl
    have ha : 'a'.val.toNat = 97 := rfl
    omega
  · exact absurd hdigit (by decide)

/-- What a part is taken of: it stays bare, or it is put in parentheses. -/
theorem Means.reads_operand {text : String} {e : Expression} (h : Means text e) :
    ∃ ts, Heads ts e ∧ Spells endsName (Conversion.operand text).toList ts := by
  obtain ⟨ts, hheads, hargument, hbare⟩ := h.reads
  -- what stays bare has been spelled with a point in view, and parentheses end by themselves
  rcases operand_eq text with hplain | hparen
  · refine ⟨ts, hheads, ?_⟩
    rw [hplain]
    exact hbare hplain
  · refine ⟨_, hheads.whole.paren, ?_⟩
    rw [hparen, toList_paren]
    exact (spells_paren hargument).mono fun _ _ => rfl

theorem Means.mild_operand {text : String} {e : Expression} (h : Means text e) :
    ∀ c ∈ (Conversion.operand text).toList, isMild c = true := by
  rcases operand_eq text with hplain | hparen
  · rw [hplain]
    exact h.mild
  · rw [hparen, toList_paren]
    exact mild_paren h.mild

theorem Means.utters_operand {text : String} {e : Expression} (h : Means text e)
    {names : List String} (hnames : ∀ name ∈ helperNames, name ∈ names) :
    Utters names (Conversion.operand text).toList := by
  rcases operand_eq text with hplain | hparen
  · rw [hplain]
    exact h.utters names hnames
  · rw [hparen, toList_paren]
    exact (h.utters names hnames).paren.utters

/-- Behind a point stands a part of the whole. -/
theorem Means.field {text part w : String} {e : Expression} (h : Means text e) (hw : IsName w)
    (hpart : part.toList = '.' :: w.toList) :
    Means (Conversion.operand text ++ part) (.field e w) := by
  obtain ⟨us, hus, hspells⟩ := h.reads_operand
  have hspells' : Spells endsName ('.' :: w.toList) [.symbol ".", .name w] := by
    obtain ⟨c, cs, hcs, hc, _⟩ := exists_cons_of_isIdentifier hw.1
    exact Shader.Token.spells_point.append (spells_word hw.1) ⟨c, cs, hcs,
      not_isDigit_of_isStart hc⟩
  have htext : (Conversion.operand text ++ part).toList =
      (Conversion.operand text).toList ++ '.' :: w.toList := by rw [String.toList_append, hpart]
  refine .of_spells (hus.field hw.2) ?_ ?_ fun names hnames => ?_
  · rw [htext]
    exact hspells.append hspells' ⟨_, _, rfl, by decide⟩
  · rw [htext]
    refine List.forall_mem_append.mpr ⟨h.mild_operand, List.forall_mem_cons.mpr ⟨by decide, ?_⟩⟩
    exact mild_word hw.1
  · rw [htext, List.append_cons]
    have hpoint := (h.utters_operand hnames).mark (c := '.') (by decide) (by decide)
    exact hpoint.before (utters_word names hw.1)

/-! ### Lists -/

/-- The characters of a list, with commas between its items. -/
def listChars : List (List Char) → List Char
  | [] => []
  | text :: texts => text ++ texts.flatMap (',' :: ' ' :: ·)

theorem toList_intercalate (texts : List String) :
    (", ".intercalate texts).toList = listChars (texts.map String.toList) := by
  rw [String.toList_intercalate]
  cases texts with
  | nil => rfl
  | cons text texts =>
    show List.intercalate ", ".toList _ = text.toList ++ _
    -- the first item has no comma before it, so the induction is on what follows
    induction texts generalizing text with
    | nil => simp
    | cons other texts ih =>
      have hmore := ih other
      rw [List.map_cons] at hmore
      rw [List.map_cons, List.map_cons, List.intercalate_cons_cons, hmore]
      simp

/-- What follows an item begins with a comma, which ends it. -/
theorem head_more (texts : List (List Char)) :
    ∀ c ∈ (texts.flatMap (',' :: ' ' :: ·)).head?, endsNumber c = true := by
  intro c hc
  cases texts with
  | nil => cases hc
  | cons text texts =>
    obtain rfl : ',' = c := Option.some.inj hc
    decide

theorem spells_more {texts : List String} {es : List Expression} (h : List.Forall₂ Means texts es) :
    ∃ tss, List.Forall₂ Whole tss es ∧
      Spells endsNumber ((texts.map String.toList).flatMap (',' :: ' ' :: ·))
        (tss.flatMap (.symbol "," :: ·)) := by
  induction h with
  | nil => exact ⟨[], .nil, fun rest us _ hreads => hreads⟩
  | @cons text e texts es htext _ ih =>
    obtain ⟨ts, hheads, hts, _⟩ := htext.reads
    obtain ⟨tss, hwhole, hspells⟩ := ih
    refine ⟨ts :: tss, .cons hheads.whole hwhole, ?_⟩
    have hitem : Spells endsNumber (',' :: ' ' :: text.toList) (.symbol "," :: ts) :=
      (Shader.Token.spells_symbol (c := ',') (by decide)).before
        ((Shader.Token.spells_blank (by decide)).before hts)
    exact hitem.concat hspells (head_more _)

theorem spells_list {texts : List String} {es : List Expression} (h : List.Forall₂ Means texts es) :
    ∃ tss, List.Forall₂ Whole tss es ∧
      Spells endsNumber (listChars (texts.map String.toList)) (listTokens tss) := by
  cases h with
  | nil => exact ⟨[], .nil, fun rest us _ hreads => hreads⟩
  | @cons text e texts es htext htexts =>
    obtain ⟨ts, hheads, hts, _⟩ := htext.reads
    obtain ⟨tss, hwhole, hspells⟩ := spells_more htexts
    refine ⟨ts :: tss, .cons hheads.whole hwhole, hts.concat hspells ?_⟩
    exact head_more _

theorem mild_list {texts : List (List Char)} (h : ∀ text ∈ texts, ∀ c ∈ text, isMild c = true) :
    ∀ c ∈ listChars texts, isMild c = true := by
  cases texts with
  | nil => exact fun c hc => absurd hc List.not_mem_nil
  | cons text texts =>
    rw [List.forall_mem_cons] at h
    refine List.forall_mem_append.mpr ⟨h.1, fun c hc => ?_⟩
    obtain ⟨item, hitem, hc⟩ := List.mem_flatMap.mp hc
    rcases List.mem_cons.mp hc with rfl | hc
    · decide
    · rcases List.mem_cons.mp hc with rfl | hc
      · decide
      · exact h.2 item hitem c hc

theorem utters_list {names : List String} {texts : List (List Char)}
    (h : ∀ text ∈ texts, Utters names text) : Utters names (listChars texts) := by
  cases texts with
  | nil => exact (ended_nil names).utters
  | cons text texts =>
    rw [List.forall_mem_cons] at h
    exact h.1.list h.2

theorem mild_applied {w text : List Char} (hw : isIdentifier w = true)
    (h : ∀ c ∈ text, isMild c = true) : ∀ c ∈ w ++ '(' :: text ++ [')'], isMild c = true := by
  rw [List.append_assoc]
  exact List.forall_mem_append.mpr ⟨mild_word hw, mild_paren h⟩

/-- Texts of a list that all mean something. -/
theorem forall_of_means {texts : List String} {es : List Expression} {P : List Char → Prop}
    (h : List.Forall₂ Means texts es) (hP : ∀ text e, Means text e → P text.toList) :
    ∀ text ∈ texts.map String.toList, P text := by
  induction h with
  | nil => exact fun _ htext => absurd htext List.not_mem_nil
  | cons hfirst _ ih => exact List.forall_mem_cons.mpr ⟨hP _ _ hfirst, ih⟩

/-- A word before a list in parentheses. -/
theorem spells_applied {w : String} {text : List Char} {ts : List Shader.Token}
    (hw : isIdentifier w.toList = true) (h : Spells endsNumber text ts) :
    Spells endsName (w.toList ++ '(' :: text ++ [')'])
      (.name w :: .symbol "(" :: ts ++ [.symbol ")"]) := by
  have hparen : Spells endsName ('(' :: text ++ [')']) (.symbol "(" :: ts ++ [.symbol ")"]) :=
    (spells_paren h).mono fun _ _ => rfl
  have hword := (spells_word hw).append hparen ⟨_, _, rfl, by decide⟩
  rw [List.append_assoc]
  exact hword

theorem means_call {f text : String} {texts : List String} {es : List Expression}
    (hf : IsName f ∧ f ∈ helperNames) (h : List.Forall₂ Means texts es)
    (htext : text.toList = f.toList ++ '(' :: listChars (texts.map String.toList) ++ [')']) :
    Means text (.call f es) := by
  obtain ⟨tss, hwhole, hspells⟩ := spells_list h
  refine .of_spells (Shader.Parse.heads_call hf.1.2 hwhole) ?_ ?_ fun names hnames => ?_
  · rw [htext]
    exact spells_applied hf.1.1 hspells
  · rw [htext]
    exact mild_applied hf.1.1 (mild_list (forall_of_means h fun _ _ hmeans => hmeans.mild))
  · rw [htext]
    have hlist := utters_list (forall_of_means h fun _ _ hmeans => hmeans.utters names hnames)
    exact (hlist.applied hf.1.1 (Or.inl (by rw [String.ofList_toList]; exact hnames f hf.2))).utters

theorem means_construct {type text : String} {texts : List String} {es : List Expression}
    (htype : (ValueType.ofName? type).isSome ∧ isIdentifier type.toList = true ∧ type ∈ notCalls)
    (h : List.Forall₂ Means texts es)
    (htext : text.toList = type.toList ++ '(' :: listChars (texts.map String.toList) ++ [')']) :
    Means text (.construct type [] es) := by
  obtain ⟨tss, hwhole, hspells⟩ := spells_list h
  obtain ⟨hknown, hword, hcall⟩ := htype
  refine .of_spells (Shader.Parse.heads_construct hknown hwhole) ?_ ?_ fun names hnames => ?_
  · rw [htext]
    exact spells_applied hword hspells
  · rw [htext]
    exact mild_applied hword (mild_list (forall_of_means h fun _ _ hmeans => hmeans.mild))
  · rw [htext]
    have hlist := utters_list (forall_of_means h fun _ _ hmeans => hmeans.utters names hnames)
    exact (hlist.applied hword (Or.inr (by rwa [String.ofList_toList]))).utters

/-- A product, in parentheses. -/
theorem means_product {text text' : String} {e f : Expression} (h : Means text e)
    (h' : Means text' f) :
    Means ("(" ++ text ++ " * " ++ text' ++ ")") (.binary "*" e f) := by
  obtain ⟨ts, hheads, hts, _⟩ := h.reads
  obtain ⟨us, hheads', hus, _⟩ := h'.reads
  have hright : Spells endsNumber (' ' :: '*' :: ' ' :: text'.toList) (.symbol "*" :: us) :=
    (Shader.Token.spells_blank (by decide)).before
      (Shader.Token.spells_star.append ((Shader.Token.spells_blank (by decide)).before hus)
        ⟨_, _, rfl, by decide⟩)
  have hproduct := spells_paren (hts.append hright ⟨_, _, rfl, by decide⟩)
  have htext : ("(" ++ text ++ " * " ++ text' ++ ")").toList =
      '(' :: (text.toList ++ ' ' :: '*' :: ' ' :: text'.toList) ++ [')'] := by simp
  refine .of_spells (hheads.product hheads').paren ?_ ?_ fun names hnames => ?_
  · rw [htext]
    exact hproduct.mono fun _ _ => rfl
  · rw [htext]
    refine mild_paren (List.forall_mem_append.mpr ⟨h.mild, ?_⟩)
    simp only [List.forall_mem_cons]
    exact ⟨by decide, by decide, by decide, h'.mild⟩
  · rw [htext]
    have hstar := ((h.utters names hnames).blank (c := ' ') (by decide)).mark (c := '*')
      (by decide) (by decide)
    have hboth := (hstar.append (ended_blank names (c := ' ') (by decide))).before
      (h'.utters names hnames)
    have hparen := hboth.paren.utters
    simpa only [List.append_assoc, List.cons_append, List.nil_append] using hparen

/-! ## Conversions -/

/-- The words that generated expressions are made of, besides the names of a program. -/
theorem isName_words : ∀ w ∈ ["x", "y", "w", "xyz", coordName], IsName w := by
  decide +kernel

theorem isName_helpers : ∀ w ∈ helperNames, IsName w ∧ w ∈ helperNames := by
  decide +kernel

theorem isType_words : ∀ w ∈ ["float", "vec2", "vec3", "vec4"],
    (ValueType.ofName? w).isSome ∧ isIdentifier w.toList = true ∧ w ∈ notCalls := by
  decide +kernel

/-- **A conversion** keeps the meaning of what it converts. -/
theorem Conversion.means_text {text : String} {e : Expression} (conversion : Conversion)
    (h : Means text e) : Means (conversion.text text) (conversion.tree e) := by
  have hx : Means (operand text ++ ".x") (.field e "x") := h.field (isName_words _ (by simp)) rfl
  have hy : Means (operand text ++ ".y") (.field e "y") := h.field (isName_words _ (by simp)) rfl
  have hw : Means (operand text ++ ".w") (.field e "w") := h.field (isName_words _ (by simp)) rfl
  have hxyz : Means (operand text ++ ".xyz") (.field e "xyz") :=
    h.field (isName_words _ (by simp)) rfl
  have hluminance {text : String} {e : Expression} (h : Means text e) :
      Means ("rgb_to_float(" ++ text ++ ")") (.call "rgb_to_float" [e]) :=
    means_call (isName_helpers _ (by simp [helperNames])) (.cons h .nil) (by simp [listChars])
  have hvec2 {first second : String} {e f : Expression} (h : Means first e) (h' : Means second f) :
      Means ("vec2(" ++ first ++ ", " ++ second ++ ")") (.construct "vec2" [] [e, f]) :=
    means_construct (isType_words _ (by simp)) (.cons h (.cons h' .nil)) (by simp [listChars])
  have hvec3 {text : String} {e : Expression} (h : Means text e) :
      Means ("vec3(" ++ text ++ ")") (.construct "vec3" [] [e]) :=
    means_construct (isType_words _ (by simp)) (.cons h .nil) (by simp [listChars])
  have hvec4 {first second : String} {e f : Expression} (h : Means first e) (h' : Means second f) :
      Means ("vec4(" ++ first ++ ", " ++ second ++ ")") (.construct "vec4" [] [e, f]) :=
    means_construct (isType_words _ (by simp)) (.cons h (.cons h' .nil)) (by simp [listChars])
  cases conversion with
  | identity => exact h
  | vec2ToScalar => exact hx
  | vec3ToScalar => exact hluminance h
  | vec4ToScalar =>
    show Means ("rgba_to_float(" ++ text ++ ")") (.call "rgba_to_float" [e])
    exact means_call (isName_helpers _ (by simp [helperNames])) (.cons h .nil) (by simp [listChars])
  | scalarToVec2 =>
    show Means ("vec2(" ++ text ++ ", 1.0)") (.construct "vec2" [] [e, oneTree])
    exact (hvec2 h means_one).congr (by simp)
  | vec3ToVec2 =>
    show Means ("vec2(rgb_to_float(" ++ text ++ "), 1.0)")
      (.construct "vec2" [] [.call "rgb_to_float" [e], oneTree])
    exact (hvec2 (hluminance h) means_one).congr (by simp)
  | vec4ToVec2 =>
    show Means ("vec2(rgb_to_float(" ++ operand text ++ ".xyz), " ++ operand text ++ ".w)")
      (.construct "vec2" [] [.call "rgb_to_float" [.field e "xyz"], .field e "w"])
    exact (hvec2 (hluminance hxyz) hw).congr (by simp)
  | scalarToVec3 => exact hvec3 h
  | vec2ToVec3 =>
    show Means ("vec3(" ++ operand text ++ ".x)") (.construct "vec3" [] [.field e "x"])
    exact (hvec3 hx).congr (by simp)
  | vec4ToVec3 => exact hxyz
  | scalarToVec4 =>
    show Means ("vec4(vec3(" ++ text ++ "), 1.0)")
      (.construct "vec4" [] [.construct "vec3" [] [e], oneTree])
    exact (hvec4 (hvec3 h) means_one).congr (by simp)
  | vec2ToVec4 =>
    show Means ("vec4(vec3(" ++ operand text ++ ".x), " ++ operand text ++ ".y)")
      (.construct "vec4" [] [.construct "vec3" [] [.field e "x"], .field e "y"])
    exact (hvec4 (hvec3 hx) hy).congr (by simp)
  | vec3ToVec4 =>
    show Means ("vec4(" ++ text ++ ", 1.0)") (.construct "vec4" [] [e, oneTree])
    exact (hvec4 h means_one).congr (by simp)

/-! ## Expressions -/

namespace Expr

/-- The names in the expression are names, and its zeros are numbers. -/
def Plain : Expr → Prop
  | .var name => IsName name
  | .coord => True
  | .zero kind => kind.isNumeric = true
  | .sample image position => IsName image ∧ IsName (flagName image) ∧ position.Plain
  | .convert _ e => e.Plain

/-- **An expression** is read as it is meant. -/
theorem means_render {e : Expr} (h : e.Plain) : Means e.render e.tree := by
  induction e with
  | var name => exact means_name h
  | coord => exact means_name (isName_words coordName (by simp))
  | zero kind =>
    have hvector (type : String) (htype : type ∈ ["float", "vec2", "vec3", "vec4"]) :
        Means (type ++ "(0.0)") (.construct type [] [zeroTree]) :=
      means_construct (isType_words type htype) (.cons means_zero .nil) (by simp [listChars])
    cases kind with
    | none => cases h
    | scalar => exact means_zero
    | vec2 => exact hvector "vec2" (by simp)
    | vec3 => exact hvector "vec3" (by simp)
    | vec4 => exact hvector "vec4" (by simp)
    | image => cases h
  | sample image position ih =>
    obtain ⟨himage, hflag, hposition⟩ := h
    have hsize : Means ("imageSize(" ++ image ++ ")") (.call "imageSize" [.variable image]) :=
      means_call (isName_helpers _ (by simp [helperNames])) (.cons (means_name himage) .nil)
        (by simp [listChars])
    have htexel : Means ("uv_to_texel(" ++ position.render ++ ", imageSize(" ++ image ++ "))")
        (.call "uv_to_texel" [position.tree, .call "imageSize" [.variable image]]) :=
      means_call (isName_helpers _ (by simp [helperNames]))
        (.cons (ih hposition) (.cons hsize .nil))
        (by simp [listChars])
    have hload : Means ("imageLoad(" ++ image ++ ", uv_to_texel(" ++ position.render ++
        ", imageSize(" ++ image ++ ")))") (.call "imageLoad" [.variable image,
          .call "uv_to_texel" [position.tree, .call "imageSize" [.variable image]]]) :=
      means_call (isName_helpers _ (by simp [helperNames]))
        (.cons (means_name himage) (.cons htexel .nil))
        (by simp [listChars])
    have hfactor : Means ("float(" ++ flagName image ++ ")")
        (.construct "float" [] [.variable (flagName image)]) :=
      means_construct (isType_words _ (by simp)) (.cons (means_name hflag) .nil)
        (by simp [listChars])
    -- the texts are the same, put together in another order
    show Means ("(imageLoad(" ++ image ++ ", uv_to_texel(" ++ position.render ++ ", imageSize(" ++
      image ++ "))) * float(" ++ flagName image ++ "))") (.binary "*" _ _)
    exact (means_product hload hfactor).congr (by simp)
  | convert conversion e ih => exact conversion.means_text (ih h)

/-- **Arguments** are read one by one. -/
theorem listOf?_render {es : List Expr} (h : ∀ e ∈ es, e.Plain) :
    Expression.listOf? (", ".intercalate (es.map render)) = some (es.map tree) := by
  have hmeans : List.Forall₂ Means (es.map render) (es.map tree) := by
    rw [List.forall₂_map_left_iff, List.forall₂_map_right_iff, List.forall₂_same]
    exact fun e he => means_render (h e he)
  obtain ⟨tss, hwhole, hspells⟩ := spells_list hmeans
  refine Expression.listOf?_of_whole ?_ hwhole
  rw [toList_intercalate]
  refine hspells.mono fun c hc => ?_
  rw [endsNumber, hc]
  rfl

end Expr
end Texel.Glsl
