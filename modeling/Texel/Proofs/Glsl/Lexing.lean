import Texel.Proofs.Glsl.Grammar

/-!
# Texel — the tokens of a text of the grammar

Which tokens a piece of text comes to, whatever stood before it. Two pieces may be read one behind
the other when the second begins with a character that ends what the first leaves open. The head of
a definition gives its words and marks, each at its offset; of a body it is enough to know that the
braces among its tokens match.

* **`Lexer.Gives`** — a piece of text and its tokens.
* **`Lexer.Skips`** — comments and blanks, which give none.
* **`gives_elements`**, **`Balanced.gives`** — the tokens of heads and of bodies.
-/

namespace Texel.Glsl

open Text Correspondence

/-! ## Where tokens end -/

/-- The character ends the token that is being read, if there is one. -/
def Mode.EndedBy (c : Char) : Mode → Prop
  | .code => True
  | .word _ _ => Identifier.isPart c = false
  | .slash _ => c ≠ '/' ∧ c ≠ '*'
  | .line | .block | .star => False

/-- A symbol of its own, wherever it stands outside of comments. -/
def isFirm (c : Char) : Bool :=
  !isBlank c && !Identifier.isPart c && c != '/' && c != '*' && c != '#'

/-- The token of a symbol at an offset. -/
def Token.ofSymbol (offset : Nat) (c : Char) : Token := ⟨.symbol c, ⟨offset, offset + c.utf8Size⟩⟩

namespace Lexer

variable {l : Lexer} {c : Char} {cs : List Char}

theorem run_cons (l : Lexer) (c : Char) (cs : List Char) : l.run (c :: cs) = (l.step c).run cs :=
  rfl

theorem close_of_code (h : l.mode = .code) : l.close = l := by
  rw [close, h]

theorem between_of_code (h : l.mode = .code) : l.Between := by
  intro start chars
  rw [h]
  exact Mode.noConfusion

theorem close_close (l : Lexer) : l.close.close = l.close := by
  cases hm : l.mode <;> simp [close, hm, emit]

theorem step_of_ended (h : l.mode.EndedBy c) : l.step c = l.close.step c := by
  have hread : l.read c = l.close.read c := by
    cases hm : l.mode with
    | code => rw [close_of_code hm]
    | word start chars =>
      rw [hm] at h
      have hpart : Identifier.isPart c = false := h
      simp [read, close, hm, emit, hpart]
    | slash start =>
      rw [hm] at h
      have hplain : c ≠ '/' ∧ c ≠ '*' := h
      simp [read, close, hm, emit, hplain]
    | line | block | star =>
      rw [hm] at h
      exact False.elim h
  rw [step, step, hread]

theorem run_of_ended (h : l.mode.EndedBy c) : l.run (c :: cs) = l.close.run (c :: cs) :=
  congrArg (Lexer.run · cs) (step_of_ended h)

theorem close_run (h : ∀ c ∈ cs.head?, l.mode.EndedBy c) :
    (l.run cs).close = (l.close.run cs).close := by
  cases cs with
  | nil => exact (close_close l).symm
  | cons c cs => rw [run_of_ended (h c rfl)]

theorem endedBy_of_firm (hl : l.close.mode = .code) (hc : isFirm c = true) : l.mode.EndedBy c := by
  simp only [isFirm, Bool.and_eq_true, Bool.not_eq_true', bne_iff_ne] at hc
  cases hm : l.mode with
  | code => trivial
  | word start chars => exact hc.1.1.1.2
  | slash start => exact ⟨hc.1.1.2, hc.1.2⟩
  | line | block | star => simp [close, hm] at hl

/-! ## Pieces of text -/

/-- Behind what has been read, the text gives these tokens. -/
structure Gives (l : Lexer) (cs : List Char) (ts : List Token) : Prop where
  mode : (l.run cs).close.mode = .code
  found : (l.run cs).close.found = ts.reverse ++ l.found

theorem Gives.append {a b : List Char} {ts us : List Token} (ha : l.Gives a ts)
    (hends : ∀ c ∈ b.head?, (l.run a).mode.EndedBy c) (hb : (l.run a).close.Gives b us) :
    l.Gives (a ++ b) (ts ++ us) where
  mode := by
    rw [run_append, close_run hends]
    exact hb.mode
  found := by
    rw [run_append, close_run hends, hb.found, ha.found, List.reverse_append, List.append_assoc]

theorem Gives.nil (hl : l.mode = .code) : l.Gives [] [] := by
  have hclose : (l.run []).close = l := close_of_code hl
  exact ⟨by rw [hclose, hl], by rw [hclose]; rfl⟩

/-- A firm symbol becomes a token, and leaves nothing open. -/
theorem step_firm (hl : l.close.mode = .code) (hc : isFirm c = true) :
    (l.step c).mode = .code ∧
      (l.step c).found = .ofSymbol l.offset c :: l.close.found := by
  rw [step_of_ended (endedBy_of_firm hl hc)]
  simp only [isFirm, Bool.and_eq_true, Bool.not_eq_true', bne_iff_ne] at hc
  obtain ⟨⟨⟨⟨hblank, hpart⟩, hslash⟩, -⟩, hhash⟩ := hc
  have hstart : Identifier.isStart c = false :=
    Bool.eq_false_iff.mpr fun h =>
      absurd (isPart_of_isStart h) (by rw [hpart]; exact Bool.noConfusion)
  simp [step, read, hl, begin, hblank, hslash, hhash, hstart, advance, emit, offset_close,
    Token.ofSymbol]

theorem Gives.firm (hl : l.mode = .code) (hc : isFirm c = true) :
    l.Gives [c] [.ofSymbol l.offset c] := by
  have hstep := step_firm (by rw [close_of_code hl, hl]) hc
  have hclose : (l.run [c]).close = l.step c := close_of_code hstep.1
  refine ⟨by rw [hclose, hstep.1], ?_⟩
  rw [hclose, hstep.2, close_of_code hl]
  rfl

theorem Gives.word (hl : l.mode = .code) {w : List Char} (hw : isIdentifier w = true) :
    l.Gives w [⟨.word w, ⟨l.offset, l.offset + byteSize w⟩⟩] := by
  have hrun : (l.run w).close =
      ({ l with offset := l.offset + byteSize w, fresh := false }).emit (.word w) l.offset
        (l.offset + byteSize w) := by
    rw [run_word (between_of_code hl) hw]
    simp [Lexer.pass, Mode.pass, hl, close, emit]
  constructor <;> rw [hrun] <;> rfl

/-! ## Comments and blanks -/

theorem fresh_close (l : Lexer) : l.close.fresh = l.fresh := by
  unfold close
  split <;> rfl

theorem fresh_begin (l : Lexer) (c : Char) : (l.begin c).fresh = l.fresh := by
  unfold begin
  split_ifs <;> rfl

theorem fresh_step (l : Lexer) (c : Char) :
    (l.step c).fresh = (c == '\n' || (l.fresh && isBlank c)) := by
  have hclosed : (l.close.begin c).fresh = l.fresh := (fresh_begin _ c).trans (fresh_close l)
  have hread : (l.read c).fresh = l.fresh := by
    unfold read
    split
    · exact fresh_begin l c
    · split_ifs
      · rfl
      · exact hclosed
    · split_ifs
      · rfl
      · rfl
      · exact hclosed
    · split_ifs <;> rfl
    · split_ifs <;> rfl
    · split_ifs <;> rfl
  rw [step, advance, hread]

theorem fresh_concat (l : Lexer) (cs : List Char) {c : Char} (hc : isBlank c = false) :
    (l.run (cs ++ [c])).fresh = false := by
  have hne : c ≠ '\n' := by
    rintro rfl
    cases hc
  rw [run_append]
  exact (fresh_step _ c).trans (by simp [hne, hc])

/-- A line that has had more than blanks goes on until it ends. -/
theorem fresh_run (hl : l.fresh = false) (h : '\n' ∉ cs) : (l.run cs).fresh = false := by
  induction cs generalizing l with
  | nil => exact hl
  | cons c cs ih =>
    rw [List.mem_cons, not_or] at h
    have hstep : (l.step c).fresh = false := by simp [fresh_step, hl, Ne.symm h.1]
    exact ih hstep h.2

/-- The text leaves no trace. -/
structure Skips (l : Lexer) (cs : List Char) : Prop where
  mode : (l.run cs).mode = .code
  found : (l.run cs).found = l.found

theorem Skips.gives (h : l.Skips cs) : l.Gives cs [] := by
  have hclose := close_of_code h.mode
  exact ⟨by rw [hclose, h.mode], by rw [hclose, h.found]; rfl⟩

theorem Skips.append {a b : List Char} (ha : l.Skips a) (hb : (l.run a).Skips b) :
    l.Skips (a ++ b) := by
  constructor
  · rw [run_append, hb.mode]
  · rw [run_append, hb.found, ha.found]

theorem run_line {text : List Char} (hl : l.mode = .line) (h : '\n' ∉ text) :
    (l.run text).mode = .line ∧ (l.run text).found = l.found := by
  induction text generalizing l with
  | nil => exact ⟨hl, rfl⟩
  | cons c text ih =>
    rw [List.mem_cons, not_or] at h
    have hstep : (l.step c).mode = .line ∧ (l.step c).found = l.found := by
      simp [step, read, hl, Ne.symm h.1, advance]
    obtain ⟨hmode, hfound⟩ := ih hstep.1 h.2
    exact ⟨hmode, hfound.trans hstep.2⟩

theorem skips_line {text : List Char} (hl : l.mode = .line) (h : '\n' ∉ text) :
    l.Skips (text ++ ['\n']) := by
  obtain ⟨hmode, hfound⟩ := run_line hl h
  have hend : ((l.run text).step '\n').mode = .code ∧
      ((l.run text).step '\n').found = (l.run text).found := by
    simp [step, read, hmode, advance]
  constructor
  · rw [run_append]
    exact hend.1
  · rw [run_append]
    exact hend.2.trans hfound

/-- In a block comment. A star that is pending must not be followed by a slash. -/
theorem run_block {text : List Char} (h : ¬ ['*', '/'] <:+: text)
    (hl : l.mode = .block ∨ l.mode = .star ∧ ∀ c ∈ text.head?, c ≠ '/') :
    ((l.run text).mode = .block ∨ (l.run text).mode = .star) ∧ (l.run text).found = l.found := by
  induction text generalizing l with
  | nil => exact ⟨hl.imp_right And.left, rfl⟩
  | cons c text ih =>
    have hrest : ¬ ['*', '/'] <:+: text :=
      fun hin => h (hin.trans (List.suffix_cons c text).isInfix)
    have hstep : ((l.step c).mode = .block ∨
        (l.step c).mode = .star ∧ ∀ d ∈ text.head?, d ≠ '/') ∧ (l.step c).found = l.found := by
      by_cases hc : c = '*'
      · subst hc
        have hnext : ∀ d ∈ text.head?, d ≠ '/' := by
          rintro d hd rfl
          obtain ⟨rest, rfl⟩ := List.head?_eq_some_iff.mp hd
          exact h (List.prefix_append ['*', '/'] rest).isInfix
        have hstar : (l.step '*').mode = .star ∧ (l.step '*').found = l.found := by
          rcases hl with hl | ⟨hl, -⟩ <;> simp [step, read, hl, advance]
        exact ⟨.inr ⟨hstar.1, hnext⟩, hstar.2⟩
      · rcases hl with hl | ⟨hl, hhead⟩
        · simp [step, read, hl, advance, hc]
        · have hslash : c ≠ '/' := hhead c rfl
          simp [step, read, hl, advance, hc, hslash]
    obtain ⟨hmode, hfound⟩ := ih hrest hstep.1
    exact ⟨hmode, hfound.trans hstep.2⟩

/-- The end of a block comment. -/
theorem skips_star (hl : l.mode = .block ∨ l.mode = .star) : l.Skips ['*', '/'] := by
  rcases hl with hl | hl <;> constructor <;> simp [run, step, read, hl, advance]

theorem skips_block {text : List Char} (h : ¬ ['*', '/'] <:+: text) (hl : l.mode = .block) :
    l.Skips (text ++ ['*', '/']) := by
  obtain ⟨hmode, hfound⟩ := run_block h (.inl hl)
  have hend := skips_star hmode
  constructor
  · rw [run_append, hend.mode]
  · rw [run_append, hend.found, hfound]

theorem open_line (hl : l.mode = .code) :
    (l.run ['/', '/']).mode = .line ∧ (l.run ['/', '/']).found = l.found := by
  simp [run, step, read, begin, hl, isBlank, advance]

theorem open_block (hl : l.mode = .code) :
    (l.run ['/', '*']).mode = .block ∧ (l.run ['/', '*']).found = l.found := by
  simp [run, step, read, begin, hl, isBlank, advance]

theorem skips_comment (hl : l.mode = .code) (x : Grammar.Comment) : l.Skips x.chars := by
  cases x with
  | line text h =>
    have hopen := open_line hl
    have hskips := skips_line hopen.1 h
    exact ⟨hskips.mode, hskips.found.trans hopen.2⟩
  | block text h =>
    have hopen := open_block hl
    have hskips := skips_block h hopen.1
    exact ⟨hskips.mode, hskips.found.trans hopen.2⟩

theorem skips_filler (hl : l.mode = .code) (f : Grammar.Filler) : l.Skips f.chars := by
  cases f with
  | blank c h => constructor <;> simp [Grammar.Filler.chars, run, step, read, hl, begin, h, advance]
  | comment x => exact skips_comment hl x

theorem skips_gap (hl : l.mode = .code) (gap : Grammar.Gap) : l.Skips gap.chars := by
  induction gap generalizing l with
  | nil => exact ⟨hl, rfl⟩
  | cons f gap ih =>
    have hfiller := skips_filler hl f
    exact hfiller.append (ih hfiller.mode)

end Lexer

/-! ## Heads -/

namespace Grammar

def Element.lexeme? : Element → Option Lexeme
  | .filler _ => none
  | .word w => some (.word w.chars)
  | .mark m => some (.symbol m.char)

/-- The token of an element that begins at an offset, if it is one. -/
def Element.tokens (offset : Nat) (e : Element) : List Token :=
  e.lexeme?.toList.map fun x => ⟨x, ⟨offset, offset + byteSize e.chars⟩⟩

/-- The tokens of a head that begins at an offset. -/
def tokensFrom (offset : Nat) : List Element → List Token
  | [] => []
  | e :: es => e.tokens offset ++ tokensFrom (offset + byteSize e.chars) es

/-- The list does not begin with a word. -/
def Parts : List Element → Prop
  | .word _ :: _ => False
  | _ => True

/-- No word stands directly behind another. -/
def Apart : List Element → Prop
  | [] => True
  | .word _ :: es => Parts es ∧ Apart es
  | .filler _ :: es | .mark _ :: es => Apart es

theorem isFirm_mark (m : Mark) : isFirm m.char = true := by cases m <;> rfl

theorem head?_filler (f : Filler) : ∀ c ∈ f.chars.head?, Identifier.isPart c = false := by
  cases f with
  | blank c h =>
    rintro d ⟨⟩
    refine Bool.eq_false_iff.mpr fun hpart => ?_
    rw [(isPart_spec hpart).1] at h
    cases h
  | comment x => cases x <;> rintro d ⟨⟩ <;> rfl

theorem chars_filler_ne_nil (f : Filler) : f.chars ≠ [] := by
  cases f with
  | blank => exact List.cons_ne_nil _ _
  | comment x => cases x <;> exact List.cons_ne_nil _ _

/-- What does not begin with a word ends the word before it. -/
theorem Parts.head? {es : List Element} (h : Parts es) :
    ∀ c ∈ (charsOf es).head?, Identifier.isPart c = false := by
  cases es with
  | nil => exact fun c hc => absurd hc (Option.not_mem_none c)
  | cons e es =>
    cases e with
    | word w => exact False.elim h
    | filler f =>
      intro c hc
      refine head?_filler f c ?_
      rwa [charsOf, List.flatMap_cons, Element.chars,
        List.head?_append_of_ne_nil _ (chars_filler_ne_nil f)] at hc
    | mark m =>
      rintro c ⟨⟩
      cases m <;> rfl

theorem gives_element {l : Lexer} (hl : l.mode = .code) (e : Element) :
    l.Gives e.chars (e.tokens l.offset) := by
  cases e with
  | filler f => exact (Lexer.skips_filler hl f).gives
  | word w => exact .word hl w.identifier
  | mark m => exact .firm hl (isFirm_mark m)

/-- Only a word is still open behind an element, and what follows ends it. -/
theorem Apart.endedBy {e : Element} {es : List Element} (h : Apart (e :: es)) {l : Lexer}
    (hl : l.mode = .code) : ∀ c ∈ (charsOf es).head?, (l.run e.chars).mode.EndedBy c := by
  intro c hc
  cases e with
  | filler f =>
    rw [Element.chars, (Lexer.skips_filler hl f).mode]
    trivial
  | word w =>
    have hmode : (l.run w.chars).mode = .word l.offset w.chars.reverse := by
      rw [run_word (Lexer.between_of_code hl) w.identifier, Lexer.pass, hl]
      rfl
    rw [Element.chars, hmode]
    exact h.1.head? c hc
  | mark m =>
    have hmode : (l.run [m.char]).mode = .code :=
      (Lexer.step_firm (by rw [Lexer.close_of_code hl, hl]) (isFirm_mark m)).1
    rw [Element.chars, hmode]
    trivial

theorem Apart.tail {e : Element} {es : List Element} (h : Apart (e :: es)) : Apart es := by
  cases e with
  | word w => exact h.2
  | filler | mark => exact h

theorem gives_elements {es : List Element} (h : Apart es) {l : Lexer} (hl : l.mode = .code) :
    l.Gives (charsOf es) (tokensFrom l.offset es) := by
  induction es generalizing l with
  | nil => exact .nil hl
  | cons e es ih =>
    have hfirst := gives_element hl e
    have hrest := ih h.tail hfirst.mode
    rw [offset_close, Lexer.offset_run] at hrest
    exact hfirst.append (h.endedBy hl) hrest

/-! The heads of definitions are of this kind. -/

theorem parts_gap {es : List Element} (gap : Gap) (h : Parts es) : Parts (gap.elements ++ es) := by
  cases gap with
  | nil => exact h
  | cons f gap => trivial

theorem parts_separator (s : Separator) (es : List Element) : Parts (s.elements ++ es) := by
  obtain ⟨gap, hgap⟩ := s
  cases gap with
  | nil => exact absurd rfl hgap
  | cons f gap => trivial

theorem apart_gap {es : List Element} (gap : Gap) : Apart (gap.elements ++ es) ↔ Apart es := by
  induction gap with
  | nil => rfl
  | cons f gap ih => exact ih

theorem Group.apart {es : List Element} (g : Group) (hparts : Parts es) (h : Apart es) :
    Apart (g.elements ++ es) := by
  have htype : Apart (.word g.type :: (g.between.elements ++ .word g.name :: es)) :=
    ⟨parts_separator _ _, (apart_gap _).mpr ⟨hparts, h⟩⟩
  rw [elements, List.append_assoc, List.cons_append, List.append_assoc, List.singleton_append]
  induction g.qualifiers with
  | nil => exact htype
  | cons q qualifiers ih =>
    rw [List.flatMap_cons, List.append_assoc]
    exact ⟨parts_separator _ _, (apart_gap _).mpr ih⟩

theorem Padded.apart {es : List Element} (p : Padded) (hparts : Parts es) (h : Apart es) :
    Apart (p.elements ++ es) := by
  rw [elements, List.append_assoc, List.append_assoc, apart_gap]
  exact p.group.apart (parts_gap _ hparts) ((apart_gap _).mpr h)

theorem Parameters.apart {es : List Element} (p : Parameters) (hparts : Parts es) (h : Apart es) :
    Apart (p.elements ++ es) := by
  cases p with
  | none gap => exact (apart_gap gap).mpr h
  | void before after =>
    rw [elements, List.append_assoc, apart_gap]
    exact ⟨parts_gap _ hparts, (apart_gap _).mpr h⟩
  | groups first rest _ =>
    have hrest : Parts (rest.flatMap (fun p => .mark .comma :: p.elements) ++ es) ∧
        Apart (rest.flatMap (fun p => .mark .comma :: p.elements) ++ es) := by
      induction rest with
      | nil => exact ⟨hparts, h⟩
      | cons p rest ih =>
        have hrest := ih (by simp_all)
        rw [List.flatMap_cons, List.append_assoc]
        exact ⟨trivial, p.apart hrest.1 hrest.2⟩
    rw [elements, List.append_assoc]
    exact first.apart hrest.1 hrest.2

theorem Definition.apart (d : Definition) : Apart d.head := by
  have hclosing : Apart (.mark .closing :: d.afterParameters.elements) := by
    show Apart d.afterParameters.elements
    rw [← List.append_nil d.afterParameters.elements, apart_gap]
    trivial
  refine ⟨parts_separator _ _, (apart_gap _).mpr ⟨parts_gap _ trivial, (apart_gap _).mpr ?_⟩⟩
  exact d.parameters.apart trivial hclosing

end Grammar

/-! ## Bodies -/

/-- Tokens whose braces match. -/
inductive Matched : List Token → Prop
  | nil : Matched []
  | plain {t : Token} {ts : List Token} (hopen : t.lexeme ≠ .symbol '\x7b')
    (hclose : t.lexeme ≠ .symbol '\x7d') (hts : Matched ts) : Matched (t :: ts)
  | braces {t u : Token} {ts us : List Token} (ht : t.lexeme = .symbol '\x7b')
    (hu : u.lexeme = .symbol '\x7d') (hts : Matched ts) (hus : Matched us) :
    Matched (t :: (ts ++ u :: us))

theorem Matched.append {ts us : List Token} (hts : Matched ts) (hus : Matched us) :
    Matched (ts ++ us) := by
  induction hts with
  | nil => exact hus
  | plain hopen hclose _ ih => exact .plain hopen hclose ih
  | braces ht hu hinner _ _ ih =>
    rw [List.cons_append, List.append_assoc, List.cons_append]
    exact .braces ht hu hinner ih

namespace Lexer

variable {l : Lexer} {c : Char}

/-- What is still open is a word or a slash. -/
theorem matched_close (l : Lexer) : ∃ ts, Matched ts ∧ l.close.found = ts.reverse ++ l.found := by
  cases hm : l.mode with
  | word start chars =>
    refine ⟨[⟨.word chars.reverse, ⟨start, l.offset⟩⟩], .plain (by simp) (by simp) .nil, ?_⟩
    simp [close, hm, emit]
  | slash start =>
    refine ⟨[⟨.symbol '/', ⟨start, l.offset⟩⟩], .plain (by simp) (by simp) .nil, ?_⟩
    simp [close, hm, emit]
  | code | line | block | star =>
    refine ⟨[], .nil, ?_⟩
    simp [close, hm]

/-- What a character of a body does that is no brace and opens no comment. -/
structure Passes (l : Lexer) (c : Char) : Prop where
  found : ∃ ts, Matched ts ∧ (l.step c).found = ts.reverse ++ l.found
  mode : (l.step c).close.mode = .code
  slash : ∀ start, (l.step c).mode = .slash start → c = '/'

theorem passes_code (hl : l.mode = .code) (hc : c ∉ ['\x7b', '\x7d', '#']) : l.Passes c := by
  simp only [List.mem_cons, List.not_mem_nil, or_false, not_or] at hc
  obtain ⟨hopen, hclose, hhash⟩ := hc
  have hstep : l.step c = (l.begin c).advance c := by rw [step, read, hl]
  rw [begin] at hstep
  split_ifs at hstep with hblank hslash hdirective hstart
  · -- a blank
    constructor
    · exact ⟨[], .nil, by rw [hstep]; rfl⟩
    · rw [hstep]; rfl
    · rw [hstep]; exact fun _ => Mode.noConfusion
  · -- a slash stays open
    constructor
    · exact ⟨[], .nil, by rw [hstep]; rfl⟩
    · rw [hstep]; rfl
    · exact fun _ _ => beq_iff_eq.mp hslash
  · simp [hhash] at hdirective
  · -- so does the beginning of a word
    constructor
    · exact ⟨[], .nil, by rw [hstep]; rfl⟩
    · rw [hstep]; rfl
    · rw [hstep]; exact fun _ => Mode.noConfusion
  · -- anything else is a token
    constructor
    · exact ⟨[⟨.symbol c, _⟩], .plain (by simpa using hopen) (by simpa using hclose) .nil,
        by rw [hstep]; rfl⟩
    · rw [hstep]; rfl
    · rw [hstep]; exact fun _ => Mode.noConfusion

theorem passes_plain (hl : l.close.mode = .code) (hc : c ∉ ['\x7b', '\x7d', '#'])
    (hslash : ∀ start, l.mode = .slash start → c ≠ '/' ∧ c ≠ '*') : l.Passes c := by
  by_cases hended : l.mode.EndedBy c
  · obtain ⟨ts, hts, hclose⟩ := l.matched_close
    have hpasses := passes_code hl hc
    obtain ⟨us, hus, hfound⟩ := hpasses.found
    have hstep := step_of_ended hended
    constructor
    · refine ⟨ts ++ us, hts.append hus, ?_⟩
      rw [hstep, hfound, hclose, List.reverse_append, List.append_assoc]
    · rw [hstep]
      exact hpasses.mode
    · rw [hstep]
      exact hpasses.slash
  · -- the word goes on
    cases hm : l.mode with
    | code => exact absurd (by rw [hm]; trivial) hended
    | slash start => exact absurd (by rw [hm]; exact hslash start hm) hended
    | line | block | star => simp [close, hm] at hl
    | word start chars =>
      have hpart : Identifier.isPart c = true := by
        rw [hm] at hended
        simpa [Mode.EndedBy] using hended
      have hstep := step_part_word hm hpart
      constructor
      · exact ⟨[], .nil, by rw [hstep]; rfl⟩
      · rw [hstep]; rfl
      · rw [hstep]; exact fun _ => Mode.noConfusion

end Lexer

/-- The tokens of a balanced text have matching braces, whatever word or slash was open before
it. -/
theorem Grammar.Balanced.gives {cs : List Char} (h : Balanced cs) : ∀ {l : Lexer},
    l.close.mode = .code →
    (∀ start, l.mode = .slash start → ∀ c ∈ cs.head?, c ≠ '/' ∧ c ≠ '*') →
    ∃ ts, Matched ts ∧ l.Gives cs ts := by
  induction h with
  | nil =>
    intro l hl _
    obtain ⟨ts, hts, hfound⟩ := l.matched_close
    exact ⟨ts, hts, hl, hfound⟩
  | plain hc hslash _ ih =>
    intro l hl hopen
    have hpasses := Lexer.passes_plain hl hc fun start hm => hopen start hm _ rfl
    obtain ⟨ts, hts, hfound⟩ := hpasses.found
    obtain ⟨us, hus, hgives⟩ := ih hpasses.mode fun start hm => hslash (hpasses.slash start hm)
    refine ⟨ts ++ us, hts.append hus, hgives.mode, ?_⟩
    rw [List.reverse_append, List.append_assoc, ← hfound]
    exact hgives.found
  | @comment x cs _ ih =>
    intro l hl hopen
    obtain ⟨rest, hchars⟩ : ∃ rest, x.chars = '/' :: rest := by cases x <;> exact ⟨_, rfl⟩
    -- the first slash of the comment ends a word before it, and there is no slash before it
    have hended : l.mode.EndedBy '/' := by
      cases hm : l.mode with
      | code => trivial
      | word => exact rfl
      | slash start => exact absurd rfl (hopen start hm '/' (by rw [hchars]; rfl)).1
      | line | block | star => simp [Lexer.close, hm] at hl
    have hskips := Lexer.skips_comment hl x
    obtain ⟨ts, hts, hclose⟩ := l.matched_close
    have hrun : l.run x.chars = l.close.run x.chars := by
      rw [hchars]
      exact Lexer.run_of_ended hended
    obtain ⟨us, hus, hgives⟩ := ih (l := l.run x.chars)
      (by rw [hrun, Lexer.close_of_code hskips.mode, hskips.mode])
      (by rw [hrun, hskips.mode]; exact fun _ => Mode.noConfusion)
    refine ⟨ts ++ us, hts.append hus, ?_, ?_⟩
    · rw [Lexer.run_append]
      exact hgives.mode
    · rw [Lexer.run_append, hgives.found, hrun, hskips.found, hclose, List.reverse_append,
        List.append_assoc]
  | @braces inner cs _ _ ihinner ih =>
    intro l hl hopen
    -- either brace ends what is open before it and leaves nothing open
    obtain ⟨ts, hts, hclose⟩ := l.matched_close
    have hstep := Lexer.step_firm (c := '\x7b') hl rfl
    obtain ⟨us, hus, hinner⟩ := ihinner (l := l.step '\x7b')
      (by rw [Lexer.close_of_code hstep.1, hstep.1])
      (by rw [hstep.1]; exact fun _ => Mode.noConfusion)
    have hend := Lexer.step_firm (c := '\x7d') hinner.mode rfl
    obtain ⟨vs, hvs, hrest⟩ := ih (l := ((l.step '\x7b').run inner).step '\x7d')
      (by rw [Lexer.close_of_code hend.1, hend.1]) (by rw [hend.1]; exact fun _ => Mode.noConfusion)
    refine ⟨ts ++ .ofSymbol l.offset '\x7b' ::
      (us ++ .ofSymbol ((l.step '\x7b').run inner).offset '\x7d' :: vs),
      hts.append (.braces rfl rfl hus hvs), ?_, ?_⟩
    · rw [Lexer.run_cons, Lexer.run_append]
      exact hrest.mode
    · rw [Lexer.run_cons, Lexer.run_append, Lexer.run_cons, hrest.found, hend.2, hinner.found,
        hstep.2, hclose]
      simp

end Texel.Glsl
