import Texel.Proofs.Glsl.Lexing

/-!
# Texel — comments are not read

What stands in a comment has no influence on what is scanned, whatever it is: braces, calls, whole
definitions, signs of directives, ends of lines. Two texts that differ inside of one comment are
read in step up to the comment and behind it, and the lexer comes out of both comments alike. So the
same functions are found, and those spans that lie behind the comment move by the difference of the
two lengths.

* **`CommentForm`** — how comments begin and end.
* **`Commented`** — a text around a comment.
* **`Correspondence.splice`** — the places of two texts that differ in between.
* **`functionsIn_comment`** — the result.
-/

namespace Texel.Glsl

open Text Correspondence

/-! ## Comments in a text -/

inductive CommentForm
  /-- Up to the end of the line. -/
  | line
  /-- Up to a star and a slash. -/
  | block
  /-- Up to the end of the text, without a star and a slash. -/
  | unclosed

namespace CommentForm

def chars (interior : List Char) : CommentForm → List Char
  | .line => '/' :: '/' :: interior
  | .block => '/' :: '*' :: (interior ++ ['*', '/'])
  | .unclosed => '/' :: '*' :: interior

/-- The text does not end the comment that it stands in. -/
def Holds (interior : List Char) : CommentForm → Prop
  | .line => '\n' ∉ interior
  | .block | .unclosed => ¬ ['*', '/'] <:+: interior

instance (interior : List Char) : (form : CommentForm) → Decidable (form.Holds interior)
  | .line => inferInstanceAs (Decidable ('\n' ∉ interior))
  | .block | .unclosed => inferInstanceAs (Decidable (¬ ['*', '/'] <:+: interior))

/-- What may follow the text in a comment. The rest of a line still belongs to a line comment. -/
def Precedes (after : List Char) : CommentForm → Prop
  | .line | .block => True
  | .unclosed => after = []

theorem chars_ne_nil (form : CommentForm) (interior : List Char) : form.chars interior ≠ [] := by
  cases form <;> exact List.cons_ne_nil _ _

/-- Two comments of a form differ in size by what stands in them. -/
theorem byteSize_chars (form : CommentForm) (x y : List Char) :
    byteSize (form.chars x) + byteSize y = byteSize (form.chars y) + byteSize x := by
  cases form <;> simp only [chars, byteSize_cons, byteSize_append] <;> omega

end CommentForm

/-- A text with one comment, apart from what stands in it. The comment is recognised: where it
begins, the lexer reads code, and has not just read a slash that would open another one. -/
structure Commented where
  before : List Char
  form : CommentForm
  after : List Char
  begins : (Lexer.run {} before).mode.EndedBy '/'
  precedes : form.Precedes after

namespace Commented

/-- The text up to the end of the comment. -/
def upTo (s : Commented) (interior : List Char) : List Char := s.before ++ s.form.chars interior

def text (s : Commented) (interior : List Char) : String :=
  String.ofList (s.upTo interior ++ s.after)

/-- Where a place of the text with `x` in the comment is in the text with `y` in it. -/
def place (s : Commented) (x y : List Char) (k : Nat) : Nat :=
  if k ≤ byteSize s.before then k else k + byteSize y - byteSize x

end Commented

/-! ## Reading over a comment -/

namespace Lexer

variable {l : Lexer} {x : List Char}

theorem mode_close_of_ended {c : Char} (h : l.mode.EndedBy c) : l.close.mode = .code := by
  cases hm : l.mode with
  | code => rw [close_of_code hm, hm]
  | word start chars => rw [close, hm]; rfl
  | slash start => rw [close, hm]; rfl
  | line | block | star =>
    rw [hm] at h
    exact False.elim h

/-- Two characters that open a comment end what is open before them. -/
theorem run_opening {c : Char} (hl : l.mode.EndedBy '/') (x : List Char) :
    l.run ('/' :: c :: x) = (l.close.run ['/', c]).run x := by
  rw [run_of_ended hl, ← run_append]
  rfl

theorem run_lineComment (hl : l.mode.EndedBy '/') (hx : '\n' ∉ x) :
    (l.run ('/' :: '/' :: x)).mode = .line ∧ (l.run ('/' :: '/' :: x)).fresh = false ∧
      (l.run ('/' :: '/' :: x)).found = l.close.found := by
  have hopen := open_line (mode_close_of_ended hl)
  obtain ⟨hmode, hfound⟩ := run_line hopen.1 hx
  have hfresh : (l.close.run ['/', '/']).fresh = false := fresh_concat _ ['/'] rfl
  rw [run_opening hl]
  exact ⟨hmode, fresh_run hfresh hx, hfound.trans hopen.2⟩

theorem run_blockComment (hl : l.mode.EndedBy '/') (hx : ¬ ['*', '/'] <:+: x) :
    (l.run ('/' :: '*' :: (x ++ ['*', '/']))).mode = .code ∧
      (l.run ('/' :: '*' :: (x ++ ['*', '/']))).fresh = false ∧
      (l.run ('/' :: '*' :: (x ++ ['*', '/']))).found = l.close.found := by
  have hopen := open_block (mode_close_of_ended hl)
  have hskips := skips_block hx hopen.1
  rw [run_opening hl]
  refine ⟨hskips.mode, ?_, hskips.found.trans hopen.2⟩
  -- the slash that closes the comment is no blank
  rw [show x ++ ['*', '/'] = x ++ ['*'] ++ ['/'] by simp]
  exact fresh_concat _ _ rfl

theorem finish_unclosedComment (hl : l.mode.EndedBy '/') (hx : ¬ ['*', '/'] <:+: x) :
    (l.run ('/' :: '*' :: x)).finish = l.finish := by
  have hopen := open_block (mode_close_of_ended hl)
  obtain ⟨hmode, hfound⟩ := run_block hx (.inl hopen.1)
  have hclose : ((l.close.run ['/', '*']).run x).close = (l.close.run ['/', '*']).run x := by
    rcases hmode with hmode | hmode <;> rw [close, hmode]
  rw [run_opening hl, finish, hclose, hfound, hopen.2, finish]

end Lexer

/-! ## Two texts in step -/

/-- The places of two texts that agree up to `n`, and again from `cut` and `cut'` on. -/
def Correspondence.splice (n cut cut' : Nat) (h : n < cut) (h' : n < cut') : Correspondence where
  spell := id
  spell_injective := Function.injective_id
  spell_notCalls _ := Iff.rfl
  meets k k' := k ≤ n ∧ k' = k ∨ ∃ j, k = cut + j ∧ k' = cut' + j
  meets_unique := by
    rintro a a' b b' (⟨ha, rfl⟩ | ⟨i, rfl, rfl⟩) (⟨hb, rfl⟩ | ⟨j, rfl, rfl⟩) <;> omega

namespace Commented

variable (s : Commented) {x y : List Char}

theorem before_lt (x : List Char) : byteSize s.before < byteSize (s.upTo x) := by
  have := byteSize_pos (s.form.chars_ne_nil x)
  rw [upTo, byteSize_append]
  omega

/-- The places of two texts that differ in the comment. -/
def places (x y : List Char) : Correspondence :=
  .splice (byteSize s.before) (byteSize (s.upTo x)) (byteSize (s.upTo y)) (s.before_lt x)
    (s.before_lt y)

theorem eq_place {k k' : Nat} (h : (s.places x y).meets k k') : k' = s.place x y k := by
  have hlt := s.before_lt x
  have hsize := s.form.byteSize_chars x y
  unfold place
  rcases h with ⟨hk, rfl⟩ | ⟨j, rfl, rfl⟩
  · rw [if_pos hk]
  · rw [if_neg (by omega)]
    simp only [upTo, byteSize_append]
    omega

/-- What has been read before the comment. -/
theorem meets_before (x y : List Char) :
    (s.places x y).LexerMeets [] (Lexer.run {} s.before) (Lexer.run {} s.before) := by
  have hstart : (s.places x y).LexerMeets [] {} {} :=
    ⟨.code, .inl ⟨Nat.zero_le _, rfl⟩, rfl, [], rfl, .nil⟩
  refine run_meets (fun _ => rfl) hstart ?_
  rintro p ⟨q, hq⟩
  refine .inl ⟨?_, rfl⟩
  show 0 + byteSize p ≤ byteSize s.before
  rw [← hq, byteSize_append]
  omega

/-- Behind the comment, both texts are read on alike. -/
theorem meets_after {m : Mode} (hm : (s.places x y).ModeMeets m m)
    (hx : (Lexer.run {} (s.upTo x)).mode = m ∧ (Lexer.run {} (s.upTo x)).fresh = false ∧
      (Lexer.run {} (s.upTo x)).found = (Lexer.run {} s.before).close.found)
    (hy : (Lexer.run {} (s.upTo y)).mode = m ∧ (Lexer.run {} (s.upTo y)).fresh = false ∧
      (Lexer.run {} (s.upTo y)).found = (Lexer.run {} s.before).close.found) :
    (s.places x y).LexerMeets [] (Lexer.run {} (s.upTo x ++ s.after))
      (Lexer.run {} (s.upTo y ++ s.after)) := by
  have hoffset : ∀ z, (Lexer.run {} (s.upTo z)).offset = byteSize (s.upTo z) := fun z =>
    (Lexer.offset_run {} _).trans (Nat.zero_add _)
  have hmeets : (s.places x y).LexerMeets [] (Lexer.run {} (s.upTo x))
      (Lexer.run {} (s.upTo y)) := by
    refine ⟨?_, .inr ⟨0, hoffset x, hoffset y⟩, ?_, ?_⟩
    · rw [hx.1, hy.1]
      exact hm
    · rw [hx.2.1, hy.2.1]
    · rw [hx.2.2, hy.2.2]
      exact (s.meets_before x y).close.found
  rw [Lexer.run_append, Lexer.run_append]
  refine run_meets (fun _ => rfl) hmeets fun p _ => ?_
  rw [hoffset x, hoffset y]
  exact .inr ⟨byteSize p, rfl, rfl⟩

/-- **Tokens** of the two texts correspond. -/
theorem tokens_meet (hx : s.form.Holds x) (hy : s.form.Holds y) :
    List.Forall₂ (s.places x y).TokenMeets (tokens (s.text x)) (tokens (s.text y)) := by
  have hrun : ∀ z, Lexer.run {} (s.upTo z) = (Lexer.run {} s.before).run (s.form.chars z) :=
    fun z => Lexer.run_append _ _ _
  -- what remains of both texts, once they have been read to the end
  suffices h : ∃ later, (Lexer.run {} (s.upTo y ++ s.after)).close.found = later ++ [] ∧
      List.Forall₂ (s.places x y).TokenMeets
        (Lexer.run {} (s.upTo x ++ s.after)).close.found later by
    obtain ⟨later, hlater, hmeets⟩ := h
    rw [List.append_nil] at hlater
    rw [tokens, tokens, text, text, String.toList_ofList, String.toList_ofList, Lexer.finish,
      Lexer.finish, hlater]
    exact List.rel_reverse hmeets
  obtain ⟨before, form, after, hbegins, hprecedes⟩ := s
  cases form with
  | line =>
    refine (meets_after _ .line ?_ ?_).close.found
    · rw [hrun]
      exact Lexer.run_lineComment hbegins hx
    · rw [hrun]
      exact Lexer.run_lineComment hbegins hy
  | block =>
    refine (meets_after _ .code ?_ ?_).close.found
    · rw [hrun]
      exact Lexer.run_blockComment hbegins hx
    · rw [hrun]
      exact Lexer.run_blockComment hbegins hy
  | unclosed =>
    obtain rfl : after = [] := hprecedes
    have hfinish : ∀ {z}, ¬ ['*', '/'] <:+: z →
        (Lexer.run {} (before ++ '/' :: '*' :: z)).close.found =
        (Lexer.run {} before).close.found := by
      intro z hz
      rw [Lexer.run_append]
      exact List.reverse_injective (Lexer.finish_unclosedComment hbegins hz)
    have hmeets := (meets_before ⟨before, .unclosed, [], hbegins, rfl⟩ x y).close.found
    simp only [upTo, CommentForm.chars, List.append_nil, hfinish hx, hfinish hy] at hmeets ⊢
    exact hmeets

end Commented

/-- **Comments.** Whatever stands in a comment, the same functions are found; those behind it have
moved along. -/
theorem functionsIn_comment (s : Commented) {x y : List Char} (hx : s.form.Holds x)
    (hy : s.form.Holds y) :
    functionsIn (s.text y) = (functionsIn (s.text x)).map (Function.move (s.place x y)) := by
  have hstart : (s.places x y).ReaderMeets [] {} {} := ⟨.outside, [], rfl, .nil⟩
  obtain ⟨later, hlater, hmeets⟩ := (functions_meet (s.tokens_meet hx hy) hstart).found
  have hmoved : ∀ {fs fs' : List Function},
      List.Forall₂ (s.places x y).FunctionMeets fs fs' →
      fs' = fs.map (Function.move (s.place x y)) := by
    intro fs fs' h
    induction h with
    | nil => rfl
    | cons hf _ ih =>
      rw [List.map_cons, ← ih, hf.eq_move (fun _ => String.ofList_toList) fun _ _ => s.eq_place]
  rw [List.append_nil] at hlater
  rw [functionsIn, functionsIn, hlater, List.map_reverse, hmoved hmeets]

/-- A comment in the body of the first of two functions. -/
def annotated : Commented where
  before := "void f()\x7b".toList
  form := .block
  after := "g();\x7dint h()\x7b\x7d".toList
  begins := by
    rw [String.toList_ofList]
    exact trivial
  precedes := trivial

theorem annotated_functions :
    (functionsIn (annotated.text "\x7d".toList)).map (fun f => (f.name, f.calls, f.definition)) =
      [("f", ["g"], ⟨0, 19⟩), ("h", [], ⟨19, 28⟩)] ∧
    functionsIn (annotated.text "\n#\x7bi()\x7b\x7d*".toList) =
      (functionsIn (annotated.text "\x7d".toList)).map
        (Function.move (annotated.place "\x7d".toList "\n#\x7bi()\x7b\x7d*".toList)) := by
  refine ⟨by decide +kernel, functionsIn_comment annotated ?_ ?_⟩
  · rw [String.toList_ofList]
    decide
  · rw [String.toList_ofList]
    decide

end Texel.Glsl
