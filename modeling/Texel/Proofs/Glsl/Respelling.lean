import Texel.Proofs.Glsl.Library

/-!
# Texel — words respelled

A text falls into words and single other characters. Respelling the words, one by one and each by
a word, keeps everything that scanning finds in place: the functions of the respelled text are
those of the text, with respelled names.

* **`Spaced`** — words and characters that stay apart when they are put together.
* **`run_word`** — what reading a whole word does.
* **`respelling`** — the correspondence between a text and the respelled one.
* **`functionsIn_respell`** — the result.
-/

namespace Texel.Glsl

open Text Correspondence

/-! ## Words and single characters -/

/-- A whole word. -/
def isIdentifier : List Char → Bool
  | [] => false
  | c :: cs => Identifier.isStart c && cs.all Identifier.isPart

/-- The list begins with a character that no word can go on with, or is empty. -/
def Breaks : List (List Char) → Prop
  | [] => True
  | u :: _ => ∃ c, u = [c] ∧ Identifier.isPart c = false

/-- Words, and single characters that begin no word. Behind a word stands a character that ends
it. -/
inductive Spaced : List (List Char) → Prop
  | nil : Spaced []
  | lone {c : Char} {us : List (List Char)} (hc : Identifier.isStart c = false) (hus : Spaced us) :
    Spaced ([c] :: us)
  | word {w : List Char} {us : List (List Char)} (hw : isIdentifier w = true) (hbreak : Breaks us)
    (hus : Spaced us) : Spaced (w :: us)

theorem isPart_of_isStart {c : Char} (h : Identifier.isStart c = true) :
    Identifier.isPart c = true := by
  simp only [Identifier.isStart, Identifier.isPart, Char.isAlphanum, Bool.or_eq_true] at h ⊢
  tauto

/-- The characters of words have no meaning of their own. -/
theorem isPart_spec {c : Char} (h : Identifier.isPart c = true) :
    isBlank c = false ∧ (c == '/') = false ∧ (c == '#') = false ∧ (c == '*') = false ∧
      (c == '\n') = false := by
  have hne : ∀ d : Char, Identifier.isPart d = false → (c == d) = false := by
    intro d hd
    rw [beq_eq_false_iff_ne]
    rintro rfl
    rw [h] at hd
    cases hd
  refine ⟨?_, hne _ rfl, hne _ rfl, hne _ rfl, hne _ rfl⟩
  simp only [isBlank, hne ' ' rfl, hne '\t' rfl, hne '\n' rfl, hne '\x0c' rfl, hne '\r' rfl,
    Bool.or_self]

/-! ## Reading a word -/

/-- The lexer is not in a word. -/
def Lexer.Between (l : Lexer) : Prop := ∀ start chars, l.mode ≠ .word start chars

/-- The mode after a word that began at an offset. -/
def Mode.pass (offset : Nat) (w : List Char) : Mode → Mode
  | .line => .line
  | .block | .star => .block
  | .code | .slash _ | .word _ _ => .word offset w.reverse

/-- The lexer after a word that began where it stands. -/
def Lexer.pass (l : Lexer) (w : List Char) : Lexer :=
  { l.close with
    mode := l.mode.pass l.offset w
    offset := l.offset + byteSize w
    fresh := false }

theorem step_part_word {l : Lexer} {start : Nat} {chars : List Char} {c : Char}
    (hl : l.mode = .word start chars) (hc : Identifier.isPart c = true) :
    l.step c =
      { l with
        mode := .word start (c :: chars)
        offset := l.offset + c.utf8Size
        fresh := false } := by
  have hplain := isPart_spec hc
  simp [Lexer.step, Lexer.read, hl, hc, Lexer.advance, hplain]

theorem step_part_line {l : Lexer} {c : Char} (hl : l.mode = .line)
    (hc : Identifier.isPart c = true) :
    l.step c = { l with offset := l.offset + c.utf8Size, fresh := false } := by
  have hplain := isPart_spec hc
  simp [Lexer.step, Lexer.read, hl, Lexer.advance, hplain]

theorem step_part_block {l : Lexer} {c : Char} (hl : l.mode = .block)
    (hc : Identifier.isPart c = true) :
    l.step c = { l with offset := l.offset + c.utf8Size, fresh := false } := by
  have hplain := isPart_spec hc
  simp [Lexer.step, Lexer.read, hl, Lexer.advance, hplain]

/-- The first character of a word. -/
theorem step_start {l : Lexer} (hl : l.Between) {c : Char} (hc : Identifier.isStart c = true) :
    l.step c = l.pass [c] := by
  have hplain := isPart_spec (isPart_of_isStart hc)
  cases hm : l.mode with
  | word start chars => exact absurd hm (hl start chars)
  | code | slash | line | block | star =>
    simp [Lexer.step, Lexer.read, Lexer.begin, Lexer.pass, Mode.pass, Lexer.advance, hm, hc, hplain,
      byteSize, Lexer.close, Lexer.emit]

/-- Another character of a word. -/
theorem pass_step (l : Lexer) (w : List Char) {c : Char} (hc : Identifier.isPart c = true) :
    (l.pass w).step c = l.pass (w ++ [c]) := by
  have hsize : byteSize (w ++ [c]) = byteSize w + c.utf8Size := by
    rw [byteSize_append, byteSize_singleton]
  cases hm : l.mode with
  | code | slash | word =>
    have hmode : (l.pass w).mode = .word l.offset w.reverse := by rw [Lexer.pass, hm]; rfl
    rw [step_part_word hmode hc]
    simp [Lexer.pass, Mode.pass, hm, hsize, Nat.add_assoc]
  | line =>
    have hmode : (l.pass w).mode = .line := by rw [Lexer.pass, hm]; rfl
    rw [step_part_line hmode hc]
    simp [Lexer.pass, Mode.pass, hm, hsize, Nat.add_assoc]
  | block | star =>
    have hmode : (l.pass w).mode = .block := by rw [Lexer.pass, hm]; rfl
    rw [step_part_block hmode hc]
    simp [Lexer.pass, Mode.pass, hm, hsize, Nat.add_assoc]

theorem pass_run (l : Lexer) (w : List Char) {cs : List Char}
    (hcs : cs.all Identifier.isPart = true) : (l.pass w).run cs = l.pass (w ++ cs) := by
  induction cs generalizing w with
  | nil => rw [List.append_nil]; rfl
  | cons c cs ih =>
    rw [List.all_cons, Bool.and_eq_true] at hcs
    rw [show (l.pass w).run (c :: cs) = ((l.pass w).step c).run cs from rfl, pass_step l w hcs.1,
      ih (w ++ [c]) hcs.2, List.append_assoc, List.singleton_append]

/-- **Words.** Reading a word notes where it began, unless it stands in a comment. -/
theorem run_word {l : Lexer} (hl : l.Between) {w : List Char} (hw : isIdentifier w = true) :
    l.run w = l.pass w := by
  cases w with
  | nil => cases hw
  | cons c cs =>
    rw [isIdentifier, Bool.and_eq_true] at hw
    rw [show l.run (c :: cs) = (l.step c).run cs from rfl, step_start hl hw.1,
      pass_run l [c] hw.2, List.singleton_append]

/-- A character that begins no word leaves the lexer between words, unless it goes on with one. -/
theorem between_step {l : Lexer} {c : Char} (hc : Identifier.isStart c = false)
    (hl : l.Between ∨ Identifier.isPart c = false) : (l.step c).Between := by
  intro start chars
  have hbegin : ∀ k : Lexer, (k.begin c).mode ≠ .word start chars := by
    intro k
    unfold Lexer.begin
    split_ifs <;> simp_all [Lexer.emit]
  show (l.read c).mode ≠ .word start chars
  unfold Lexer.read
  split
  · exact hbegin l
  · next hm =>
    have hpart : Identifier.isPart c = false := hl.resolve_left fun h => h _ _ hm
    rw [hpart]
    exact hbegin _
  · split_ifs
    · exact Mode.noConfusion
    · exact Mode.noConfusion
    · exact hbegin _
  · next hm => split_ifs <;> simp_all
  · next hm => split_ifs <;> simp_all
  · next hm => split_ifs <;> simp_all

/-! ## The respelled text -/

/-- A word respelled; other characters stay. -/
def respell (spell : List Char → List Char) (u : List Char) : List Char :=
  if isIdentifier u then spell u else u

/-- An injective respelling by words, which keeps apart words that are called and words that are
not. -/
structure Spelling where
  spell : List Char → List Char
  injective : Function.Injective spell
  notCalls : ∀ w, String.ofList (spell w) ∈ Glsl.notCalls ↔ String.ofList w ∈ Glsl.notCalls
  identifier : ∀ w, isIdentifier w = true → isIdentifier (spell w) = true

theorem Spaced.ne_nil {us : List (List Char)} (h : Spaced us) : ∀ u ∈ us, u ≠ [] := by
  induction h with
  | nil => simp
  | lone hc _ ih => simpa using ih
  | word hw _ _ ih =>
    rw [List.forall_mem_cons]
    refine ⟨?_, ih⟩
    rintro rfl
    cases hw

theorem respell_ne_nil (σ : Spelling) {u : List Char} (hu : u ≠ []) : respell σ.spell u ≠ [] := by
  unfold respell
  split_ifs with hw
  · have := σ.identifier u hw
    intro hnil
    rw [hnil] at this
    cases this
  · exact hu

/-- Two beginnings of a list of texts have the same size only if they are the same. -/
theorem take_eq_of_byteSize_eq {us a b c d : List (List Char)} (hne : ∀ u ∈ us, u ≠ [])
    (hab : us = a ++ b) (hcd : us = c ++ d) (h : byteSize a.flatten = byteSize c.flatten) :
    a = c := by
  have hzero : ∀ {e f : List (List Char)}, (∀ u ∈ f ++ e, u ≠ []) →
      byteSize f.flatten = byteSize (f ++ e).flatten → e = [] := by
    intro e f hmem hsize
    cases e with
    | nil => rfl
    | cons u e =>
      have := byteSize_pos (hmem u (by simp))
      rw [List.flatten_append, List.flatten_cons, byteSize_append, byteSize_append] at hsize
      omega
  rcases List.append_eq_append_iff.mp (hab.symm.trans hcd) with ⟨e, rfl, rfl⟩ | ⟨e, rfl, rfl⟩
  · have he : e = [] := hzero (fun u hu => hne u (hcd ▸ List.mem_append_left d hu)) h
    rw [he, List.append_nil]
  · have he : e = [] := hzero (fun u hu => hne u (hab ▸ List.mem_append_left b hu)) h.symm
    rw [he, List.append_nil]

/-- The correspondence between a text and the respelled text: positions before the same words and
characters. -/
def respelling (σ : Spelling) {us : List (List Char)} (hus : Spaced us) : Correspondence where
  spell := σ.spell
  spell_injective := σ.injective
  spell_notCalls := σ.notCalls
  meets k k' := ∃ a b, us = a ++ b ∧ k = byteSize a.flatten ∧
    k' = byteSize (a.map (respell σ.spell)).flatten
  meets_unique := by
    rintro k k' m m' ⟨a, b, hab, rfl, rfl⟩ ⟨c, d, hcd, rfl, rfl⟩
    constructor
    · intro h
      rw [take_eq_of_byteSize_eq hus.ne_nil hab hcd h]
    · intro h
      have hne : ∀ u ∈ us.map (respell σ.spell), u ≠ [] := by
        intro u hu
        obtain ⟨v, hv, rfl⟩ := List.mem_map.mp hu
        exact respell_ne_nil σ (hus.ne_nil v hv)
      have hlen : a.length = c.length := by
        have := take_eq_of_byteSize_eq hne (by rw [hab, List.map_append])
          (by rw [hcd, List.map_append]) h
        simpa using congrArg List.length this
      have hac : a = c := (List.append_inj (hab.symm.trans hcd) hlen).1
      rw [hac]

theorem isIdentifier_lone {c : Char} (hc : Identifier.isStart c = false) :
    isIdentifier [c] = false := by
  simp [isIdentifier, hc]

variable (σ : Spelling) {us : List (List Char)} (hus : Spaced us)

/-- A word read on one side and the respelled one on the other. -/
theorem LexerMeets.pass {l l' : Lexer} (h : (respelling σ hus).LexerMeets [] l l') {w : List Char}
    (hend : (respelling σ hus).meets (l.offset + byteSize w) (l'.offset + byteSize (σ.spell w))) :
    (respelling σ hus).LexerMeets [] (l.pass w) (l'.pass (σ.spell w)) := by
  have hword : (respelling σ hus).ModeMeets (.word l.offset w.reverse)
      (.word l'.offset (σ.spell w).reverse) := by
    refine .word h.offset ?_
    rw [List.reverse_reverse, List.reverse_reverse]
    rfl
  refine ⟨?_, hend, rfl, h.close.found⟩
  have hmode := h.mode
  show (respelling σ hus).ModeMeets (l.mode.pass l.offset w) (l'.mode.pass l'.offset (σ.spell w))
  generalize l.mode = m at hmode
  generalize l'.mode = m' at hmode
  cases hmode with
  | code | word | slash => exact hword
  | line => exact .line
  | block | star => exact .block

/-- Reading on in both texts: the induction is on the words and characters still to be read. -/
theorem run_respell {b : List (List Char)} (hb : Spaced b) :
    ∀ {a : List (List Char)} {l l' : Lexer}, us = a ++ b → l.offset = byteSize a.flatten →
      l'.offset = byteSize (a.map (respell σ.spell)).flatten → l.Between ∧ l'.Between ∨ Breaks b →
      (respelling σ hus).LexerMeets [] l l' →
      (respelling σ hus).LexerMeets [] (l.run b.flatten)
        (l'.run (b.map (respell σ.spell)).flatten) := by
  induction hb with
  | nil => exact fun _ _ _ _ h => h
  | @lone c b hc _ ih =>
    intro a l l' hsplit hoffset hoffset' hbetween h
    have hsame : respell σ.spell [c] = [c] := by simp [respell, isIdentifier_lone hc]
    have hnext : us = (a ++ [[c]]) ++ b := by rw [hsplit]; simp
    have hend : l.offset + c.utf8Size = byteSize (a ++ [[c]]).flatten := by
      simp [hoffset, byteSize_append, byteSize_singleton]
    have hend' : l'.offset + c.utf8Size =
        byteSize ((a ++ [[c]]).map (respell σ.spell)).flatten := by
      simp [hoffset', byteSize_append, hsame, byteSize_singleton]
    have hpart : (l.Between ∧ l'.Between) ∨ Identifier.isPart c = false := by
      rcases hbetween with hbetween | ⟨d, hd, hpart⟩
      · exact Or.inl hbetween
      · cases hd
        exact Or.inr hpart
    have hstep : (respelling σ hus).LexerMeets [] (l.step c) (l'.step c) := by
      refine h.step ⟨a ++ [[c]], b, hnext, hend, hend'⟩ ?_ ?_
      · intro hstart
        rw [hc] at hstart
        cases hstart
      · intro start chars hm hp
        rcases hpart with hpart | hpart
        · exact absurd hm (hpart.1 start chars)
        · rw [hp] at hpart
          cases hpart
    rw [List.flatten_cons, List.map_cons, List.flatten_cons, hsame, Lexer.run_append,
      Lexer.run_append]
    refine ih hnext ?_ ?_ (Or.inl ⟨?_, ?_⟩) hstep
    · rw [← hend]
      exact congrArg (· + c.utf8Size) (offset_read l c)
    · rw [← hend']
      exact congrArg (· + c.utf8Size) (offset_read l' c)
    · exact between_step hc (hpart.imp_left And.left)
    · exact between_step hc (hpart.imp_left And.right)
  | @word w b hw hbreak _ ih =>
    intro a l l' hsplit hoffset hoffset' hbetween h
    have hw' := σ.identifier w hw
    have hspell : respell σ.spell w = σ.spell w := if_pos hw
    have hnext : us = (a ++ [w]) ++ b := by rw [hsplit]; simp
    have hend : l.offset + byteSize w = byteSize (a ++ [w]).flatten := by
      simp [hoffset, byteSize_append]
    have hend' : l'.offset + byteSize (σ.spell w) =
        byteSize ((a ++ [w]).map (respell σ.spell)).flatten := by
      simp [hoffset', byteSize_append, hspell]
    have hapart : l.Between ∧ l'.Between := by
      refine hbetween.resolve_right ?_
      rintro ⟨c, rfl, hc⟩
      rw [isIdentifier, Bool.and_eq_true] at hw
      rw [isPart_of_isStart hw.1] at hc
      cases hc
    rw [List.flatten_cons, List.map_cons, List.flatten_cons, hspell, Lexer.run_append,
      Lexer.run_append, run_word hapart.1 hw, run_word hapart.2 hw']
    exact ih hnext hend hend' (Or.inr hbreak)
      (LexerMeets.pass σ hus h ⟨a ++ [w], b, hnext, hend, hend'⟩)

/-- The text that consists of words and characters. -/
def textOf (us : List (List Char)) : String := String.ofList us.flatten

theorem lexer_respell :
    (respelling σ hus).LexerMeets [] (Lexer.run {} (textOf us).toList)
      (Lexer.run {} (textOf (us.map (respell σ.spell))).toList) := by
  have hstart : (respelling σ hus).LexerMeets [] {} {} :=
    ⟨.code, ⟨[], us, rfl, rfl, rfl⟩, rfl, [], rfl, .nil⟩
  have hbetween : Lexer.Between {} := fun _ _ => Mode.noConfusion
  rw [textOf, textOf, String.toList_ofList, String.toList_ofList]
  exact run_respell σ hus hus (a := []) rfl rfl rfl (Or.inl ⟨hbetween, hbetween⟩) hstart

theorem tokens_respell :
    List.Forall₂ (respelling σ hus).TokenMeets (tokens (textOf us))
      (tokens (textOf (us.map (respell σ.spell)))) := by
  obtain ⟨later, hlater, hmeets⟩ := (lexer_respell σ hus).close.found
  rw [tokens, tokens, Lexer.finish, Lexer.finish, hlater, List.append_nil]
  exact List.rel_reverse hmeets

theorem reader_respell :
    (respelling σ hus).ReaderMeets [] ((tokens (textOf us)).foldl Reader.step {})
      ((tokens (textOf (us.map (respell σ.spell)))).foldl Reader.step {}) :=
  functions_meet (tokens_respell σ hus) ⟨.outside, [], rfl, .nil⟩

/-- **Respelling.** The functions of a respelled text are those of the text, respelled. -/
theorem functionsIn_respell :
    List.Forall₂ (respelling σ hus).FunctionMeets (functionsIn (textOf us))
      (functionsIn (textOf (us.map (respell σ.spell)))) := by
  obtain ⟨later, hlater, hmeets⟩ := (reader_respell σ hus).found
  rw [functionsIn, functionsIn, hlater, List.append_nil]
  exact List.rel_reverse hmeets

include hus in
theorem settled_respell (h : Settled (textOf us)) :
    Settled (textOf (us.map (respell σ.spell))) where
  mode := by
    have hmode := (lexer_respell σ hus).mode
    rw [h.mode] at hmode
    generalize (Lexer.run {} (textOf (us.map (respell σ.spell))).toList).mode = m at hmode
    cases hmode
    rfl
  fresh := (lexer_respell σ hus).fresh.trans h.fresh
  outside := by
    have hstage := (reader_respell σ hus).stage
    rw [h.outside] at hstage
    generalize ((tokens (textOf (us.map (respell σ.spell)))).foldl Reader.step {}).stage =
      s at hstage
    cases hstage
    rfl

/-- A position before certain words and characters corresponds to the position before the same,
respelled. -/
theorem meets_respell {a b : List (List Char)} (hsplit : us = a ++ b) {k : Nat}
    (h : (respelling σ hus).meets (byteSize a.flatten) k) :
    k = byteSize (a.map (respell σ.spell)).flatten := by
  have hmeet : (respelling σ hus).meets (byteSize a.flatten)
      (byteSize (a.map (respell σ.spell)).flatten) := ⟨a, b, hsplit, rfl, rfl⟩
  exact ((respelling σ hus).meets_unique h hmeet).mp rfl

/-! ## Exchanging two words -/

/-- Two words exchanged. -/
def Spelling.swap (v w : List Char) (hv : isIdentifier v = true) (hw : isIdentifier w = true)
    (hv' : String.ofList v ∉ Glsl.notCalls) (hw' : String.ofList w ∉ Glsl.notCalls) : Spelling where
  spell := Equiv.swap v w
  injective := (Equiv.swap v w).injective
  notCalls x := by
    rw [Equiv.swap_apply_def]
    split_ifs with hx hx
    · rw [hx, iff_false_left hw']
      exact hv'
    · rw [hx, iff_false_left hv']
      exact hw'
    · rfl
  identifier x hx := by
    rw [Equiv.swap_apply_def]
    split_ifs
    · exact hw
    · exact hv
    · exact hx

/-- One respelling after another. -/
def Spelling.comp (σ τ : Spelling) : Spelling where
  spell w := σ.spell (τ.spell w)
  injective := σ.injective.comp τ.injective
  notCalls w := (σ.notCalls _).trans (τ.notCalls w)
  identifier w hw := σ.identifier _ (τ.identifier w hw)

/-! ## Checking that words stay apart -/

/-- A single character that begins no word. -/
def isLone : List Char → Bool
  | [c] => !Identifier.isStart c
  | _ => false

/-- `Breaks`, to be computed. -/
def breaks : List (List Char) → Bool
  | [] => true
  | [c] :: _ => !Identifier.isPart c
  | _ => false

/-- `Spaced`, to be computed. -/
def spaced : List (List Char) → Bool
  | [] => true
  | u :: us => (isLone u || isIdentifier u && breaks us) && spaced us

theorem Spaced.of_spaced {us : List (List Char)} (h : spaced us = true) : Spaced us := by
  induction us with
  | nil => exact .nil
  | cons u us ih =>
    rw [spaced, Bool.and_eq_true, Bool.or_eq_true, Bool.and_eq_true] at h
    obtain ⟨hlone | ⟨hword, hbreak⟩, hus⟩ := h
    · unfold isLone at hlone
      split at hlone
      · exact .lone (by simpa using hlone) (ih hus)
      · cases hlone
    · refine .word hword ?_ (ih hus)
      unfold breaks at hbreak
      split at hbreak
      · trivial
      · exact ⟨_, rfl, by simpa using hbreak⟩
      · cases hbreak

end Texel.Glsl
