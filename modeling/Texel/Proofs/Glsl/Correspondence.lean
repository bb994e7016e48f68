import Texel.Glsl.Function
import Mathlib

/-!
# Texel — scanning does not look at positions and names

Two texts with the same symbols in the same order, whose words differ by a respelling, are scanned
alike: the same functions are found, with respelled names and at corresponding positions. This
module says so once for tokens, calls and function definitions; moving a text behind another one
and renaming the words of a text are both cases of it.

* **`Correspondence`** — an injective respelling of words, and a relation between the positions of
  two texts.
* **`calls_meet`** — corresponding bodies call corresponding functions.
* **`functions_meet`** — corresponding tokens hold corresponding functions.
* **`LexerMeets.step`** — reading the same character keeps two lexers in correspondence.
-/

namespace Texel.Glsl

/-- How the words and the positions of one text correspond to those of another. -/
structure Correspondence where
  /-- The spelling in the other text. -/
  spell : List Char → List Char
  spell_injective : Function.Injective spell
  /-- Words that are never called correspond to such words. -/
  spell_notCalls : ∀ w, String.ofList (spell w) ∈ notCalls ↔ String.ofList w ∈ notCalls
  /-- Does a byte offset correspond to one of the other text? -/
  meets : Nat → Nat → Prop
  meets_unique : ∀ {a a' b b' : Nat}, meets a a' → meets b b' → (a = b ↔ a' = b')

namespace Correspondence

variable {ρ : Correspondence}

/-! ## Words and tokens -/

/-- The corresponding name. -/
def name (ρ : Correspondence) (s : String) : String := String.ofList (ρ.spell s.toList)

theorem name_ofList (ρ : Correspondence) (w : List Char) :
    ρ.name (String.ofList w) = String.ofList (ρ.spell w) := by
  rw [name, String.toList_ofList]

theorem name_inj {s t : String} : ρ.name s = ρ.name t ↔ s = t := by
  constructor
  · intro h
    have hspell : ρ.spell s.toList = ρ.spell t.toList := String.ofList_injective h
    exact String.toList_injective (ρ.spell_injective hspell)
  · rintro rfl
    rfl

theorem name_mem_notCalls {s : String} : ρ.name s ∈ notCalls ↔ s ∈ notCalls := by
  rw [name, ρ.spell_notCalls, String.ofList_toList]

def lexeme (ρ : Correspondence) : Lexeme → Lexeme
  | .word w => .word (ρ.spell w)
  | .symbol c => .symbol c

structure TokenMeets (ρ : Correspondence) (t t' : Token) : Prop where
  lexeme : t'.lexeme = ρ.lexeme t.lexeme
  start : ρ.meets t.span.start t'.span.start
  stop : ρ.meets t.span.stop t'.span.stop

/-! ## Calls -/

structure ScanMeets (ρ : Correspondence) (s s' : CallScan) : Prop where
  number : Option.Rel ρ.meets s.number s'.number
  dotted : s'.dotted = s.dotted
  pending : s'.pending = s.pending.map ρ.name
  calls : s'.calls = s.calls.map ρ.name

theorem contains_map_name (ρ : Correspondence) (names : List String) (s : String) :
    (names.map ρ.name).contains (ρ.name s) = names.contains s := by
  rw [Bool.eq_iff_iff, List.contains_iff_mem, List.contains_iff_mem]
  exact List.mem_map_of_injective fun _ _ => name_inj.mp

/-- A number goes on in one text exactly if it goes on in the other. -/
theorem ScanMeets.prolongs {s s' : CallScan} {t t' : Token} (h : ρ.ScanMeets s s')
    (ht : ρ.TokenMeets t t') : s'.prolongs t' = s.prolongs t := by
  have hnumber : (s'.number == some t'.span.start) = (s.number == some t.span.start) := by
    have hrel := h.number
    generalize s.number = k at hrel
    generalize s'.number = k' at hrel
    cases hrel with
    | none => rfl
    | some hk =>
      rw [Bool.eq_iff_iff, beq_iff_eq, beq_iff_eq, Option.some_inj, Option.some_inj]
      exact (ρ.meets_unique hk ht.start).symm
  rw [CallScan.prolongs, CallScan.prolongs, hnumber, ht.lexeme]
  cases t.lexeme <;> rfl

theorem ScanMeets.note {s s' : CallScan} (h : ρ.ScanMeets s s') (self : String) :
    ρ.ScanMeets (s.note self) (s'.note (ρ.name self)) := by
  have hpending := h.pending
  unfold CallScan.note
  cases hcalled : s.pending with
  | none =>
    rw [hpending, hcalled]
    exact h
  | some called =>
    rw [hpending, hcalled]
    have hself : (ρ.name called == ρ.name self) = (called == self) := by
      rw [Bool.eq_iff_iff, beq_iff_eq, beq_iff_eq, name_inj]
    have hnot : notCalls.contains (ρ.name called) = notCalls.contains called := by
      rw [Bool.eq_iff_iff, List.contains_iff_mem, List.contains_iff_mem, name_mem_notCalls]
    simp only [Option.map_some, hself, hnot, h.calls, contains_map_name]
    split
    · exact h
    · exact ⟨h.number, h.dotted, rfl, by simp⟩

theorem ScanMeets.step {s s' : CallScan} {t t' : Token} (h : ρ.ScanMeets s s')
    (ht : ρ.TokenMeets t t') (self : String) :
    ρ.ScanMeets (s.step self t) (s'.step (ρ.name self) t') := by
  unfold CallScan.step
  rw [h.prolongs ht]
  split
  · exact ⟨.some ht.stop, rfl, rfl, h.calls⟩
  · rw [ht.lexeme]
    cases t.lexeme with
    | word w =>
      refine ⟨.none, rfl, ?_, h.calls⟩
      simp only [lexeme, h.dotted]
      split
      · rfl
      · rw [Option.map_some, name_ofList]
    | symbol c =>
      have hnoted : ρ.ScanMeets (if c == '(' then s.note self else s)
          (if c == '(' then s'.note (ρ.name self) else s') := by
        split
        · exact h.note self
        · exact h
      refine ⟨?_, rfl, rfl, hnoted.calls⟩
      simp only [lexeme]
      split
      · exact .some ht.stop
      · exact .none

/-- **Calls.** Corresponding bodies call corresponding functions. -/
theorem calls_meet {body body' : List Token} (h : List.Forall₂ ρ.TokenMeets body body')
    (self : String) : callsIn (ρ.name self) body' = (callsIn self body).map ρ.name := by
  have hrun : ∀ {s s' : CallScan}, ρ.ScanMeets s s' →
      ρ.ScanMeets (body.foldl (CallScan.step self) s)
        (body'.foldl (CallScan.step (ρ.name self)) s') := by
    induction h with
    | nil => exact fun hs => hs
    | cons ht _ ih => exact fun hs => ih (hs.step ht self)
  exact (hrun ⟨.none, rfl, rfl, rfl⟩).calls

/-! ## Function definitions -/

structure FunctionMeets (ρ : Correspondence) (f f' : Function) : Prop where
  name : f'.name = ρ.name f.name
  returnType : f'.returnType = ρ.name f.returnType
  groups : f'.groups = f.groups.map (·.map ρ.name)
  start : ρ.meets f.definition.start f'.definition.start
  stop : ρ.meets f.definition.stop f'.definition.stop
  bodyStart : ρ.meets f.body.start f'.body.start
  bodyStop : ρ.meets f.body.stop f'.body.stop
  calls : f'.calls = f.calls.map ρ.name

structure HeadMeets (ρ : Correspondence) (h h' : Head) : Prop where
  returnType : h'.returnType = ρ.name h.returnType
  name : h'.name = ρ.name h.name
  start : ρ.meets h.start h'.start

/-- The groups of words of a parameter list, in the other text. -/
def groups (ρ : Correspondence) (gs : List (List String)) : List (List String) :=
  gs.map (·.map ρ.name)

inductive StageMeets (ρ : Correspondence) : Stage → Stage → Prop
  | outside : StageMeets ρ .outside .outside
  | type (word : String) {start start' : Nat} (h : ρ.meets start start') :
    StageMeets ρ (.type word start) (.type (ρ.name word) start')
  | name {head head' : Head} {second second' : Nat} (hhead : ρ.HeadMeets head head')
    (h : ρ.meets second second') : StageMeets ρ (.name head second) (.name head' second')
  | parameters {head head' : Head} (gs : List (List String)) (words : List String)
    (hhead : ρ.HeadMeets head head') :
    StageMeets ρ (.parameters head gs words)
      (.parameters head' (ρ.groups gs) (words.map ρ.name))
  | closed {head head' : Head} (gs : List (List String)) (hhead : ρ.HeadMeets head head') :
    StageMeets ρ (.closed head gs) (.closed head' (ρ.groups gs))
  | body {head head' : Head} (gs : List (List String)) {start start' : Nat} (depth : Nat)
    {tokens tokens' : List Token} (hhead : ρ.HeadMeets head head') (h : ρ.meets start start')
    (htokens : List.Forall₂ ρ.TokenMeets tokens tokens') :
    StageMeets ρ (.body head gs start depth tokens)
      (.body head' (ρ.groups gs) start' depth tokens')
  | block (depth : Nat) : StageMeets ρ (.block depth) (.block depth)

theorem outsideStep_meets {t t' : Token} (ht : ρ.TokenMeets t t') :
    ρ.StageMeets (Reader.outsideStep t) (Reader.outsideStep t') := by
  unfold Reader.outsideStep
  rw [ht.lexeme]
  cases t.lexeme with
  | word w =>
    simp only [lexeme, ← name_ofList]
    exact .type _ ht.start
  | symbol c =>
    simp only [lexeme]
    split
    · next h => cases h
    · exact .block 1
    · exact .outside

theorem typeStep_meets {word : String} {start start' : Nat} {t t' : Token}
    (hstart : ρ.meets start start') (ht : ρ.TokenMeets t t') :
    ρ.StageMeets (Reader.typeStep word start t) (Reader.typeStep (ρ.name word) start' t') := by
  have houtside := outsideStep_meets ht
  unfold Reader.typeStep
  rw [ht.lexeme]
  cases t.lexeme with
  | word w =>
    simp only [lexeme, ← name_ofList]
    exact .name ⟨rfl, rfl, hstart⟩ ht.start
  | symbol c => exact houtside

theorem parametersStep_meets {head head' : Head} {gs : List (List String)} {words : List String}
    {t t' : Token} (hhead : ρ.HeadMeets head head') (ht : ρ.TokenMeets t t') :
    ρ.StageMeets (Reader.parametersStep head gs words t)
      (Reader.parametersStep head' (ρ.groups gs) (words.map ρ.name) t') := by
  have houtside := outsideStep_meets ht
  unfold Reader.parametersStep
  rw [ht.lexeme]
  cases t.lexeme with
  | word w =>
    have := StageMeets.parameters gs (words ++ [String.ofList w]) hhead
    simpa [lexeme, name_ofList] using this
  | symbol c =>
    simp only [lexeme]
    split
    · next h => cases h
    · simpa [groups] using StageMeets.parameters (gs ++ [words]) [] hhead
    · have := StageMeets.closed (if words.isEmpty then gs else gs ++ [words]) hhead
      cases words with
      | nil => exact this
      | cons w ws => simpa [groups] using this
    · exact houtside

theorem closedStep_meets {head head' : Head} {gs : List (List String)} {t t' : Token}
    (hhead : ρ.HeadMeets head head') (ht : ρ.TokenMeets t t') :
    ρ.StageMeets (Reader.closedStep head gs t) (Reader.closedStep head' (ρ.groups gs) t') := by
  have houtside := outsideStep_meets ht
  have hbody := StageMeets.body gs 1 hhead ht.start (.cons ht .nil)
  unfold Reader.closedStep
  rw [ht.lexeme]
  cases t.lexeme with
  | word w => exact houtside
  | symbol c =>
    simp only [lexeme]
    split
    · exact hbody
    · exact .outside
    · exact houtside

theorem depthAfter_meets {t t' : Token} (ht : ρ.TokenMeets t t') (depth : Nat) :
    Reader.depthAfter depth t' = Reader.depthAfter depth t := by
  unfold Reader.depthAfter
  rw [ht.lexeme]
  cases t.lexeme <;> rfl

theorem isSymbol_meets {t t' : Token} (ht : ρ.TokenMeets t t') (c : Char) :
    t'.isSymbol c = t.isSymbol c := by
  rw [Token.isSymbol, Token.isSymbol, ht.lexeme]
  cases t.lexeme <;> simp [lexeme]

theorem function_meets {head head' : Head} (gs : List (List String))
    {start start' stop stop' : Nat} {tokens tokens' : List Token} (hhead : ρ.HeadMeets head head')
    (hstart : ρ.meets start start') (hstop : ρ.meets stop stop')
    (htokens : List.Forall₂ ρ.TokenMeets tokens tokens') :
    ρ.FunctionMeets (Reader.function head gs start stop tokens)
      (Reader.function head' (ρ.groups gs) start' stop' tokens') where
  name := hhead.name
  returnType := hhead.returnType
  groups := rfl
  start := hhead.start
  stop := hstop
  bodyStart := hstart
  bodyStop := hstop
  calls := by
    simp only [Reader.function, hhead.name]
    exact calls_meet htokens head.name

/-- Two readers in correspondence, where the second one had found `earlier` before. -/
structure ReaderMeets (ρ : Correspondence) (earlier : List Function) (r r' : Reader) : Prop where
  stage : ρ.StageMeets r.stage r'.stage
  found : ∃ later, r'.found = later ++ earlier ∧ List.Forall₂ ρ.FunctionMeets r.found later

theorem ReaderMeets.step {earlier : List Function} {r r' : Reader} {t t' : Token}
    (h : ρ.ReaderMeets earlier r r') (ht : ρ.TokenMeets t t') :
    ρ.ReaderMeets earlier (r.step t) (r'.step t') := by
  obtain ⟨later, hlater, hfound⟩ := h.found
  have hkept : ∃ later, r'.found = later ++ earlier ∧ List.Forall₂ ρ.FunctionMeets r.found later :=
    ⟨later, hlater, hfound⟩
  obtain ⟨stage, found⟩ := r
  obtain ⟨stage', found'⟩ := r'
  unfold Reader.step
  cases h.stage with
  | outside => exact ⟨outsideStep_meets ht, hkept⟩
  | type word hstart => exact ⟨typeStep_meets hstart ht, hkept⟩
  | name hhead hsecond =>
    simp only [isSymbol_meets ht]
    split
    · exact ⟨.parameters [] [] hhead, hkept⟩
    · rw [hhead.name]
      exact ⟨typeStep_meets hsecond ht, hkept⟩
  | parameters gs words hhead => exact ⟨parametersStep_meets hhead ht, hkept⟩
  | closed gs hhead => exact ⟨closedStep_meets hhead ht, hkept⟩
  | body gs depth hhead hstart htokens =>
    simp only [depthAfter_meets ht]
    have hall : List.Forall₂ ρ.TokenMeets (t :: _) (t' :: _) := .cons ht htokens
    split
    · -- the body ends, and with it the definition
      have hended := function_meets gs hhead hstart ht.stop (List.rel_reverse hall)
      exact ⟨.outside, _ :: later, congrArg _ hlater, .cons hended hfound⟩
    · exact ⟨.body gs _ hhead hstart hall, hkept⟩
  | block depth =>
    simp only [depthAfter_meets ht]
    split
    · exact ⟨.outside, hkept⟩
    · exact ⟨.block _, hkept⟩

/-- **Function definitions.** Corresponding tokens hold corresponding functions. -/
theorem functions_meet {earlier : List Function} {tokens tokens' : List Token}
    (h : List.Forall₂ ρ.TokenMeets tokens tokens') :
    ∀ {r r' : Reader}, ρ.ReaderMeets earlier r r' →
      ρ.ReaderMeets earlier (tokens.foldl Reader.step r) (tokens'.foldl Reader.step r') := by
  induction h with
  | nil => exact fun hr => hr
  | cons ht _ ih => exact fun hr => ih (hr.step ht)

/-! ## Reading characters -/

theorem offset_close (l : Lexer) : l.close.offset = l.offset := by
  unfold Lexer.close
  split <;> rfl

theorem offset_begin (l : Lexer) (c : Char) : (l.begin c).offset = l.offset := by
  unfold Lexer.begin
  split_ifs <;> rfl

theorem offset_read (l : Lexer) (c : Char) : (l.read c).offset = l.offset := by
  unfold Lexer.read
  split
  · exact offset_begin l c
  · split_ifs
    · rfl
    · rw [offset_begin, offset_close]
  · split_ifs
    · rfl
    · rfl
    · rw [offset_begin, offset_close]
  · split_ifs <;> rfl
  · split_ifs <;> rfl
  · split_ifs <;> rfl

inductive ModeMeets (ρ : Correspondence) : Mode → Mode → Prop
  | code : ModeMeets ρ .code .code
  | word {start start' : Nat} {chars chars' : List Char} (h : ρ.meets start start')
    (hchars : chars'.reverse = ρ.spell chars.reverse) :
    ModeMeets ρ (.word start chars) (.word start' chars')
  | slash {start start' : Nat} (h : ρ.meets start start') :
    ModeMeets ρ (.slash start) (.slash start')
  | line : ModeMeets ρ .line .line
  | block : ModeMeets ρ .block .block
  | star : ModeMeets ρ .star .star

/-- Two lexers in correspondence, where the second one had found `earlier` before. -/
structure LexerMeets (ρ : Correspondence) (earlier : List Token) (l l' : Lexer) : Prop where
  mode : ρ.ModeMeets l.mode l'.mode
  offset : ρ.meets l.offset l'.offset
  fresh : l'.fresh = l.fresh
  found : ∃ later, l'.found = later ++ earlier ∧ List.Forall₂ ρ.TokenMeets l.found later

variable {earlier : List Token} {l l' : Lexer}

theorem LexerMeets.emit (h : ρ.LexerMeets earlier l l') (x : Lexeme)
    {start start' stop stop' : Nat} (hstart : ρ.meets start start') (hstop : ρ.meets stop stop') :
    ρ.LexerMeets earlier (l.emit x start stop) (l'.emit (ρ.lexeme x) start' stop') := by
  obtain ⟨later, hlater, hfound⟩ := h.found
  have htoken : ρ.TokenMeets ⟨x, ⟨start, stop⟩⟩ ⟨ρ.lexeme x, ⟨start', stop'⟩⟩ :=
    ⟨rfl, hstart, hstop⟩
  exact ⟨.code, h.offset, h.fresh, _ :: later, congrArg _ hlater, .cons htoken hfound⟩

/-- A word or slash that ends is noted in both. -/
theorem LexerMeets.close (h : ρ.LexerMeets earlier l l') :
    ρ.LexerMeets earlier l.close l'.close := by
  have hmode := h.mode
  unfold Lexer.close
  generalize l.mode = m at hmode
  generalize l'.mode = m' at hmode
  cases hmode with
  | @word start start' chars chars' hstart hchars =>
    dsimp only
    rw [hchars]
    exact h.emit (.word chars.reverse) hstart h.offset
  | slash hstart => exact h.emit (.symbol '/') hstart h.offset
  | code | line | block | star => exact h

theorem LexerMeets.withMode (h : ρ.LexerMeets earlier l l') {m m' : Mode}
    (hm : ρ.ModeMeets m m') : ρ.LexerMeets earlier { l with mode := m } { l' with mode := m' } :=
  ⟨hm, h.offset, h.fresh, h.found⟩

/-- A character between tokens, if it is the same in both texts. -/
theorem LexerMeets.begin (h : ρ.LexerMeets earlier l l') {c : Char}
    (hend : ρ.meets (l.offset + c.utf8Size) (l'.offset + c.utf8Size))
    (hstart : Identifier.isStart c → ρ.spell [c] = [c]) :
    ρ.LexerMeets earlier (l.begin c) (l'.begin c) := by
  have hline : (c == '#' && l'.fresh) = (c == '#' && l.fresh) := by rw [h.fresh]
  unfold Lexer.begin
  rw [hline]
  split_ifs with _ _ _ hword
  · exact h.withMode .code
  · exact h.withMode (.slash h.offset)
  · exact h.withMode .line
  · exact h.withMode (.word h.offset (hstart hword).symm)
  · exact h.emit (.symbol c) h.offset hend

section Character

-- the same character on both sides, where the spelling goes along with it in a word
variable (h : ρ.LexerMeets earlier l l') {c : Char}
  (hend : ρ.meets (l.offset + c.utf8Size) (l'.offset + c.utf8Size))
  (hstart : Identifier.isStart c → ρ.spell [c] = [c])
  (hpart : ∀ start chars, l.mode = .word start chars → Identifier.isPart c →
    ρ.spell (c :: chars).reverse = ρ.spell chars.reverse ++ [c])
include h hend hstart hpart

theorem LexerMeets.read : ρ.LexerMeets earlier (l.read c) (l'.read c) := by
  have hclose : ρ.LexerMeets earlier (l.close.begin c) (l'.close.begin c) := by
    refine h.close.begin ?_ hstart
    rw [offset_close, offset_close]
    exact hend
  have hmode := h.mode
  have hbegin := h.begin hend hstart
  unfold Lexer.read
  generalize hm : l.mode = m at hmode
  generalize l'.mode = m' at hmode
  cases hmode with
  | code => exact hbegin
  | word hs hchars =>
    dsimp only
    split_ifs with hp
    · refine h.withMode (.word hs ?_)
      rw [List.reverse_cons, hchars, hpart _ _ hm hp]
    · exact hclose
  | slash hs =>
    dsimp only
    split_ifs
    · exact h.withMode .line
    · exact h.withMode .block
    · exact hclose
  | line =>
    dsimp only
    split_ifs
    · exact h.withMode .code
    · exact h
  | block =>
    dsimp only
    split_ifs
    · exact h.withMode .star
    · exact h
  | star =>
    dsimp only
    split_ifs
    · exact h.withMode .code
    · exact h
    · exact h.withMode .block

/-- **Characters** keep the correspondence. -/
theorem LexerMeets.step : ρ.LexerMeets earlier (l.step c) (l'.step c) := by
  have hread := h.read hend hstart hpart
  refine ⟨hread.mode, ?_, ?_, hread.found⟩
  · simpa only [Lexer.step, Lexer.advance, offset_read] using hend
  · simp only [Lexer.step, Lexer.advance, hread.fresh]

end Character

end Correspondence
end Texel.Glsl
