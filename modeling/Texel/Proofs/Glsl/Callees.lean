import Texel.Proofs.Glsl.Lexing

/-!
# Texel — what a text calls

A function is called where its name stands directly before a parenthesis. Here texts are put
together from words and symbols in such a way that only certain words get there. A text **utters**
calls of some names if, read from a place where a parenthesis might follow, it puts no other word
before a parenthesis; it is **ended** if a parenthesis might follow it again.

* **`CallsOnly`** — the words before parentheses, among tokens.
* **`Utters`**, **`Ended`** — texts, with a lemma for each way to go on.
* **`callsIn_subset`** — the scanner finds no other calls.
-/

namespace Texel.Glsl

open Text Correspondence

/-! ## Tokens -/

/-- A word of some names, or one that no parenthesis makes a call. -/
def MayCall (names : List String) (lexeme : Lexeme) : Prop :=
  ∀ w, lexeme = .word w → String.ofList w ∈ names ∨ String.ofList w ∈ notCalls

/-- No other word stands before a parenthesis. The tokens stand last first. -/
def CallsOnly (names : List String) (found : List Token) : Prop :=
  found.IsChain fun later earlier => later.lexeme = .symbol '(' → MayCall names earlier.lexeme

variable {names : List String} {found : List Token} {t : Token}

theorem MayCall.symbol (names : List String) (c : Char) : MayCall names (.symbol c) := by
  intro w hw
  cases hw

theorem CallsOnly.cons (h : CallsOnly names found) (ht : t.lexeme ≠ .symbol '(') :
    CallsOnly names (t :: found) :=
  List.isChain_cons.mpr ⟨fun _ _ hparen => absurd hparen ht, h⟩

/-! ## Scanning -/

theorem mem_calls_note {self name : String} {s : CallScan} (h : name ∈ (s.note self).calls) :
    name ∈ s.calls ∨ s.pending = some name ∧ name ≠ self ∧ name ∉ notCalls := by
  unfold CallScan.note at h
  split at h
  · next pending hpending =>
    split_ifs at h with hskip
    · exact Or.inl h
    · rcases List.mem_append.mp h with h | h
      · exact Or.inl h
      · obtain rfl := List.mem_singleton.mp h
        simp only [Bool.or_eq_true, not_or, List.contains_iff_mem, beq_iff_eq] at hskip
        exact Or.inr ⟨hpending, hskip.1⟩
  · exact Or.inl h

/-- **Calls** are names before parentheses, and not the name of the function itself. -/
theorem callsIn_subset {self : String} {ts : List Token} (h : CallsOnly names ts.reverse) :
    ∀ name ∈ callsIn self ts, name ∈ names ∧ name ≠ self := by
  -- a word that is pending is the last token
  suffices hscan :
      (∀ name ∈ (ts.foldl (CallScan.step self) {}).calls, name ∈ names ∧ name ≠ self) ∧
      ∀ w, (ts.foldl (CallScan.step self) {}).pending = some w →
        ∃ t ∈ ts.reverse.head?, t.lexeme = .word w.toList from hscan.1
  induction ts using List.reverseRecOn with
  | nil => exact ⟨fun _ hname => absurd hname List.not_mem_nil, fun w hw => by cases hw⟩
  | append_singleton ts t ih =>
    rw [List.reverse_append, List.reverse_singleton, List.singleton_append] at h ⊢
    obtain ⟨hlast, hchain⟩ := List.isChain_cons.mp h
    obtain ⟨hcalls, hpending⟩ := ih hchain
    rw [List.foldl_append, List.foldl_cons, List.foldl_nil]
    generalize ts.foldl (CallScan.step self) {} = s at hcalls hpending
    unfold CallScan.step
    by_cases hprolongs : s.prolongs t = true
    · rw [if_pos hprolongs]
      exact ⟨hcalls, fun w hw => by cases hw⟩
    · rw [if_neg hprolongs]
      cases hlexeme : t.lexeme with
      | word chars =>
        refine ⟨hcalls, fun w hw => ⟨t, rfl, ?_⟩⟩
        dsimp only at hw
        split_ifs at hw
        rw [hlexeme, ← Option.some.inj hw, String.toList_ofList]
      | symbol c =>
        refine ⟨fun name hname => ?_, fun w hw => by cases hw⟩
        dsimp only at hname
        split_ifs at hname with hparen
        · rcases mem_calls_note hname with hname | ⟨hname, hself, hcall⟩
          · exact hcalls name hname
          · obtain ⟨u, hu, hword⟩ := hpending name hname
            have hmay := hlast u hu (by rw [hlexeme, beq_iff_eq.mp hparen]) _ hword
            rw [String.ofList_toList] at hmay
            exact ⟨hmay.resolve_right hcall, hself⟩
        · exact hcalls name hname

/-! ## Texts -/

/-- No comment has been opened, and the names before parentheses are allowed. -/
structure Lexer.Careful (l : Lexer) (names : List String) : Prop where
  mode : l.mode = .code ∨ ∃ start chars, l.mode = .word start chars
  calls : CallsOnly names l.close.found

/-- The lexer is between tokens, where a parenthesis may follow. -/
structure Lexer.Open (l : Lexer) (names : List String) : Prop where
  mode : l.mode = .code
  calls : CallsOnly names l.found
  last : ∀ t ∈ l.found.head?, MayCall names t.lexeme

def Utters (names : List String) (cs : List Char) : Prop :=
  ∀ l : Lexer, l.Open names → (l.run cs).Careful names

def Ended (names : List String) (cs : List Char) : Prop :=
  ∀ l : Lexer, l.Open names → (l.run cs).Open names

/-- A symbol of its own. -/
def isMark (c : Char) : Bool :=
  !isBlank c && !Identifier.isPart c && c != '/' && c != '#'

namespace Lexer

variable {l : Lexer} {c : Char}

theorem Open.careful (h : l.Open names) : l.Careful names :=
  ⟨Or.inl h.mode, by rw [close_of_code h.mode]; exact h.calls⟩

theorem Careful.endedBy (h : l.Careful names) (hc : Identifier.isPart c = false) :
    l.mode.EndedBy c := by
  rcases h.mode with hm | ⟨start, chars, hm⟩
  · rw [hm]
    trivial
  · rw [hm]
    exact hc

theorem Careful.close_mode (h : l.Careful names) : l.close.mode = .code := by
  rcases h.mode with hm | ⟨start, chars, hm⟩
  · rw [close_of_code hm, hm]
  · rw [close, hm]
    rfl

/-- A symbol behind the tokens that have been read. -/
theorem step_emits (hmode : l.mode = .code) (hblank : isBlank c = false)
    (hstart : Identifier.isStart c = false) (hslash : c ≠ '/') (hhash : c ≠ '#') :
    (l.step c).mode = .code ∧ (l.step c).found = .ofSymbol l.offset c :: l.found := by
  simp [step, read, hmode, begin, hblank, hslash, hhash, hstart, advance, emit, Token.ofSymbol]

theorem step_skips (hmode : l.mode = .code) (hblank : isBlank c = true) :
    (l.step c).mode = .code ∧ (l.step c).found = l.found := by
  simp [step, read, hmode, begin, hblank, advance]

end Lexer

variable {a b : List Char} {c : Char}

theorem Ended.append (ha : Ended names a) (hb : Ended names b) : Ended names (a ++ b) := by
  intro l hl
  rw [Lexer.run_append]
  exact hb _ (ha l hl)

theorem Ended.before (ha : Ended names a) (hb : Utters names b) : Utters names (a ++ b) := by
  intro l hl
  rw [Lexer.run_append]
  exact hb _ (ha l hl)

theorem Ended.utters (ha : Ended names a) : Utters names a := fun l hl => (ha l hl).careful

theorem ended_nil (names : List String) : Ended names [] := fun _ hl => hl

theorem ended_blank (names : List String) (hc : isBlank c = true) : Ended names [c] := by
  intro l hl
  obtain ⟨hmode, hfound⟩ := Lexer.step_skips hl.mode hc
  exact ⟨hmode, hfound ▸ hl.calls, hfound ▸ hl.last⟩

/-- A character that is a token where a token may begin. -/
theorem ended_symbol (names : List String) (hblank : isBlank c = false)
    (hstart : Identifier.isStart c = false) (hslash : c ≠ '/') (hhash : c ≠ '#') :
    Ended names [c] := by
  intro l hl
  obtain ⟨hmode, hfound⟩ := Lexer.step_emits hl.mode hblank hstart hslash hhash
  refine ⟨hmode, ?_, ?_⟩
  · show CallsOnly names (l.step c).found
    rw [hfound]
    exact List.isChain_cons.mpr ⟨fun t ht _ => hl.last t ht, hl.calls⟩
  · show ∀ t ∈ (l.step c).found.head?, _
    rw [hfound]
    rintro t ⟨⟩
    exact .symbol names c

/-- A word, before which a parenthesis may stand but not behind it. -/
theorem utters_word (names : List String) (hw : isIdentifier a = true) : Utters names a := by
  intro l hl
  have hrun : l.run a = l.pass a := run_word (Lexer.between_of_code hl.mode) hw
  have hgives := Lexer.Gives.word hl.mode hw
  refine ⟨Or.inr ⟨l.offset, a.reverse, ?_⟩, ?_⟩
  · rw [hrun, Lexer.pass, hl.mode]
    rfl
  · rw [hgives.found]
    exact hl.calls.cons (by simp)

/-- A symbol ends what is open, and is no call unless it is a parenthesis. -/
theorem Utters.mark (ha : Utters names a) (hc : isMark c = true) (hparen : c ≠ '(') :
    Ended names (a ++ [c]) := by
  intro l hl
  simp only [isMark, Bool.and_eq_true, Bool.not_eq_true', bne_iff_ne] at hc
  obtain ⟨⟨⟨hblank, hpart⟩, hslash⟩, hhash⟩ := hc
  have hcareful := ha l hl
  have hstart : Identifier.isStart c = false :=
    Bool.eq_false_iff.mpr fun h =>
      absurd (isPart_of_isStart h) (by rw [hpart]; exact Bool.noConfusion)
  obtain ⟨hmode, hfound⟩ := Lexer.step_emits hcareful.close_mode hblank hstart hslash hhash
  have hrun : l.run (a ++ [c]) = (l.run a).close.step c := by
    rw [Lexer.run_append]
    exact Lexer.step_of_ended (hcareful.endedBy hpart)
  rw [hrun]
  refine ⟨hmode, ?_, ?_⟩
  · rw [hfound]
    exact hcareful.calls.cons (by simpa [Token.ofSymbol] using hparen)
  · rw [hfound]
    rintro t ⟨⟩
    exact .symbol names c

theorem Utters.blank (ha : Utters names a) (hc : isBlank c = true) : Utters names (a ++ [c]) := by
  intro l hl
  have hcareful := ha l hl
  have hpart : Identifier.isPart c = false := by
    refine Bool.eq_false_iff.mpr fun hpart => ?_
    rw [(isPart_spec hpart).1] at hc
    cases hc
  obtain ⟨hmode, hfound⟩ := Lexer.step_skips hcareful.close_mode hc
  have hrun : l.run (a ++ [c]) = (l.run a).close.step c := by
    rw [Lexer.run_append]
    exact Lexer.step_of_ended (hcareful.endedBy hpart)
  rw [hrun]
  exact ⟨Or.inl hmode, by rw [Lexer.close_of_code hmode, hfound]; exact hcareful.calls⟩

/-- A word that may be called, and a blank or a parenthesis behind it. -/
theorem ended_callee (hw : isIdentifier a = true)
    (hmem : String.ofList a ∈ names ∨ String.ofList a ∈ notCalls) (hc : c = ' ' ∨ c = '(') :
    Ended names (a ++ [c]) := by
  intro l hl
  have hgives := Lexer.Gives.word hl.mode hw
  have hword : (l.run a).close.Open names := by
    refine ⟨hgives.mode, ((utters_word names hw) l hl).calls, ?_⟩
    rw [hgives.found]
    rintro t ⟨⟩ w hword
    cases hword
    exact hmem
  have hpart : Identifier.isPart c = false := by
    rcases hc with rfl | rfl
    · decide
    · decide
  have hrun : l.run (a ++ [c]) = (l.run a).close.run [c] := by
    rw [Lexer.run_append]
    exact Lexer.step_of_ended (((utters_word names hw) l hl).endedBy hpart)
  rw [hrun]
  rcases hc with rfl | rfl
  · exact ended_blank names (by decide) _ hword
  · exact ended_symbol names (by decide) (by decide) (by decide) (by decide) _ hword

/-- What stands in parentheses. -/
theorem Utters.paren (ha : Utters names a) : Ended names ('(' :: a ++ [')']) := by
  have hopen : Ended names ['('] :=
    ended_symbol names (by decide) (by decide) (by decide) (by decide)
  exact (hopen.before ha).mark (by decide) (by decide)

/-- Items with commas between them. -/
theorem Utters.list {items : List (List Char)} (ha : Utters names a)
    (hitems : ∀ item ∈ items, Utters names item) :
    Utters names (a ++ items.flatMap (',' :: ' ' :: ·)) := by
  induction items generalizing a with
  | nil =>
    rw [List.flatMap_nil, List.append_nil]
    exact ha
  | cons item items ih =>
    rw [List.forall_mem_cons] at hitems
    have hcomma : Ended names (a ++ [','] ++ [' ']) :=
      (ha.mark (by decide) (by decide)).append (ended_blank names (by decide))
    have hmore := ih (hcomma.before hitems.1) hitems.2
    simpa only [List.flatMap_cons, List.append_assoc, List.cons_append, List.nil_append] using hmore

/-- A word that may be called, with arguments in parentheses. -/
theorem Utters.applied (ha : Utters names a) {w : List Char} (hw : isIdentifier w = true)
    (hmem : String.ofList w ∈ names ∨ String.ofList w ∈ notCalls) :
    Ended names (w ++ '(' :: a ++ [')']) := by
  have hcall :=
    ((ended_callee hw hmem (Or.inr rfl)).before ha).mark (c := ')') (by decide) (by decide)
  simpa only [List.append_assoc, List.cons_append, List.nil_append] using hcall

/-- The tokens of a whole text. -/
theorem Utters.tokens {text : String} (h : Utters names text.toList) :
    CallsOnly names (tokens text).reverse := by
  have hstart : Lexer.Open {} names := ⟨rfl, .nil, fun t ht => by cases ht⟩
  rw [Glsl.tokens, Lexer.finish, List.reverse_reverse]
  exact (h _ hstart).calls

end Texel.Glsl
