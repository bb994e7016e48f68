import Texel.Proofs.Glsl.Lexing
import Texel.Proofs.Glsl.Library

/-!
# Texel — definitions cut out of a text

The text of a definition reaches from its first word to its closing brace. Cut out of its library
and scanned alone, it is the same one function again: its first word begins a token and its brace
ends one, so the tokens between them are those of the piece, at other positions.

* **`Lexer.placed_of_finish`** — where the words and braces of a text begin and end.
* **`Reader.traced`** — which tokens a definition is made of.
* **`exists_piece`**, **`exists_definitionText?`** — every definition has a text, and what is
  scanned of it.
* **`functionsIn_excerpt`** — the function in its text, and its place in the library.
* **`exists_function_of_mem_entries`** — so entries say of a function what their text says.
-/

namespace Texel.Glsl

open Text Correspondence

/-- The last item of a list that is split somewhere. -/
theorem concat_eq_split {α : Type} {init before after : List α} {last x : α}
    (h : init ++ [last] = before ++ x :: after) :
    (after = [] ∧ init = before ∧ last = x) ∨
      ∃ rest, after = rest ++ [last] ∧ init = before ++ x :: rest := by
  rcases List.eq_nil_or_concat after with rfl | ⟨rest, z, rfl⟩
  · obtain ⟨hinit, hlast⟩ := List.append_inj' h rfl
    exact Or.inl ⟨rfl, hinit, List.singleton_inj.mp hlast⟩
  · have hsplit : init ++ [last] = (before ++ x :: rest) ++ [z] := by
      rw [h]
      simp
    obtain ⟨hinit, hlast⟩ := List.append_inj' hsplit rfl
    exact Or.inr ⟨rest, by rw [List.singleton_inj.mp hlast]; simp, hinit⟩

/-! ## What a character does to the tokens -/

namespace Lexer

/-- How the tokens change with a character. A slash that opens a comment takes its token back. -/
inductive Takes (l : Lexer) (c : Char) : Prop
  | nothing (h : (l.step c).finish = l.finish)
  | comment (t : Token) (h : l.finish = (l.step c).finish ++ [t])
  | longer (before : List Token) (start : Nat) (w : List Char)
    (h : l.finish = before ++ [⟨.word w, ⟨start, l.offset⟩⟩])
    (h' : (l.step c).finish =
      before ++ [⟨.word (w ++ [c]), ⟨start, l.offset + c.utf8Size⟩⟩])
  | word (hc : Identifier.isStart c = true)
    (h : l.step c = ⟨.word l.offset [c], l.offset + c.utf8Size, false, l.finish.reverse⟩)
  | symbol (h : l.step c =
      ⟨.code, l.offset + c.utf8Size, false, .ofSymbol l.offset c :: l.finish.reverse⟩)
  | slash (hc : c = '/') (h : (l.step c).finish = l.finish ++ [.ofSymbol l.offset c])

theorem reverse_finish (l : Lexer) : l.finish.reverse = l.close.found := List.reverse_reverse _

/-- A character between tokens. -/
theorem takes_of_begin {l : Lexer} {c : Char} (hstep : l.step c = (l.close.begin c).advance c) :
    l.Takes c := by
  have hoffset := offset_close l
  unfold begin at hstep
  rw [hoffset] at hstep
  split_ifs at hstep with hblank hslash hline hstart
  · refine .nothing ?_
    rw [hstep]
    rfl
  · obtain rfl := beq_iff_eq.mp hslash
    refine .slash rfl ?_
    rw [hstep, finish, finish]
    show (_ :: l.close.found).reverse = _
    rw [List.reverse_cons]
    rfl
  · refine .nothing ?_
    rw [hstep]
    rfl
  · refine .word hstart ?_
    rw [hstep, reverse_finish]
    simp [advance, isPart_spec (isPart_of_isStart hstart)]
  · have hline : (c == '\n') = false := by
      refine beq_eq_false_iff_ne.mpr ?_
      rintro rfl
      exact hblank rfl
    refine .symbol ?_
    rw [hstep, reverse_finish]
    simp [advance, emit, hblank, hline, hoffset, Token.ofSymbol]

theorem takes (l : Lexer) (c : Char) : l.Takes c := by
  cases hm : l.mode with
  | code =>
    refine takes_of_begin ?_
    rw [close_of_code hm, step, read, hm]
  | word start chars =>
    by_cases hc : Identifier.isPart c = true
    · have hread : l.read c = { l with mode := .word start (c :: chars) } := by
        simp [read, hm, hc]
      refine .longer l.found.reverse start chars.reverse ?_ ?_
      · simp [finish, close, hm, emit]
      · rw [step, hread]
        simp [finish, close, emit, advance]
    · refine takes_of_begin ?_
      simp [step, read, hm, hc]
  | slash start =>
    have hfinish : l.finish = l.found.reverse ++ [⟨.symbol '/', ⟨start, l.offset⟩⟩] := by
      simp [finish, close, hm, emit]
    by_cases hc : c = '/' ∨ c = '*'
    · refine .comment ⟨.symbol '/', ⟨start, l.offset⟩⟩ ?_
      rw [hfinish]
      rcases hc with rfl | rfl <;> simp [step, read, hm, finish, close, advance]
    · rw [not_or] at hc
      refine takes_of_begin ?_
      simp [step, read, hm, hc]
  | line =>
    refine .nothing ?_
    by_cases hc : c = '\n' <;> simp [step, read, hm, hc, finish, close, advance]
  | block =>
    refine .nothing ?_
    by_cases hc : c = '*' <;> simp [step, read, hm, hc, finish, close, advance]
  | star =>
    refine .nothing ?_
    by_cases hslash : c = '/'
    · simp [step, read, hm, hslash, finish, close, advance]
    · by_cases hstar : c = '*' <;> simp [step, read, hm, hslash, hstar, finish, close, advance]

/-! ## Where tokens begin and end -/

theorem run_concat (l : Lexer) (cs : List Char) (c : Char) :
    l.run (cs ++ [c]) = (l.run cs).step c :=
  run_append l cs [c]

/-- A word at the start of a text. -/
theorem run_start {c : Char} (hc : Identifier.isStart c = true) :
    run {} [c] = ⟨.word 0 [c], c.utf8Size, false, []⟩ := by
  have hplain := isPart_spec (isPart_of_isStart hc)
  simp [run, step, read, begin, advance, hc, hplain]

end Lexer

/-- A word or an opening brace, which are read anywhere as at the start of a text. -/
def Token.Leads (t : Token) : Prop := (∃ w, t.lexeme = .word w) ∨ t.lexeme = .symbol '\x7b'

namespace Lexer

/-- Where a token stands in a text: before a word or an opening brace, the earlier text has become
the earlier tokens; behind a closing brace too, and nothing is left open. -/
structure Placed (cs : List Char) (before : List Token) (t : Token) : Prop where
  lead : t.Leads → ∃ a c b, cs = a ++ c :: b ∧ byteSize a = t.span.start ∧
    (Correspondence.shift (byteSize a)).LexerMeets before.reverse (run {} [c]) (run {} (a ++ [c]))
  brace : t.lexeme = .symbol '\x7d' → ∃ a b, cs = a ++ b ∧ byteSize a = t.span.stop ∧
    (run {} a).mode = .code ∧ (run {} a).found = t :: before.reverse

theorem Placed.append {cs : List Char} {before : List Token} {t : Token} (h : Placed cs before t)
    (more : List Char) : Placed (cs ++ more) before t where
  lead hlead := by
    obtain ⟨a, c, b, hcs, hplace⟩ := h.lead hlead
    exact ⟨a, c, b ++ more, by rw [hcs]; simp, hplace⟩
  brace hbrace := by
    obtain ⟨a, b, hcs, hplace⟩ := h.brace hbrace
    exact ⟨a, b ++ more, by rw [hcs]; simp, hplace⟩

/-- **Tokens** stand where their spans say. -/
theorem placed_of_finish {cs : List Char} {before after : List Token} {t : Token}
    (h : (run {} cs).finish = before ++ t :: after) : Placed cs before t := by
  -- characters are taken from the left, so the induction is on the last one
  induction cs using List.reverseRecOn generalizing before after t with
  | nil => cases before <;> cases h
  | append_singleton cs c ih =>
    have hoffset : (run {} cs).offset = byteSize cs := (offset_run {} cs).trans (Nat.zero_add _)
    rw [run_concat] at h
    cases takes (run {} cs) c with
    | nothing hsame => exact (ih (hsame ▸ h)).append [c]
    | comment s hfinish =>
      rw [h, List.append_assoc, List.cons_append] at hfinish
      exact (ih hfinish).append [c]
    | longer earlier start w hfinish hfinish' =>
      rw [hfinish'] at h
      rcases concat_eq_split h with ⟨-, rfl, rfl⟩ | ⟨rest, -, rfl⟩
      · -- the word was shorter before, but began at the same place
        have hplaced := (ih hfinish).append [c]
        exact ⟨fun _ => hplaced.lead (.inl ⟨w, rfl⟩), fun hbrace => Lexeme.noConfusion hbrace⟩
      · rw [List.append_assoc, List.cons_append] at hfinish
        exact (ih hfinish).append [c]
    | word hc hstep =>
      have hfinish : ((run {} cs).step c).finish = (run {} cs).finish ++
          [⟨.word [c], ⟨(run {} cs).offset, (run {} cs).offset + c.utf8Size⟩⟩] := by
        rw [hstep]
        simp [finish, close, emit]
      rw [hfinish] at h
      rcases concat_eq_split h with ⟨-, hbefore, rfl⟩ | ⟨rest, -, hrest⟩
      · refine ⟨fun _ => ⟨cs, c, [], rfl, hoffset.symm, ?_⟩, fun hbrace =>
          Lexeme.noConfusion hbrace⟩
        rw [run_concat, hstep, hoffset, hbefore, run_start hc]
        exact ⟨.word (Nat.zero_add _).symm rfl, Nat.add_comm _ _, rfl, [], rfl, .nil⟩
      · exact (ih hrest).append [c]
    | symbol hstep =>
      have hfinish : ((run {} cs).step c).finish =
          (run {} cs).finish ++ [.ofSymbol (run {} cs).offset c] := by
        rw [hstep]
        simp [finish, close]
      rw [hfinish] at h
      rcases concat_eq_split h with ⟨-, hbefore, rfl⟩ | ⟨rest, -, hrest⟩
      · refine ⟨fun hlead => ⟨cs, c, [], rfl, hoffset.symm, ?_⟩,
          fun hbrace => ⟨cs ++ [c], [], (List.append_nil _).symm, ?_, ?_, ?_⟩⟩
        · have hc : c = '\x7b' := by simpa [Token.Leads, Token.ofSymbol] using hlead
          subst hc
          rw [run_concat, hstep, hoffset, hbefore]
          exact ⟨.code, Nat.add_comm _ _, rfl, [_], rfl,
            .cons ⟨rfl, (Nat.zero_add _).symm, Nat.add_comm _ _⟩ .nil⟩
        · rw [byteSize_append, byteSize_singleton, ← hoffset, Token.ofSymbol]
        · rw [run_concat, hstep]
        · rw [run_concat, hstep, hbefore]
      · exact (ih hrest).append [c]
    | slash hc hfinish =>
      rw [hfinish] at h
      rcases concat_eq_split h with ⟨-, -, rfl⟩ | ⟨rest, -, hrest⟩
      · subst hc
        refine ⟨fun hlead => ?_, fun hbrace => ?_⟩
        · simp [Token.Leads, Token.ofSymbol] at hlead
        · exact absurd (Lexeme.symbol.inj hbrace) (by decide)
      · exact (ih hrest).append [c]

theorem found_close (l : Lexer) : l.found <:+ l.close.found := by
  unfold close
  split
  · exact List.suffix_cons _ _
  · exact List.suffix_cons _ _
  · exact List.suffix_rfl

theorem found_begin (l : Lexer) (c : Char) : l.found <:+ (l.begin c).found := by
  unfold begin
  split_ifs
  · exact List.suffix_rfl
  · exact List.suffix_rfl
  · exact List.suffix_rfl
  · exact List.suffix_rfl
  · exact List.suffix_cons _ _

theorem found_step (l : Lexer) (c : Char) : l.found <:+ (l.step c).found := by
  have hclosed : l.found <:+ (l.close.begin c).found :=
    (found_close l).trans (found_begin l.close c)
  show l.found <:+ (l.read c).found
  unfold read
  split
  · exact found_begin l c
  · split_ifs
    · exact List.suffix_rfl
    · exact hclosed
  · split_ifs
    · exact List.suffix_rfl
    · exact List.suffix_rfl
    · exact hclosed
  · split_ifs <;> exact List.suffix_rfl
  · split_ifs <;> exact List.suffix_rfl
  · split_ifs <;> exact List.suffix_rfl

/-- Tokens that have been found stay. -/
theorem found_run (l : Lexer) (cs : List Char) : l.found <:+ (l.run cs).found := by
  induction cs generalizing l with
  | nil => exact List.suffix_rfl
  | cons c cs ih => exact (found_step l c).trans (ih (l.step c))

theorem length_found_start (c : Char) : (run {} [c]).found.length ≤ 1 := by
  show (begin {} c).found.length ≤ 1
  unfold begin
  split_ifs <;> simp [emit]

/-- Reading from a word or an opening brace is reading from the start of a text. -/
theorem meets_of_lead {a : List Char} {c : Char} {before : List Token}
    (h : (Correspondence.shift (byteSize a)).LexerMeets before.reverse (run {} [c])
      (run {} (a ++ [c]))) (rest : List Char) :
    (Correspondence.shift (byteSize a)).LexerMeets before.reverse (run {} (c :: rest))
      (run {} (a ++ c :: rest)) := by
  have hsplit : a ++ c :: rest = (a ++ [c]) ++ rest := by simp
  rw [hsplit, run_append, ← List.singleton_append, run_append]
  exact run_shift h rest

end Lexer

/-! ## Pieces that end with a brace -/

theorem slice?_middle (a x b : List Char) :
    slice? (String.ofList (a ++ x ++ b)) ⟨byteSize a, byteSize (a ++ x)⟩ =
    some (String.ofList x) := by
  have hdrop : dropBytes? (byteSize a) (a ++ (x ++ b)) = some (x ++ b) := by
    have hall := dropBytes?_append a (x ++ b) 0
    rw [Nat.add_zero] at hall
    rw [hall, dropBytes?]
  have htake : takeBytes? (byteSize x) (x ++ b) = some x :=
    takeBytes?_append_right b (takeBytes?_byteSize x)
  have hsize : byteSize (a ++ x) - byteSize a = byteSize x := by
    rw [byteSize_append]
    omega
  have hle : byteSize a ≤ byteSize (a ++ x) := by
    rw [byteSize_append]
    omega
  simp [slice?, hle, hdrop, hsize, htake]

/-- **Pieces.** The text from a word or an opening brace to a closing brace has the tokens between
them. -/
theorem exists_slice? {source : String} {before ts after : List Token} {first last : Token}
    (h : tokens source = before ++ (first :: ts) ++ last :: after) (hfirst : first.Leads)
    (hlast : last.lexeme = .symbol '\x7d') :
    ∃ text, slice? source ⟨first.span.start, last.span.stop⟩ = some text ∧
      (Lexer.run {} text.toList).mode = .code ∧
      List.Forall₂ (Correspondence.shift first.span.start).TokenMeets (tokens text)
        (first :: ts ++ [last]) := by
  have hhead : (Lexer.run {} source.toList).finish = before ++ first :: (ts ++ last :: after) := by
    rw [show (Lexer.run {} source.toList).finish = tokens source from rfl, h]
    simp
  obtain ⟨a, c, b, hsource, hstart, hlead⟩ := (Lexer.placed_of_finish hhead).lead hfirst
  obtain ⟨a', b', hsource', hstop, hmode, hfound⟩ := (Lexer.placed_of_finish h).brace hlast
  have hcount : (Lexer.run {} (a ++ [c])).found.length ≤ before.length + 1 := by
    obtain ⟨later, hlater, hall⟩ := hlead.found
    have hone := Lexer.length_found_start c
    rw [hlater, List.length_append, List.length_reverse, ← hall.length_eq]
    omega
  -- the brace comes after the first token, since more tokens have been found there
  obtain ⟨x, rfl⟩ : ∃ x, a' = a ++ c :: x := by
    rcases List.append_eq_append_iff.mp (hsource.symm.trans hsource') with
      ⟨x, hx, hrest⟩ | ⟨x, hx, -⟩
    · cases x with
      | nil =>
        have hfew := (Lexer.found_run (Lexer.run {} a) [c]).length_le
        rw [← Lexer.run_append, ← (show a' = a by rw [hx, List.append_nil]), hfound] at hfew
        rw [← (show a' = a by rw [hx, List.append_nil])] at hcount
        simp at hfew
        omega
      | cons d x =>
        obtain ⟨rfl, -⟩ := List.cons.inj hrest
        exact ⟨x, hx⟩
    · have hfew := (Lexer.found_run (Lexer.run {} a') (x ++ [c])).length_le
      rw [← Lexer.run_append, ← List.append_assoc, ← hx, hfound] at hfew
      simp at hfew
      omega
  have hmeets := Lexer.meets_of_lead hlead x
  have hclosed : (Lexer.run {} (c :: x)).mode = .code := by
    have hmodes := hmeets.mode
    rw [hmode] at hmodes
    generalize (Lexer.run {} (c :: x)).mode = m at hmodes
    cases hmodes
    rfl
  refine ⟨String.ofList (c :: x), ?_, ?_, ?_⟩
  · rw [← hstart, ← hstop, ← slice?_middle a (c :: x) b', ← hsource', String.ofList_toList]
  · rw [String.toList_ofList, hclosed]
  · obtain ⟨later, hlater, hall⟩ := hmeets.found
    have hts : later = (first :: ts ++ [last]).reverse := by
      refine List.append_cancel_right (hlater.symm.trans (hfound.trans ?_))
      simp
    have htokens : tokens (String.ofList (c :: x)) = (Lexer.run {} (c :: x)).found.reverse := by
      rw [tokens, String.toList_ofList, Lexer.finish, Lexer.close_of_code hclosed]
    rw [htokens, ← hstart, ← List.reverse_reverse (first :: ts ++ [last]), ← hts]
    exact List.rel_reverse hall

/-! ## The tokens of a definition -/

namespace Reader

/-- The tokens end with some that begin with the return type of a head and lead from the outside to
the stage. -/
def Opened (ts : List Token) (stage : Stage) (head : Head) : Prop :=
  ∃ (before : List Token) (first : Token) (rest : List Token) (w : List Char),
    ts = before ++ first :: rest ∧ first.lexeme = .word w ∧
    head.returnType = String.ofList w ∧ head.start = first.span.start ∧
    (first :: rest).foldl step {} = ⟨stage, []⟩

theorem Opened.step {ts : List Token} {stage stage' : Stage} {head : Head} {t : Token}
    (h : Opened ts stage head) (hstep : Reader.step ⟨stage, []⟩ t = ⟨stage', []⟩) :
    Opened (ts ++ [t]) stage' head := by
  obtain ⟨before, first, rest, w, rfl, hfirst, hreturn, hstart, hfold⟩ := h
  refine ⟨before, first, rest ++ [t], w, by simp, hfirst, hreturn, hstart, ?_⟩
  rw [← List.cons_append, List.foldl_append, hfold]
  exact hstep

/-- What led to a stage. -/
def Traced (ts : List Token) : Stage → Prop
  | .outside | .block _ => True
  | .type word start => ∃ before t w, ts = before ++ [t] ∧ t.lexeme = .word w ∧
      word = String.ofList w ∧ start = t.span.start
  | .name head second => ∃ before t u w v, ts = before ++ [t, u] ∧ t.lexeme = .word w ∧
      u.lexeme = .word v ∧ head = ⟨String.ofList w, String.ofList v, t.span.start⟩ ∧
      second = u.span.start
  | .parameters head groups words => Opened ts (.parameters head groups words) head
  | .closed head groups => Opened ts (.closed head groups) head
  | .body head groups start depth tokens =>
      0 < depth ∧ Opened ts (.body head groups start depth tokens) head

variable {ts : List Token}

theorem traced_outsideStep (ts : List Token) (t : Token) : Traced (ts ++ [t]) (outsideStep t) := by
  unfold outsideStep
  split
  · next w hw => exact ⟨ts, t, w, rfl, hw, rfl, rfl⟩
  · trivial
  · trivial

theorem traced_typeStep {before : List Token} {u t : Token} {w : List Char}
    (hu : u.lexeme = .word w) :
    Traced (before ++ [u] ++ [t]) (typeStep (String.ofList w) u.span.start t) := by
  unfold typeStep
  split
  · next v hv => exact ⟨before, u, t, w, v, by simp, hu, hv, rfl, rfl⟩
  · exact traced_outsideStep _ t

theorem traced_parametersStep {head : Head} {groups : List (List String)} {words : List String}
    (h : Opened ts (.parameters head groups words) head) (t : Token) :
    Traced (ts ++ [t]) (parametersStep head groups words t) := by
  have hnext : Opened (ts ++ [t]) (parametersStep head groups words t) head := h.step rfl
  unfold parametersStep at hnext ⊢
  split at hnext
  · exact hnext
  · exact hnext
  · exact hnext
  · exact traced_outsideStep ts t

theorem traced_closedStep {head : Head} {groups : List (List String)}
    (h : Opened ts (.closed head groups) head) (t : Token) :
    Traced (ts ++ [t]) (closedStep head groups t) := by
  have hnext : Opened (ts ++ [t]) (closedStep head groups t) head := h.step rfl
  unfold closedStep at hnext ⊢
  split at hnext
  · exact ⟨Nat.one_pos, hnext⟩
  · trivial
  · exact traced_outsideStep ts t

/-- The tokens of a definition among others: from its return type to the brace that ends it. -/
def Defined (ts : List Token) (f : Function) : Prop :=
  ∃ (before : List Token) (first : Token) (middle : List Token) (last : Token)
    (after : List Token) (w : List Char), ts = before ++ (first :: middle) ++ last :: after ∧
    first.lexeme = .word w ∧ last.lexeme = .symbol '\x7d' ∧ f.returnType = String.ofList w ∧
    f.definition = ⟨first.span.start, last.span.stop⟩ ∧
    (first :: middle ++ [last]).foldl step {} = ⟨.outside, [f]⟩

theorem Defined.append {f : Function} (h : Defined ts f) (more : List Token) :
    Defined (ts ++ more) f := by
  obtain ⟨before, first, middle, last, after, w, rfl, hrest⟩ := h
  exact ⟨before, first, middle, last, after ++ more, w, by simp, hrest⟩

/-- A body that ends. Only a closing brace can make the number of open braces zero. -/
theorem Opened.defined {head : Head} {groups : List (List String)} {start depth : Nat}
    {tokens : List Token} {t : Token} (hdepth : 0 < depth)
    (h : Opened ts (.body head groups start depth tokens) head)
    (hend : depthAfter depth t = 0) :
    Defined (ts ++ [t]) (function head groups start t.span.stop (t :: tokens).reverse) := by
  obtain ⟨before, first, rest, w, rfl, hfirst, hreturn, hstart, hfold⟩ := h
  have hbrace : t.lexeme = .symbol '\x7d' := by
    unfold depthAfter at hend
    split at hend
    · omega
    · assumption
    · omega
  refine ⟨before, first, rest, t, [], w, by simp, hfirst, hbrace, hreturn, ?_, ?_⟩
  · rw [← hstart]
    rfl
  · rw [List.foldl_append, hfold]
    simp [Reader.step, hend]

/-- **Definitions** are made of the tokens between their ends. -/
theorem traced (ts : List Token) :
    Traced ts (ts.foldl step {}).stage ∧ ∀ f ∈ (ts.foldl step {}).found, Defined ts f := by
  induction ts using List.reverseRecOn with
  | nil => exact ⟨trivial, fun f hf => absurd hf List.not_mem_nil⟩
  | append_singleton ts t ih =>
    obtain ⟨hstage, hfound⟩ := ih
    rw [List.foldl_append, List.foldl_cons, List.foldl_nil]
    generalize ts.foldl step {} = r at hstage hfound
    obtain ⟨stage, found⟩ := r
    have hkept : ∀ f ∈ found, Defined (ts ++ [t]) f := fun f hf => (hfound f hf).append [t]
    cases stage with
    | outside => exact ⟨traced_outsideStep ts t, hkept⟩
    | type word start =>
      obtain ⟨before, u, w, rfl, hu, rfl, rfl⟩ := hstage
      exact ⟨traced_typeStep hu, hkept⟩
    | name head second =>
      obtain ⟨before, u, v, w, x, rfl, hu, hv, rfl, rfl⟩ := hstage
      unfold step
      dsimp only
      split_ifs with hopen
      · have hlexeme : t.lexeme = .symbol '(' := by simpa [Token.isSymbol] using hopen
        refine ⟨⟨before, u, [v, t], w, by simp, hu, rfl, rfl, ?_⟩, hkept⟩
        simp [step, outsideStep, typeStep, hu, hv, hopen]
      · have hsplit : before ++ [u, v] ++ [t] = (before ++ [u]) ++ [v] ++ [t] := by simp
        refine ⟨?_, hkept⟩
        rw [hsplit]
        exact traced_typeStep hv
    | parameters head groups words => exact ⟨traced_parametersStep hstage t, hkept⟩
    | closed head groups => exact ⟨traced_closedStep hstage t, hkept⟩
    | body head groups start depth tokens =>
      obtain ⟨hdepth, hopened⟩ := hstage
      unfold step
      dsimp only
      split_ifs with hend
      · refine ⟨trivial, fun f hf => ?_⟩
        rcases List.mem_cons.mp hf with rfl | hf
        · exact hopened.defined hdepth hend
        · exact hkept f hf
      · refine ⟨⟨Nat.pos_of_ne_zero hend, hopened.step ?_⟩, hkept⟩
        simp [step, hend]
    | block depth =>
      unfold step
      dsimp only
      split_ifs
      · exact ⟨trivial, hkept⟩
      · exact ⟨trivial, hkept⟩

end Reader

/-! ## Definitions in their library -/

/-- **Definitions** can be cut out. Reading the piece ends outside of everything again, with the
same function found. -/
theorem exists_piece {library : String} {f : Function} (h : f ∈ functionsIn library) :
    ∃ text f₀, f.definitionText? library = some text ∧ (Lexer.run {} text.toList).mode = .code ∧
      (tokens text).foldl Reader.step {} = ⟨.outside, [f₀]⟩ ∧
      (Correspondence.shift f.definition.start).FunctionMeets f₀ f := by
  obtain ⟨before, first, middle, last, after, w, htokens, hfirst, hlast, -, hspan, hfold⟩ :=
    (Reader.traced (tokens library)).2 f (List.mem_reverse.mp h)
  obtain ⟨text, htext, hmode, hmeets⟩ := exists_slice? htokens (.inl ⟨w, hfirst⟩) hlast
  have hstart : f.definition.start = first.span.start := by rw [hspan]
  -- from the outside, the tokens of the piece give what those of the library give
  have hread : (Correspondence.shift first.span.start).ReaderMeets []
      ((tokens text).foldl Reader.step {}) ⟨.outside, [f]⟩ := by
    rw [← hfold]
    exact functions_meet hmeets ⟨.outside, [], rfl, .nil⟩
  refine ⟨text, ?_⟩
  generalize (tokens text).foldl Reader.step {} = r at hread ⊢
  obtain ⟨stage, found⟩ := r
  obtain ⟨hstage, later, hlater, hfunctions⟩ := hread
  rw [List.append_nil] at hlater
  rw [← show [f] = later from hlater] at hfunctions
  cases hstage
  cases hfunctions with
  | cons hhead htail =>
    cases htail
    refine ⟨_, ?_, hmode, rfl, hstart ▸ hhead⟩
    rw [Function.definitionText?, hspan, htext]

/-- What is cut out is scanned as before. -/
theorem exists_definitionText? {library : String} {f : Function} (h : f ∈ functionsIn library) :
    ∃ text f₀, f.definitionText? library = some text ∧ functionsIn text = [f₀] ∧
      (Correspondence.shift f.definition.start).FunctionMeets f₀ f := by
  obtain ⟨text, f₀, htext, -, hread, hmeets⟩ := exists_piece h
  refine ⟨text, f₀, htext, ?_, hmeets⟩
  rw [functionsIn, hread, List.reverse_singleton]

/-- **Excerpts.** The text of a definition holds this one function, and no other. Only the place is
another one: in the library, everything stands behind the start of the definition. -/
theorem functionsIn_excerpt {library : String} {f : Function}
    (h : f ∈ functionsIn library) :
    ∃ text f₀, f.definitionText? library = some text ∧ functionsIn text = [f₀] ∧
      f = f₀.move (· + f.definition.start) := by
  obtain ⟨text, f₀, htext, hfunctions, hmeets⟩ := exists_definitionText? h
  exact ⟨text, f₀, htext, hfunctions, eq_move_of_shift hmeets⟩

/-- A definition behind a directive, a number and a comment that would hold one itself. -/
def crammed : String :=
  "#é \x7b\n1/*int g()\x7b\x7d*/void f(in vec2 a)\x7b\n#\x7d\nh(a.x/*\x7d*/);\x7d"

def crammedFunction : Function where
  name := "f"
  returnType := "void"
  groups := [["in", "vec2", "a"]]
  definition := ⟨20, 55⟩
  body := ⟨37, 55⟩
  calls := ["h"]

theorem crammed_excerpt : crammedFunction ∈ functionsIn crammed ∧
    ∃ text f₀, crammedFunction.definitionText? crammed = some text ∧ functionsIn text = [f₀] ∧
      crammedFunction = f₀.move (· + crammedFunction.definition.start) :=
  have hmem : crammedFunction ∈ functionsIn crammed := by decide +kernel
  ⟨hmem, functionsIn_excerpt hmem⟩

theorem isSome_definitionText? {library : String} {f : Function} (h : f ∈ functionsIn library) :
    (f.definitionText? library).isSome := by
  obtain ⟨text, _, htext, _⟩ := exists_definitionText? h
  rw [htext]
  rfl

theorem Settled.complete {library : String} (h : Settled library) : Complete library :=
  ⟨h, fun _ hf => isSome_definitionText? hf⟩

/-- **Entries** say of a function what can be read from its text. -/
theorem exists_function_of_mem_entries {library : String} {e : Entry} (h : e ∈ entries library) :
    ∃ f, functionsIn e.text = [f] ∧ f.heading = e.toHeading := by
  obtain ⟨f, hf, hentry⟩ := List.mem_filterMap.mp h
  obtain ⟨text, f₀, htext, hfunctions, hmeets⟩ := exists_definitionText? hf
  rw [Function.entryIn?, htext, Option.map_some, Option.some.injEq] at hentry
  rw [← hentry, eq_move_of_shift hmeets]
  exact ⟨f₀, hfunctions, rfl⟩

/-- Looking up a function is looking up its entry, in every library. -/
theorem find?_entries (library name : String) :
    Entry.find? (entries library) name =
      (find? (functionsIn library) name).bind (·.entryIn? library) := by
  rw [Entry.find?, entries, ← List.filterMap_reverse, find?]
  exact find?_filterMap_entryIn? name fun f hf => isSome_definitionText? (List.mem_reverse.mp hf)

/-! ## Texts that end a line -/

namespace Lexer

/-- The end of a line ends what is being read, unless it is a block comment. -/
theorem close_newline (l : Lexer) : (l.step '\n').close = l.step '\n' := by
  cases hm : l.mode <;>
    simp [step, read, begin, hm, isBlank, close, emit, advance, Identifier.isPart]

theorem finish_newline (l : Lexer) : (l.step '\n').finish = l.finish := by
  rw [finish, close_newline]
  cases hm : l.mode <;>
    simp [step, read, begin, hm, isBlank, finish, close, emit, advance, Identifier.isPart]

/-- Between two tokens, the end of a line begins a line. -/
theorem mode_newline {l : Lexer} (h : l.mode = .code) :
    (l.step '\n').mode = .code ∧ (l.step '\n').fresh = true := by
  simp [step, read, begin, h, isBlank, advance]

end Lexer

theorem toList_append_newline (s : String) : (s ++ "\n").toList = s.toList ++ ['\n'] :=
  String.toList_append ..

theorem tokens_newline (s : String) : tokens (s ++ "\n") = tokens s := by
  rw [tokens, toList_append_newline, Lexer.run_concat, Lexer.finish_newline, tokens]

theorem functionsIn_newline (s : String) : functionsIn (s ++ "\n") = functionsIn s := by
  rw [functionsIn, tokens_newline, functionsIn]

/-- The end of a line settles a text that is in order otherwise. -/
theorem settled_newline {s : String} (hmode : (Lexer.run {} s.toList).mode = .code)
    (houtside : ((tokens s).foldl Reader.step {}).stage = .outside) : Settled (s ++ "\n") := by
  have hrun : Lexer.run {} (s ++ "\n").toList = (Lexer.run {} s.toList).step '\n' := by
    rw [toList_append_newline, Lexer.run_concat]
  have hend := Lexer.mode_newline hmode
  exact ⟨hrun ▸ hend.1, hrun ▸ hend.2, (tokens_newline s).symm ▸ houtside⟩

theorem entries_newline (s : String) : entries (s ++ "\n") = entries s := by
  rw [entries, functionsIn_newline, entries]
  exact List.filterMap_congr fun f hf => entryIn?_append (isSome_definitionText? hf)

end Texel.Glsl
