import Texel.Proofs.Glsl.Lexing

/-!
# Texel — what is written is found

The tokens of a definition take the reader from outside of every definition through its head and its
body to the outside again, where the function has been added. Nothing of the definition stays behind
(`Lexer.Ready`), so the one after it is read in the same way, and a text of the grammar is read by
induction over its definitions.

* **`Collects`** — the words that a part of a parameter list comes to.
* **`Reader.read_matched`** — matching braces leave the depth of a body as it is.
* **`Library.functionsIn_text`** — the functions of a text are the definitions it is written from.
-/

namespace Texel.Glsl

open Text Correspondence

/-! ## Reading the tokens -/

namespace Grammar

variable {head : Head} {functions : List Function}

theorem tokensFrom_append (offset : Nat) (a b : List Element) :
    tokensFrom offset (a ++ b) = tokensFrom offset a ++
    tokensFrom (offset + byteSize (charsOf a)) b := by
  induction a generalizing offset with
  | nil => rfl
  | cons e a ih =>
    have hsize : byteSize (charsOf (e :: a)) = byteSize e.chars + byteSize (charsOf a) :=
      byteSize_append e.chars (charsOf a)
    rw [List.cons_append, tokensFrom, ih, tokensFrom, List.append_assoc, hsize, Nat.add_assoc]

theorem tokensFrom_gap (offset : Nat) (gap : Gap) (es : List Element) :
    tokensFrom offset (gap.elements ++ es) =
      tokensFrom (offset + byteSize (charsOf gap.elements)) es := by
  have hnone : ∀ offset, tokensFrom offset gap.elements = [] := by
    induction gap with
    | nil => exact fun _ => rfl
    | cons f gap ih => exact fun _ => ih _
  rw [tokensFrom_append, hnone, List.nil_append]

/-- In a parameter list, the elements come to these words. -/
def Collects (es : List Element) (collected : List String) : Prop :=
  ∀ (head : Head) (functions : List Function) (offset : Nat) (groups : List (List String))
    (words : List String),
    (tokensFrom offset es).foldl Reader.step ⟨.parameters head groups words, functions⟩ =
      ⟨.parameters head groups (words ++ collected), functions⟩

theorem Collects.append {a b : List Element} {ws us : List String} (ha : Collects a ws)
    (hb : Collects b us) : Collects (a ++ b) (ws ++ us) := by
  intro head functions offset groups words
  rw [tokensFrom_append, List.foldl_append, ha, hb, List.append_assoc]

theorem collects_word (w : Word) : Collects [.word w] [w.text] := fun _ _ _ _ _ => rfl

theorem collects_gap (gap : Gap) : Collects gap.elements [] := by
  intro head functions offset groups words
  rw [← List.append_nil gap.elements, tokensFrom_gap, List.append_nil]
  rfl

def Group.words (g : Group) : List String :=
  g.qualifiers.map (·.1.text) ++ [g.type.text, g.name.text]

theorem Group.words_ne_nil (g : Group) : g.words ≠ [] := by simp [words]

theorem Group.collects (g : Group) : Collects g.elements g.words := by
  have hqualifiers : Collects (g.qualifiers.flatMap fun q => .word q.1 :: q.2.elements)
      (g.qualifiers.map (·.1.text)) := by
    induction g.qualifiers with
    | nil => exact collects_gap []
    | cons q qualifiers ih =>
      rw [List.flatMap_cons, List.map_cons]
      exact ((collects_word q.1).append (collects_gap q.2.gap)).append ih
  exact hqualifiers.append
    ((collects_word g.type).append ((collects_gap g.between.gap).append (collects_word g.name)))

theorem Padded.collects (p : Padded) : Collects p.elements p.group.words := by
  have h := (collects_gap p.before).append (p.group.collects.append (collects_gap p.after))
  rwa [List.append_nil] at h

/-- The words of each parameter, as a function has them. -/
def Parameters.words : Parameters → List (List String)
  | .none _ => []
  | .void _ _ => [["void"]]
  | .groups first rest _ => (first :: rest).map (·.group.words)

/-- Each comma closes a group, and the parenthesis closes the last. -/
theorem read_groups (rest : List Padded) (offset : Nat) (groups : List (List String))
    {words : List String} (hwords : words ≠ []) :
    (tokensFrom offset
      (rest.flatMap (fun p => .mark .comma :: p.elements) ++ [.mark .closing])).foldl
        Reader.step ⟨.parameters head groups words, functions⟩ =
      ⟨.closed head (groups ++ words :: rest.map (·.group.words)), functions⟩ := by
  induction rest generalizing offset groups words with
  | nil =>
    have hclosed : (if words.isEmpty then groups else groups ++ [words]) = groups ++ [words] :=
      if_neg (by simpa using hwords)
    exact congrArg (fun gs => Reader.mk (.closed head gs) functions) hclosed
  | cons p rest ih =>
    have hcomma : ∀ offset es, (tokensFrom offset (.mark .comma :: es)).foldl Reader.step
        ⟨.parameters head groups words, functions⟩ =
        (tokensFrom (offset + byteSize [',']) es).foldl Reader.step
          ⟨.parameters head (groups ++ [words]) [], functions⟩ := fun _ _ => rfl
    rw [List.flatMap_cons, List.append_assoc, List.cons_append, hcomma, tokensFrom_append,
      List.foldl_append, p.collects, List.nil_append, ih _ _ p.group.words_ne_nil,
      List.append_assoc]
    rfl

theorem Parameters.read (p : Parameters) (offset : Nat) :
    (tokensFrom offset (p.elements ++ [.mark .closing])).foldl Reader.step
      ⟨.parameters head [] [], functions⟩ = ⟨.closed head p.words, functions⟩ := by
  cases p with
  | none gap =>
    rw [elements, tokensFrom_gap]
    rfl
  | void before after =>
    have hvoid : Collects (before.elements ++ .word Grammar.void :: after.elements) ["void"] :=
      (collects_gap before).append ((collects_word _).append (collects_gap after))
    rw [elements, tokensFrom_append, List.foldl_append, hvoid]
    rfl
  | groups first rest _ =>
    rw [elements, List.append_assoc, tokensFrom_append, List.foldl_append, first.collects,
      List.nil_append, read_groups rest _ _ first.group.words_ne_nil]
    rfl

theorem Definition.read_head (d : Definition) (offset : Nat) :
    (tokensFrom offset d.head).foldl Reader.step ⟨.outside, functions⟩ =
      ⟨.closed ⟨d.returnType.text, d.name.text, offset⟩ d.parameters.words, functions⟩ := by
  have hstart : ∀ offset es, (tokensFrom offset (.word d.returnType :: es)).foldl Reader.step
      ⟨.outside, functions⟩ =
      (tokensFrom (offset + byteSize d.returnType.chars) es).foldl Reader.step
        ⟨.type d.returnType.text offset, functions⟩ := fun _ _ => rfl
  have hname : ∀ start offset es, (tokensFrom offset (.word d.name :: es)).foldl Reader.step
      ⟨.type d.returnType.text start, functions⟩ =
      (tokensFrom (offset + byteSize d.name.chars) es).foldl Reader.step
        ⟨.name ⟨d.returnType.text, d.name.text, start⟩ offset, functions⟩ := fun _ _ _ => rfl
  have hopening :
      ∀ head second offset es, (tokensFrom offset (.mark .opening :: es)).foldl Reader.step
      ⟨.name head second, functions⟩ = (tokensFrom (offset + byteSize ['(']) es).foldl Reader.step
        ⟨.parameters head [] [], functions⟩ := fun _ _ _ _ => rfl
  -- the last gap gives no token
  have hlast : ∀ offset, tokensFrom offset d.afterParameters.elements = [] := fun offset => by
    rw [← List.append_nil d.afterParameters.elements, tokensFrom_gap]
    rfl
  rw [head, hstart, Separator.elements, tokensFrom_gap, hname, tokensFrom_gap, hopening,
    List.append_cons d.parameters.elements, tokensFrom_append, List.foldl_append, d.parameters.read,
    hlast]
  rfl

end Grammar

namespace Reader

variable {head : Head} {groups : List (List String)} {functions : List Function}

theorem depthAfter_plain {t : Token} (hopen : t.lexeme ≠ .symbol '\x7b')
    (hclose : t.lexeme ≠ .symbol '\x7d') (depth : Nat) : depthAfter depth t = depth := by
  unfold depthAfter
  split <;> simp_all

/-- Matching braces leave the depth of a body as it is. -/
theorem read_matched {ts : List Token} (h : Matched ts) (start depth : Nat) (earlier : List Token) :
    ts.foldl step ⟨.body head groups start (depth + 1) earlier, functions⟩ =
      ⟨.body head groups start (depth + 1) (ts.reverse ++ earlier), functions⟩ := by
  induction h generalizing depth earlier with
  | nil => rfl
  | @plain t ts hopen hclose _ ih =>
    have hstep : step ⟨.body head groups start (depth + 1) earlier, functions⟩ t =
        ⟨.body head groups start (depth + 1) (t :: earlier), functions⟩ := by
      simp [step, depthAfter_plain hopen hclose]
    rw [List.foldl_cons, hstep, ih, List.reverse_cons, List.append_assoc]
    rfl
  | @braces t u ts us ht hu _ _ ihinner ih =>
    have hopen : step ⟨.body head groups start (depth + 1) earlier, functions⟩ t =
        ⟨.body head groups start (depth + 1 + 1) (t :: earlier), functions⟩ := by
      simp [step, depthAfter, ht]
    have hclose :
        step ⟨.body head groups start (depth + 1 + 1) (ts.reverse ++ t :: earlier), functions⟩ u =
        ⟨.body head groups start (depth + 1) (u :: (ts.reverse ++ t :: earlier)), functions⟩ := by
      simp [step, depthAfter, hu]
    rw [List.foldl_cons, hopen, List.foldl_append, ihinner, List.foldl_cons, hclose, ih]
    simp

/-- A body in its braces completes a definition. -/
theorem read_body (head : Head) (groups : List (List String)) (functions : List Function)
    {ts : List Token} (h : Matched ts) (start stop : Nat) :
    (.ofSymbol start '\x7b' :: (ts ++ [.ofSymbol stop '\x7d'])).foldl step
        ⟨.closed head groups, functions⟩ =
      ⟨.outside, function head groups start (stop + 1)
        (.ofSymbol start '\x7b' :: (ts ++ [.ofSymbol stop '\x7d'])) :: functions⟩ := by
  have hopen : step ⟨.closed head groups, functions⟩ (.ofSymbol start '\x7b') =
      ⟨.body head groups start (0 + 1) [.ofSymbol start '\x7b'], functions⟩ := rfl
  rw [List.foldl_cons, hopen, List.foldl_append, read_matched h]
  simp only [step, List.foldl_cons, List.foldl_nil, depthAfter, Token.ofSymbol]
  simp [function]
  rfl

end Reader

/-! ## What is found -/

namespace Grammar

theorem Group.ofWords?_words (g : Group) :
    Parameter.ofWords? g.words = some (g.name.text, g.parameter) := by
  have hreverse : g.words.reverse =
      g.name.text :: g.type.text :: (g.qualifiers.map (·.1.text)).reverse := by
    simp [words]
  have hmem : ∀ a, (g.qualifiers.map (·.1.text)).reverse.contains a = true ↔
      a ∈ g.qualifiers.map (·.1.text) := fun a => by
    rw [List.contains_iff_mem, List.mem_reverse]
  rw [Parameter.ofWords?, hreverse]
  simp only [hmem, parameter, qualifier]

theorem Parameters.parameters_eq {f : Function} {p : Parameters} (h : f.groups = p.words) :
    f.parameters = p.declared.map fun g => (g.name.text, g.parameter) := by
  rw [Function.parameters, Function.declared, h]
  cases p with
  | none gap => rfl
  | void before after => rfl
  | groups first rest distinct =>
    -- a group has a type and a name, so it is never a lone word
    have hvoid : words (.groups first rest distinct) ≠ [["void"]] := by
      intro hlone
      have hlength := congrArg List.length (List.cons.inj hlone).1
      simp [Group.words] at hlength
    rw [if_neg hvoid, words, declared, List.filterMap_map, List.map_map]
    simp [Function.comp_def, Group.ofWords?_words]

theorem Word.text_injective : Function.Injective Word.text := by
  rintro ⟨v, hv⟩ ⟨w, hw⟩ h
  obtain rfl : v = w := String.ofList_injective h
  rfl

theorem Parameters.nodup_declared (p : Parameters) : (p.declared.map (·.name.text)).Nodup := by
  cases p with
  | none | void => exact List.nodup_nil
  | groups first rest distinct =>
    have hnodup := distinct.map Word.text_injective
    rw [List.map_map] at hnodup
    rwa [declared, List.map_map]

/-- Where keys do not repeat, looking from either end finds the same. -/
theorem find?_reverse_of_nodup {α κ : Type} [DecidableEq κ] {key : α → κ} {xs : List α}
    (h : (xs.map key).Nodup) (k : κ) :
    xs.reverse.find? (key · = k) = xs.find? (key · = k) := by
  cases hfound : xs.find? (key · = k) with
  | none =>
    rw [List.find?_eq_none] at hfound ⊢
    exact fun x hx => hfound x (List.mem_reverse.mp hx)
  | some x =>
    have hx : key x = k := by simpa using List.find?_some hfound
    have hmem := List.mem_of_find?_eq_some hfound
    cases hback : xs.reverse.find? (key · = k) with
    | none =>
      rw [List.find?_eq_none] at hback
      exact absurd (decide_eq_true hx) (hback x (List.mem_reverse.mpr hmem))
    | some y =>
      have hy : key y = k := by simpa using List.find?_some hback
      rw [List.inj_on_of_nodup_map h (List.mem_reverse.mp (List.mem_of_find?_eq_some hback)) hmem
        (hy.trans hx.symm)]

theorem Parameters.parameter?_eq {f : Function} {p : Parameters} (h : f.groups = p.words)
    (name : String) :
    f.parameter? name = (p.declared.find? (·.name.text = name)).map Group.parameter := by
  rw [Function.parameter?, parameters_eq h, ← List.map_reverse, List.find?_map, Option.map_map,
    ← find?_reverse_of_nodup p.nodup_declared name]
  rfl

theorem Definition.found_function (d : Definition) (before : List Char) (tokens : List Token) :
    d.Found before (Reader.function ⟨d.returnType.text, d.name.text, byteSize before⟩
      d.parameters.words (byteSize (before ++ charsOf d.head))
        (byteSize (before ++ d.chars)) tokens) where
  returnType := rfl
  name := rfl
  parameters := Parameters.parameters_eq rfl
  parameter? := Parameters.parameter?_eq rfl
  definition := rfl
  body := rfl

end Grammar

/-- The lexer is between tokens, and the reader outside of definitions. -/
structure Lexer.Ready (l : Lexer) (functions : List Function) : Prop where
  mode : l.mode = .code
  read : l.found.reverse.foldl Reader.step {} = ⟨.outside, functions⟩

namespace Lexer.Ready

open Grammar

variable {l : Lexer} {functions : List Function}

theorem gap (h : l.Ready functions) (gap : Gap) : (l.run gap.chars).Ready functions := by
  have hskips := skips_gap h.mode gap
  exact ⟨hskips.mode, by rw [hskips.found, h.read]⟩

/-- A definition is found, and the next one can follow. -/
theorem definition (h : l.Ready functions) (d : Definition) (before : List Char)
    (hoffset : l.offset = byteSize before) :
    ∃ f, d.Found before f ∧ (l.run d.chars).Ready (f :: functions) := by
  -- head, opening brace, inner text and closing brace, as the lexer comes to them
  have hhead := gives_elements d.apart h.mode
  have hopen := step_firm (c := '\x7b') hhead.mode rfl
  obtain ⟨ts, hts, hinner⟩ := d.balanced.gives (l := (l.run (charsOf d.head)).step '\x7b')
    (by rw [close_of_code hopen.1, hopen.1]) (by rw [hopen.1]; exact fun _ => Mode.noConfusion)
  have hend := step_firm (c := '\x7d') hinner.mode rfl
  have hrun : l.run d.chars =
      (((l.run (charsOf d.head)).step '\x7b').run d.inner).step '\x7d' := by
    rw [Definition.chars, Definition.body, run_append, run_cons, run_append]
    rfl
  have hstart : (l.run (charsOf d.head)).offset = byteSize (before ++ charsOf d.head) := by
    rw [offset_run, hoffset, byteSize_append]
  have hstop : (((l.run (charsOf d.head)).step '\x7b').run d.inner).offset + 1 =
      byteSize (before ++ d.chars) := by
    have hsize := congrArg Lexer.offset hrun
    rw [offset_run, hoffset, ← byteSize_append] at hsize
    rw [hsize]
    exact (congrArg (· + _) (offset_read _ _)).symm
  -- and the same from the reader's side
  have hread := Reader.read_body ⟨d.returnType.text, d.name.text, byteSize before⟩
    d.parameters.words functions hts (byteSize (before ++ charsOf d.head))
    (((l.run (charsOf d.head)).step '\x7b').run d.inner).offset
  rw [hstop] at hread
  refine ⟨_, d.found_function before _, hrun ▸ hend.1, Eq.trans ?_ hread⟩
  rw [hrun, hend.2, hinner.found, hopen.2, hhead.found, hstart, hoffset,
    ← d.read_head (byteSize before), ← List.foldl_append, ← h.read, ← List.foldl_append]
  simp

theorem definitions (h : l.Ready functions) (ds : List (Definition × Gap)) (before : List Char)
    (hoffset : l.offset = byteSize before) :
    ∃ found, List.Forall₂ (fun p f => p.2.Found p.1 f) (placedBehind before ds) found ∧
      (l.run (ds.flatMap fun d => d.1.chars ++ d.2.chars)).Ready (found.reverse ++ functions) := by
  induction ds generalizing l functions before with
  | nil => exact ⟨[], .nil, h⟩
  | cons d ds ih =>
    obtain ⟨f, hf, hready⟩ := h.definition d.1 before hoffset
    obtain ⟨found, hfound, hrest⟩ := ih (hready.gap d.2) (before ++ (d.1.chars ++ d.2.chars))
      (by simp only [offset_run, hoffset, byteSize_append, Nat.add_assoc])
    refine ⟨f :: found, .cons hf hfound, ?_⟩
    rw [List.flatMap_cons, run_append, run_append, List.reverse_cons, List.append_assoc]
    exact hrest

end Lexer.Ready

/-- A line comment may end with the text. -/
theorem Lexer.found_last {l : Lexer} (hl : l.mode = .code)
    (last : Option { text : List Char // '\n' ∉ text }) :
    (l.run ((last.map fun text => '/' :: '/' :: text.1).getD [])).close.found = l.found := by
  cases last with
  | none => exact congrArg Lexer.found (close_of_code hl)
  | some text =>
    have hopen := open_line hl
    obtain ⟨hmode, hfound⟩ := run_line hopen.1 text.2
    have hclose : ((l.run ['/', '/']).run text.1).close = (l.run ['/', '/']).run text.1 := by
      rw [close, hmode]
    exact (congrArg Lexer.found hclose).trans (hfound.trans hopen.2)

namespace Grammar

theorem placedBehind_isPrefix {before : List Char} {ds : List (Definition × Gap)}
    {p : List Char × Definition} (hp : p ∈ placedBehind before ds) :
    p.1 ++ p.2.chars <+: before ++ ds.flatMap fun d => d.1.chars ++ d.2.chars := by
  induction ds generalizing before with
  | nil => cases hp
  | cons d ds ih =>
    rw [List.flatMap_cons]
    rcases List.mem_cons.mp hp with rfl | hp
    · rw [← List.append_assoc, ← List.append_assoc, List.append_assoc (before ++ d.1.chars)]
      exact List.prefix_append _ _
    · rw [← List.append_assoc]
      exact ih hp

/-- **Completeness.** In a text of the grammar exactly its definitions are found, in their order and
each at its place. -/
theorem Library.functionsIn_text (t : Library) :
    List.Forall₂ (fun p f => p.1 ++ p.2.chars <+: t.chars ∧ p.2.Found p.1 f) t.placed
      (functionsIn t.text) := by
  have hstart : Lexer.Ready {} [] := ⟨rfl, rfl⟩
  obtain ⟨found, hplaced, hready⟩ := (hstart.gap t.lead).definitions t.definitions t.lead.chars
    (by rw [Lexer.offset_run]; exact Nat.zero_add _)
  rw [List.append_nil] at hready
  have hfound : functionsIn t.text = found := by
    rw [functionsIn, tokens, Library.text, String.toList_ofList, Library.chars, Lexer.run_append,
      Lexer.run_append, Lexer.finish, Lexer.found_last hready.mode, hready.read,
      List.reverse_reverse]
  rw [hfound, List.forall₂_and_left]
  -- what is placed lies in front of the last comment
  refine ⟨fun p hp => (placedBehind_isPrefix hp).trans ?_, hplaced⟩
  rw [Library.chars, ← List.append_assoc]
  exact List.prefix_append _ _

end Grammar
end Texel.Glsl
