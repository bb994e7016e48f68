import Mathlib.Data.List.TakeDrop
import Mathlib.Tactic.Common
import Texel.Shader.Grammar

/-!
# Texel — reading expressions

What the text of an expression means is what the reader of programs makes of it. Generated text is
put together from shorter texts, and this module says when the parts keep their meaning.

A text **spells** tokens if it is read as these tokens, and what comes behind it as if it stood
alone, provided that it begins with a character that ends the last token. Tokens **head** an
expression if the reader, having taken them, holds the expression and looks for parts of it to take.

* **`Token.Spells`** — characters to tokens; **`Token.read?_of_reads`** says that reading a line
  finds the tokens.
* **`Parse.Heads`**, **`Parse.Whole`** — tokens to expressions, with room for the depth that the
  reader bounds.
* **`Expression.listOf?`** — the arguments between the parentheses of a call;
  **`Expression.listOf?_of_whole`** finds them.
-/

namespace Texel.Shader

namespace Token

/-! ## Characters to tokens -/

/-- The characters are read as these tokens. -/
inductive Reads : List Char → List Token → Prop
  | nil : Reads [] []
  | blank {c : Char} {cs : List Char} {ts : List Token} (hc : isBlank c = true) (h : Reads cs ts) :
    Reads (c :: cs) ts
  | token {cs rest : List Char} {t : Token} {ts : List Token} (hfirst : first? cs = some (t, rest))
    (hless : rest.length < cs.length) (hstart : ∀ c ∈ cs.head?, isBlank c = false)
    (h : Reads rest ts) : Reads cs (t :: ts)

variable {cs rest : List Char} {t : Token} {ts us : List Token}

theorem readFrom?_of_reads (h : Reads cs ts) (n : Nat) (found : List Token) (hn : cs.length < n) :
    readFrom? n found cs = some (found.reverse ++ ts) := by
  induction h generalizing n found with
  | nil =>
    obtain ⟨n, rfl⟩ : ∃ k, n = k + 1 := ⟨n - 1, by simp at hn; omega⟩
    simp [readFrom?]
  | @blank c cs ts hc _ ih =>
    obtain ⟨n, rfl⟩ : ∃ k, n = k + 1 := ⟨n - 1, by simp at hn; omega⟩
    have hskip : (c :: cs).dropWhile isBlank = cs.dropWhile isBlank :=
      List.dropWhile_cons_of_pos hc
    rw [← ih (n + 1) found (by simp at hn; omega), readFrom?, hskip, readFrom?]
  | @token cs rest t ts hfirst hless hstart _ ih =>
    obtain ⟨n, rfl⟩ : ∃ k, n = k + 1 := ⟨n - 1, by omega⟩
    obtain ⟨c, cs, rfl⟩ : ∃ c tail, cs = c :: tail := by
      cases cs with
      | nil => cases hfirst
      | cons c tail => exact ⟨c, tail, rfl⟩
    have hkeep : (c :: cs).dropWhile isBlank = c :: cs := by
      rw [List.dropWhile_cons, hstart c rfl]
      rfl
    rw [readFrom?, hkeep]
    show (first? (c :: cs)).bind _ = _
    rw [hfirst]
    show readFrom? n (t :: found) rest = _
    rw [ih n (t :: found) (by omega)]
    simp

/-- A line is read as its tokens. -/
theorem read?_of_reads (h : Reads cs ts) : read? cs = some ts :=
  readFrom?_of_reads h (cs.length + 1) [] (by omega)

/-- The text is read as these tokens, wherever it stands before a character that is allowed. -/
def Spells (allowed : Char → Bool) (text : List Char) (ts : List Token) : Prop :=
  ∀ rest us, (∀ c ∈ rest.head?, allowed c = true) → Reads rest us → Reads (text ++ rest) (ts ++ us)

theorem Spells.reads {allowed : Char → Bool} {text : List Char} (h : Spells allowed text ts) :
    Reads text ts := by
  have hend := h [] [] (fun c hc => by cases hc) .nil
  rwa [List.append_nil, List.append_nil] at hend

theorem Spells.mono {allowed allowed' : Char → Bool} {text : List Char} (h : Spells allowed text ts)
    (hsub : ∀ c, allowed' c = true → allowed c = true) : Spells allowed' text ts :=
  fun rest us hrest => h rest us fun c hc => hsub c (hrest c hc)

theorem Spells.append {allowed allowed' : Char → Bool} {text text' : List Char} {us : List Token}
    (h : Spells allowed text ts) (h' : Spells allowed' text' us)
    (hhead : ∃ c tail, text' = c :: tail ∧ allowed c = true) :
    Spells allowed' (text ++ text') (ts ++ us) := by
  intro rest vs hrest hreads
  obtain ⟨c, tail, rfl, hc⟩ := hhead
  rw [List.append_assoc, List.append_assoc]
  refine h _ _ (fun d hd => ?_) (h' rest vs hrest hreads)
  obtain rfl : c = d := Option.some.inj hd
  exact hc

/-- The second text may be empty if both may stand before the same. -/
theorem Spells.concat {allowed : Char → Bool} {text text' : List Char} {us : List Token}
    (h : Spells allowed text ts) (h' : Spells allowed text' us)
    (hhead : ∀ c ∈ text'.head?, allowed c = true) : Spells allowed (text ++ text') (ts ++ us) := by
  cases text' with
  | nil =>
    intro rest vs hrest hreads
    rw [List.append_nil, List.append_assoc]
    exact h rest _ hrest (h' rest vs hrest hreads)
  | cons c tail => exact h.append h' ⟨c, tail, rfl, hhead c rfl⟩

/-- What ends by itself can stand before anything. -/
theorem Spells.before {allowed : Char → Bool} {text text' : List Char} {us : List Token}
    (h : Spells (fun _ => true) text ts) (h' : Spells allowed text' us) :
    Spells allowed (text ++ text') (ts ++ us) := by
  intro rest vs hrest hreads
  rw [List.append_assoc, List.append_assoc]
  exact h _ _ (fun _ _ => rfl) (h' rest vs hrest hreads)

theorem spells_blank {c : Char} (hc : isBlank c = true) : Spells (fun _ => true) [c] [] :=
  fun _ _ _ h => .blank hc h

/-- One token whose end can be seen from the next character. -/
theorem spells_of_first? {allowed : Char → Bool} {c : Char} {text : List Char}
    (hc : isBlank c = false)
    (h : ∀ rest, (∀ d ∈ rest.head?, allowed d = true) →
      first? (c :: text ++ rest) = some (t, rest)) :
    Spells allowed (c :: text) [t] := by
  intro rest us hrest hreads
  refine .token (h rest hrest) ?_ (fun d hd => ?_) hreads
  · simp only [List.cons_append, List.length_cons, List.length_append]
    omega
  · obtain rfl : c = d := Option.some.inj hd
    exact hc

/-- Ends a name. -/
def endsName (c : Char) : Bool := !isNamePart c

theorem span_of_ends {p : Char → Bool} {word rest : List Char} (hword : ∀ c ∈ word, p c = true)
    (hrest : ∀ c ∈ rest.head?, p c = false) : (word ++ rest).span p = (word, rest) := by
  rw [List.span_eq_takeWhile_dropWhile, List.takeWhile_append_of_pos hword,
    List.dropWhile_append_of_pos hword]
  cases rest with
  | nil => simp
  | cons c rest =>
    have hc : p c = false := hrest c rfl
    simp [hc]

theorem not_isBlank_of_isNameStart {c : Char} (h : isNameStart c = true) : isBlank c = false := by
  by_contra hblank
  rw [Bool.not_eq_false] at hblank
  simp only [isBlank, Bool.or_eq_true, beq_iff_eq] at hblank
  rcases hblank with ((rfl | rfl) | rfl) | rfl
  all_goals
    revert h
    decide

theorem spells_name {c : Char} {word : List Char} (hc : isNameStart c = true)
    (hword : ∀ d ∈ word, isNamePart d = true) :
    Spells endsName (c :: word) [.name (String.ofList (c :: word))] := by
  refine spells_of_first? (not_isBlank_of_isNameStart hc) fun rest hrest => ?_
  have hall : ∀ d ∈ c :: word, isNamePart d = true := by
    refine List.forall_mem_cons.mpr ⟨?_, hword⟩
    rw [isNamePart, hc]
    rfl
  have hends : ∀ d ∈ rest.head?, isNamePart d = false := fun d hd => by
    have := hrest d hd
    rwa [endsName, Bool.not_eq_true'] at this
  show (if isNameStart c then _ else _) = _
  rw [if_pos hc]
  show some (Token.name (String.ofList ((c :: word ++ rest).span isNamePart).1),
    ((c :: word ++ rest).span isNamePart).2) = _
  rw [span_of_ends hall hends]

/-- Symbols of one character that begin no longer ones. -/
def loneSymbols : List Char := ['(', ')', ',', ';', '\x7b', '\x7d']

theorem spells_symbol {c : Char} (hc : c ∈ loneSymbols) :
    Spells (fun _ => true) [c] [.symbol (String.singleton c)] := by
  simp only [loneSymbols, List.mem_cons, List.not_mem_nil, or_false] at hc
  rcases hc with rfl | rfl | rfl | rfl | rfl | rfl
  all_goals
    refine spells_of_first? (by decide) fun rest _ => ?_
    rfl

/-- A point is a symbol, unless a digit follows. -/
theorem spells_point : Spells (fun c => !c.isDigit) ['.'] [.symbol "."] := by
  refine spells_of_first? (by decide) fun rest hrest => ?_
  cases rest with
  | nil => rfl
  | cons d rest =>
    have hd : d.isDigit = false := by simpa using hrest d rfl
    show (if ('.'.isDigit || ('.' == '.' && d.isDigit)) = true then _ else _) = _
    rw [hd]
    rfl

/-- A star is a symbol of its own before a blank. -/
theorem spells_star : Spells (· == ' ') ['*'] [.symbol "*"] := by
  refine spells_of_first? (by decide) fun rest hrest => ?_
  cases rest with
  | nil => rfl
  | cons d rest =>
    obtain rfl : d = ' ' := by simpa using hrest d rfl
    rfl

/-- Ends a number. -/
def endsNumber (c : Char) : Bool := c == ')' || c == ',' || c == ' ' || c == ';'

/-- The numbers that generated code has. -/
theorem spells_real {c : Char} {digits : Nat} (h : (c, digits) ∈ [('0', 0), ('1', 10)]) :
    Spells endsNumber [c, '.', '0'] [.real digits (-1)] := by
  simp only [List.mem_cons, Prod.mk.injEq, List.not_mem_nil, or_false] at h
  rcases h with ⟨rfl, rfl⟩ | ⟨rfl, rfl⟩
  all_goals
    refine spells_of_first? (by decide) fun rest hrest => ?_
    cases rest with
    | nil => rfl
    | cons d rest =>
      have hd : endsNumber d = true := hrest d rfl
      simp only [endsNumber, Bool.or_eq_true, beq_iff_eq] at hd
      rcases hd with ((rfl | rfl) | rfl) | rfl
      · rfl
      · rfl
      · rfl
      · rfl

end Token

namespace Parse

/-! ## Single steps -/

variable {α γ : Type} {ts rest : List Token} {t : Token} {n : Nat} {e : Expression}

theorem bind_apply (x : Parse α) (f : α → Parse γ) (r : Reading) :
    (x >>= f) r = (x r).bind fun p => f p.1 p.2 := by
  show StateT.bind x f r = _
  unfold StateT.bind
  cases x r <;> rfl

theorem peek?_apply (r : Reading) : peek? r = some (r.tokens.head?, r) := rfl

theorem advance_apply : advance ⟨t :: ts, []⟩ = some ((), ⟨ts, []⟩) := rfl

theorem next_apply : next ⟨t :: ts, []⟩ = some (t, ⟨ts, []⟩) := rfl

theorem accept_hit (text : String) :
    accept text ⟨.symbol text :: ts, []⟩ = some (true, ⟨ts, []⟩) := by
  have hnext : isNext text ⟨.symbol text :: ts, []⟩ = some (true, ⟨.symbol text :: ts, []⟩) := by
    show some ((some (Token.symbol text)).any (·.isSymbol text), _) = _
    simp [Token.isSymbol]
  rw [accept, bind_apply, hnext]
  rfl

theorem accept_miss {text : String} (h : .symbol text ∉ ts.head?) :
    accept text ⟨ts, []⟩ = some (false, ⟨ts, []⟩) := by
  have hnext : isNext text ⟨ts, []⟩ = some (false, ⟨ts, []⟩) := by
    show some (ts.head?.any (·.isSymbol text), _) = _
    cases ts with
    | nil => rfl
    | cons t ts =>
      have ht : t ≠ .symbol text := fun ht => h (by rw [ht]; rfl)
      simp [Token.isSymbol, ht]
  rw [accept, bind_apply, hnext]
  rfl

theorem expect_hit (text : String) :
    expect text ⟨.symbol text :: ts, []⟩ = some ((), ⟨ts, []⟩) := by
  rw [expect, bind_apply, accept_hit]
  rfl

/-- A name that a program can give: no word of the language and no type. -/
def IsFree (name : String) : Prop := name ∉ reservedWords ∧ ValueType.ofName? name = none

instance (name : String) : Decidable (IsFree name) := inferInstanceAs (Decidable (_ ∧ _))

theorem name_free {w : String} (h : IsFree w) : name ⟨.name w :: ts, []⟩ = some (w, ⟨ts, []⟩) := by
  have hword : ¬ (reservedWords.contains w || (ValueType.ofName? w).isSome) = true := by
    simp [h.1, h.2]
  show (if (reservedWords.contains w || (ValueType.ofName? w).isSome) = true then failed
    else (pure w : Parse String)) ⟨ts, []⟩ = _
  rw [if_neg hword]
  rfl

theorem isType_free {w : String} (h : IsFree w) :
    isType ⟨.name w :: ts, []⟩ = some (false, ⟨.name w :: ts, []⟩) := by
  have hstruct : w ≠ "struct" := by
    rintro rfl
    exact h.1 (by decide)
  show some (w = "struct" || (ValueType.ofName? w).isSome || ([] : List String).contains w, _) = _
  rw [h.2, decide_eq_false hstruct]
  rfl

theorem isType_type {w : String} (h : (ValueType.ofName? w).isSome) :
    isType ⟨.name w :: ts, []⟩ = some (true, ⟨.name w :: ts, []⟩) := by
  show some (w = "struct" || (ValueType.ofName? w).isSome || ([] : List String).contains w, _) = _
  rw [h]
  simp

theorem isType_other (h : t.name? = none) :
    isType ⟨t :: ts, []⟩ = some (false, ⟨t :: ts, []⟩) := by
  have hword : word? ⟨t :: ts, []⟩ = some (none, ⟨t :: ts, []⟩) := by
    show some ((some t).bind Token.name?, _) = _
    rw [Option.bind_some, h]
  rw [isType, bind_apply, hword]
  rfl

/-! ## Expressions from their tokens -/

/-- What may follow an operand: the end, a closing parenthesis, a comma, a semicolon or a star. -/
def Ends (rest : List Token) : Prop :=
  ∀ t ∈ rest.head?, t ∈ [Token.symbol ")", .symbol ",", .symbol ";", .symbol "*"]

theorem Ends.miss {text : String} (h : Ends rest) (htext : text ∉ [")", ",", ";", "*"]) :
    .symbol text ∉ rest.head? := by
  intro hmem
  have := h _ hmem
  simp only [List.mem_cons, Token.symbol.injEq, List.not_mem_nil, or_false] at this htext
  exact htext this

/-- No part of the expression is taken. -/
theorem suffixes_ends (h : Ends rest) : suffixes (n + 1) e ⟨rest, []⟩ = some (e, ⟨rest, []⟩) := by
  have hone : acceptOne ["++", "--"] ⟨rest, []⟩ = some (false, ⟨rest, []⟩) := by
    rw [acceptOne, bind_apply, peek?_apply]
    cases rest with
    | nil => rfl
    | cons t rest =>
      have ht := h t rfl
      simp only [List.mem_cons, List.not_mem_nil, or_false] at ht
      rcases ht with rfl | rfl | rfl | rfl
      · rfl
      · rfl
      · rfl
      · rfl
  rw [suffixes, bind_apply, accept_miss (h.miss (by decide))]
  show (accept "." >>= _) ⟨rest, []⟩ = _
  rw [bind_apply, accept_miss (h.miss (by decide))]
  show (acceptOne ["++", "--"] >>= _) ⟨rest, []⟩ = _
  rw [bind_apply, hone]
  rfl

theorem suffixes_field {w : String} (hw : IsFree w) (hrest : .symbol "(" ∉ rest.head?) :
    suffixes (n + 1) e ⟨.symbol "." :: .name w :: rest, []⟩ =
    suffixes n (.field e w) ⟨rest, []⟩ := by
  rw [suffixes, bind_apply, accept_miss (by simp)]
  show (accept "." >>= _) ⟨_, []⟩ = _
  rw [bind_apply, accept_hit]
  show (name >>= _) ⟨_, []⟩ = _
  rw [bind_apply, name_free hw]
  show (accept "(" >>= _) ⟨_, []⟩ = _
  rw [bind_apply, accept_miss hrest]
  rfl

/-- What may follow an argument or a whole expression: the end, a closing parenthesis, a comma or a
semicolon. -/
def Closes (rest : List Token) : Prop :=
  ∀ t ∈ rest.head?, t ∈ [Token.symbol ")", .symbol ",", .symbol ";"]

/-- The tokens are the beginning of an expression: the reader takes them, and goes on with what it
has made of them. -/
structure Heads (ts : List Token) (e : Expression) : Prop where
  /-- An expression does not begin like the end of an argument list or of a statement. -/
  start : ∃ t us, ts = t :: us ∧ t ≠ .symbol ")" ∧ t ≠ .name "void" ∧ t ≠ .symbol ";"
  -- a token takes the reader at most eight calls deeper, and two of these are still open afterwards
  reads : ∀ n rest, .symbol "(" ∉ rest.head? → 8 * ts.length ≤ n → ∃ m, n ≤ m + 2 * ts.length ∧
    unary n ⟨ts ++ rest, []⟩ = suffixes m e ⟨rest, []⟩

/-- The tokens are an expression, wherever it ends. -/
structure Whole (ts : List Token) (e : Expression) : Prop where
  start : ∃ t us, ts = t :: us ∧ t ≠ .symbol ")" ∧ t ≠ .name "void" ∧ t ≠ .symbol ";"
  reads : ∀ n rest, Closes rest → 8 * ts.length + 4 ≤ n →
    assignment n ⟨ts ++ rest, []⟩ = some (e, ⟨rest, []⟩)

theorem unary_of_notSymbol (h : ∀ text, t ≠ .symbol text) :
    unary (n + 1) ⟨t :: ts, []⟩ = primary n ⟨t :: ts, []⟩ := by
  rw [unary, bind_apply, peek?_apply]
  cases t with
  | symbol text => exact absurd rfl (h text)
  | name text => rfl
  | integer value signed => rfl
  | real digits power => rfl

theorem unary_paren :
    unary (n + 1) ⟨.symbol "(" :: ts, []⟩ = primary n ⟨.symbol "(" :: ts, []⟩ := by
  rw [unary, bind_apply, peek?_apply]
  rfl

theorem literal?_free {w : String} (h : IsFree w) : literal? (.name w) = none := by
  unfold literal?
  split
  · rename_i heq; cases heq
  · rename_i heq; cases heq
  · rename_i heq; cases heq; exact absurd h (by decide)
  · rename_i heq; cases heq; exact absurd h (by decide)
  · rfl

/-- A primary expression that begins with a name. -/
theorem primary_free {w : String} (h : IsFree w) :
    primary (n + 1) ⟨.name w :: ts, []⟩ = (do
      if ← accept "(" then
        let arguments ← arguments n
        suffixes n (.call w arguments)
      else suffixes n (.variable w) : Parse Expression) ⟨ts, []⟩ := by
  rw [primary, bind_apply, isType_free h]
  show (peek? >>= _) ⟨_, []⟩ = _
  rw [bind_apply, peek?_apply]
  simp only [Option.bind_some, List.head?_cons, literal?_free h]
  show (accept "(" >>= _) ⟨_, []⟩ = _
  rw [bind_apply, accept_miss (by simp)]
  show (name >>= _) ⟨_, []⟩ = _
  rw [bind_apply, name_free h]
  rfl

theorem heads_name {w : String} (h : IsFree w) : Heads [.name w] (.variable w) where
  start := by
    refine ⟨.name w, [], rfl, by simp, ?_, by simp⟩
    intro hvoid
    obtain rfl := Token.name.inj hvoid
    exact absurd h (by decide)
  reads n rest hrest hn := by
    obtain ⟨k, rfl⟩ : ∃ k, n = k + 2 := ⟨n - 2, by simp at hn; omega⟩
    refine ⟨k, by simp, ?_⟩
    rw [List.singleton_append, unary_of_notSymbol (by simp), primary_free h, bind_apply,
      accept_miss hrest]
    rfl

theorem heads_real (digits : Nat) (power : Int) :
    Heads [.real digits power] (.literal .float (.decimal digits power)) where
  start := ⟨_, [], rfl, by simp, by simp, by simp⟩
  reads n rest _ hn := by
    obtain ⟨k, rfl⟩ : ∃ k, n = k + 2 := ⟨n - 2, by simp at hn; omega⟩
    refine ⟨k, by simp, ?_⟩
    rw [List.singleton_append, unary_of_notSymbol (by simp), primary, bind_apply, isType_other rfl]
    rfl

theorem Heads.field {w : String} (h : Heads ts e) (hw : IsFree w) :
    Heads (ts ++ [.symbol ".", .name w]) (.field e w) where
  start := by
    obtain ⟨t, us, rfl, ht⟩ := h.start
    exact ⟨t, us ++ _, rfl, ht⟩
  reads n rest hrest hn := by
    simp only [List.length_append, List.length_cons, List.length_nil] at hn ⊢
    obtain ⟨m, hm, hreads⟩ := h.reads n (.symbol "." :: .name w :: rest) (by simp) (by omega)
    obtain ⟨k, rfl⟩ : ∃ k, m = k + 1 := ⟨m - 1, by
      obtain ⟨t, us, rfl, _⟩ := h.start
      simp at hm hn
      omega⟩
    refine ⟨k, by omega, ?_⟩
    rw [List.append_assoc]
    exact hreads.trans (suffixes_field hw hrest)

/-! ### Whole expressions -/

theorem Ends.of_closes (h : Closes rest) : Ends rest := by
  intro t ht
  have := h t ht
  simp only [List.mem_cons, List.not_mem_nil, or_false] at this ⊢
  tauto

/-- An operand is read to its end. -/
theorem Heads.operand (h : Heads ts e) (hrest : Ends rest) (hn : 8 * ts.length ≤ n) :
    unary n ⟨ts ++ rest, []⟩ = some (e, ⟨rest, []⟩) := by
  obtain ⟨t, us, hts, _⟩ := h.start
  have hlen : ts.length = us.length + 1 := by rw [hts]; rfl
  obtain ⟨m, hm, hreads⟩ := h.reads n rest (hrest.miss (by decide)) hn
  obtain ⟨k, rfl⟩ : ∃ k, m = k + 1 := ⟨m - 1, by omega⟩
  rw [hreads, suffixes_ends hrest]

theorem joined_closes {level : Nat} (h : Closes rest) :
    joined (n + 1) level e ⟨rest, []⟩ = some (e, ⟨rest, []⟩) := by
  rw [joined, bind_apply, peek?_apply]
  cases rest with
  | nil => rfl
  | cons t rest =>
    have ht := h t rfl
    simp only [List.mem_cons, List.not_mem_nil, or_false] at ht
    rcases ht with rfl | rfl | rfl
    · rfl
    · rfl
    · rfl

/-- An expression made of operands and operators ends where an argument ends. -/
theorem assignment_of_binary (h : Closes rest)
    (hbinary : binary n 1 ⟨ts, []⟩ = some (e, ⟨rest, []⟩)) :
    assignment (n + 2) ⟨ts, []⟩ = some (e, ⟨rest, []⟩) := by
  have hconditional : conditional (n + 1) ⟨ts, []⟩ = some (e, ⟨rest, []⟩) := by
    rw [conditional, bind_apply, hbinary]
    show (accept "?" >>= _) ⟨rest, []⟩ = _
    rw [bind_apply, accept_miss ((Ends.of_closes h).miss (by decide))]
    rfl
  rw [assignment, bind_apply, hconditional]
  show (peek? >>= _) ⟨rest, []⟩ = _
  rw [bind_apply, peek?_apply]
  cases rest with
  | nil => rfl
  | cons t rest =>
    have ht := h t rfl
    simp only [List.mem_cons, List.not_mem_nil, or_false] at ht
    rcases ht with rfl | rfl | rfl
    · rfl
    · rfl
    · rfl

theorem Heads.whole (h : Heads ts e) : Whole ts e where
  start := h.start
  reads n rest hrest hn := by
    obtain ⟨k, rfl⟩ : ∃ k, n = k + 4 := ⟨n - 4, by omega⟩
    refine assignment_of_binary hrest ?_
    rw [binary, bind_apply, h.operand (Ends.of_closes hrest) (by omega)]
    exact joined_closes hrest

/-- A product of two operands. -/
theorem Heads.product {us : List Token} {f : Expression} (h : Heads ts e) (h' : Heads us f) :
    Whole (ts ++ .symbol "*" :: us) (.binary "*" e f) where
  start := by
    obtain ⟨t, vs, rfl, ht⟩ := h.start
    exact ⟨t, vs ++ _, rfl, ht⟩
  reads n rest hrest hn := by
    simp only [List.length_append, List.length_cons] at hn
    obtain ⟨k, rfl⟩ : ∃ k, n = k + 6 := ⟨n - 6, by omega⟩
    refine assignment_of_binary hrest ?_
    have hfirst : unary (k + 3) ⟨ts ++ .symbol "*" :: us ++ rest, []⟩ =
        some (e, ⟨.symbol "*" :: us ++ rest, []⟩) := by
      rw [List.append_assoc]
      refine h.operand (fun t ht => ?_) (by omega)
      obtain rfl : Token.symbol "*" = t := Option.some.inj ht
      simp
    have hsecond : binary (k + 2) 12 ⟨us ++ rest, []⟩ = some (f, ⟨rest, []⟩) := by
      rw [binary, bind_apply, h'.operand (Ends.of_closes hrest) (by omega)]
      exact joined_closes hrest
    rw [binary, bind_apply, hfirst]
    show joined (k + 3) 1 e ⟨.symbol "*" :: us ++ rest, []⟩ = _
    rw [joined, bind_apply, peek?_apply]
    simp only [Option.bind_some, List.cons_append, List.head?_cons,
      show level? (Token.symbol "*") = some 11 by decide]
    show (advance >>= _) ⟨.symbol "*" :: (us ++ rest), []⟩ = _
    rw [bind_apply, advance_apply]
    show (binary (k + 2) 12 >>= _) ⟨us ++ rest, []⟩ = _
    rw [bind_apply, hsecond]
    exact joined_closes hrest

/-- An expression in parentheses can have parts taken. -/
theorem Whole.paren (h : Whole ts e) : Heads (.symbol "(" :: ts ++ [.symbol ")"]) e where
  start := ⟨.symbol "(", ts ++ [.symbol ")"], rfl, by simp, by simp, by simp⟩
  reads n rest _ hn := by
    simp only [List.length_append, List.length_cons, List.length_nil] at hn ⊢
    obtain ⟨k, rfl⟩ : ∃ k, n = k + 4 := ⟨n - 4, by omega⟩
    refine ⟨k + 2, by omega, ?_⟩
    have hinner : expression (k + 2) ⟨ts ++ .symbol ")" :: rest, []⟩ =
        some (e, ⟨.symbol ")" :: rest, []⟩) := by
      rw [expression, bind_apply,
        h.reads (k + 1) (.symbol ")" :: rest) (by simp [Closes]) (by omega)]
      show commas (k + 1) e ⟨.symbol ")" :: rest, []⟩ = _
      rw [commas, bind_apply, accept_miss (by simp)]
      rfl
    have hopen : .symbol "(" :: ts ++ [.symbol ")"] ++ rest =
        .symbol "(" :: (ts ++ .symbol ")" :: rest) := by simp
    rw [hopen, unary_paren, primary, bind_apply, isType_other rfl]
    show (peek? >>= _) ⟨.symbol "(" :: (ts ++ .symbol ")" :: rest), []⟩ = _
    rw [bind_apply, peek?_apply]
    show (accept "(" >>= _) ⟨.symbol "(" :: (ts ++ .symbol ")" :: rest), []⟩ = _
    rw [bind_apply, accept_hit]
    show (expression (k + 2) >>= _) ⟨ts ++ .symbol ")" :: rest, []⟩ = _
    rw [bind_apply, hinner]
    show (expect ")" >>= _) ⟨.symbol ")" :: rest, []⟩ = _
    rw [bind_apply, expect_hit]
    rfl

/-! ### Arguments -/

theorem acceptWord_miss {w : String} (h : t ≠ .name w) :
    acceptWord w ⟨t :: ts, []⟩ = some (false, ⟨t :: ts, []⟩) := by
  have hword : word? ⟨t :: ts, []⟩ = some (t.name?, ⟨t :: ts, []⟩) := rfl
  have hnot : ¬ t.name?.any [w].contains = true := by
    cases t with
    | name text =>
      have hne : text ≠ w := fun heq => h (by rw [heq])
      simp [Token.name?, hne]
    | integer value signed => simp [Token.name?]
    | real digits power => simp [Token.name?]
    | symbol text => simp [Token.name?]
  rw [acceptWord, acceptWords, bind_apply, hword]
  show (if t.name?.any [w].contains = true then
    (do advance; return true : Parse Bool) else return false) ⟨t :: ts, []⟩ = _
  rw [if_neg hnot]
  rfl

/-- An argument ends at a comma or at the parenthesis. -/
theorem closes_arguments (tss : List (List Token)) (rest : List Token) :
    Closes (tss.flatMap (Token.symbol "," :: ·) ++ .symbol ")" :: rest) := by
  intro t ht
  cases tss with
  | nil => cases Option.some.inj ht; simp
  | cons us tss => cases Option.some.inj ht; simp

/-- The tokens of a list, with commas between them. -/
def listTokens : List (List Token) → List Token
  | [] => []
  | ts :: tss => ts ++ tss.flatMap (.symbol "," :: ·)

variable {tss : List (List Token)} {es : List Expression}

theorem moreArguments_reads (h : List.Forall₂ Whole tss es) (n : Nat) (found : List Expression)
    (rest : List Token) (hn : 8 * (tss.flatMap (Token.symbol "," :: ·)).length + 8 ≤ n) :
    moreArguments n found ⟨tss.flatMap (.symbol "," :: ·) ++ .symbol ")" :: rest, []⟩ =
      some (found.reverse ++ es, ⟨rest, []⟩) := by
  induction h generalizing n found with
  | nil =>
    obtain ⟨k, rfl⟩ : ∃ k, n = k + 1 := ⟨n - 1, by omega⟩
    rw [List.flatMap_nil, List.nil_append, moreArguments, bind_apply, accept_hit, List.append_nil]
    rfl
  | @cons ts e tss es hts htss ih =>
    obtain ⟨k, rfl⟩ : ∃ k, n = k + 1 := ⟨n - 1, by omega⟩
    simp only [List.flatMap_cons, List.length_append, List.length_cons] at hn
    have hsplit : (ts :: tss).flatMap (Token.symbol "," :: ·) ++ .symbol ")" :: rest =
        .symbol "," :: (ts ++ (tss.flatMap (Token.symbol "," :: ·) ++ .symbol ")" :: rest)) := by
          simp
    rw [hsplit, moreArguments, bind_apply, accept_miss (by simp)]
    show (expect "," >>= _) ⟨.symbol "," :: _, []⟩ = _
    rw [bind_apply, expect_hit]
    show (assignment k >>= _) ⟨_, []⟩ = _
    rw [bind_apply, hts.reads k _ (closes_arguments tss rest) (by omega)]
    show moreArguments k (e :: found) ⟨_, []⟩ = _
    rw [ih k (e :: found) (by omega)]
    simp

/-- Arguments are read one by one. -/
theorem arguments_reads (h : List.Forall₂ Whole tss es) (n : Nat) (rest : List Token)
    (hn : 8 * (listTokens tss).length + 16 ≤ n) :
    arguments n ⟨listTokens tss ++ .symbol ")" :: rest, []⟩ = some (es, ⟨rest, []⟩) := by
  obtain ⟨k, rfl⟩ : ∃ k, n = k + 1 := ⟨n - 1, by omega⟩
  cases h with
  | nil =>
    rw [listTokens, List.nil_append, arguments, bind_apply, accept_hit]
    rfl
  | @cons ts e tss es hts htss =>
    obtain ⟨t, us, rfl, hclose, hvoid, _⟩ := hts.start
    simp only [listTokens, List.length_append] at hn
    rw [listTokens, List.append_assoc, arguments, bind_apply, accept_miss (by simpa using hclose)]
    show (acceptWord "void" >>= _) ⟨t :: (us ++ _), []⟩ = _
    rw [bind_apply, acceptWord_miss hvoid]
    show (assignment k >>= _) ⟨t :: us ++ _, []⟩ = _
    rw [bind_apply, hts.reads k _ (closes_arguments tss rest) (by omega)]
    show moreArguments k [e] ⟨_, []⟩ = _
    rw [moreArguments_reads htss k [e] rest (by omega)]
    rfl

/-- A call. -/
theorem heads_call {f : String} (hf : IsFree f) (h : List.Forall₂ Whole tss es) :
    Heads (.name f :: .symbol "(" :: listTokens tss ++ [.symbol ")"]) (.call f es) where
  start := by
    obtain ⟨t, us, hts, ht⟩ := (heads_name hf).start
    cases hts
    exact ⟨.name f, _, rfl, ht⟩
  reads n rest _ hn := by
    simp only [List.length_append, List.length_cons, List.length_nil] at hn ⊢
    obtain ⟨k, rfl⟩ : ∃ k, n = k + 2 := ⟨n - 2, by omega⟩
    refine ⟨k, by omega, ?_⟩
    have hopen : .name f :: .symbol "(" :: listTokens tss ++ [.symbol ")"] ++ rest =
        .name f :: .symbol "(" :: (listTokens tss ++ .symbol ")" :: rest) := by simp
    rw [hopen, unary_of_notSymbol (by simp), primary_free hf, bind_apply, accept_hit]
    show (arguments k >>= _) ⟨_, []⟩ = _
    rw [bind_apply, arguments_reads h k rest (by omega)]
    rfl

/-- A value made of others. -/
theorem heads_construct {type : String} (htype : (ValueType.ofName? type).isSome)
    (h : List.Forall₂ Whole tss es) :
    Heads (.name type :: .symbol "(" :: listTokens tss ++ [.symbol ")"])
      (.construct type [] es) where
  start := by
    refine ⟨.name type, _, rfl, by simp, ?_, by simp⟩
    intro hvoid
    obtain rfl := Token.name.inj hvoid
    exact absurd htype (by decide)
  reads n rest _ hn := by
    simp only [List.length_append, List.length_cons, List.length_nil] at hn ⊢
    obtain ⟨k, rfl⟩ : ∃ k, n = k + 3 := ⟨n - 3, by omega⟩
    refine ⟨k + 1, by omega, ?_⟩
    have hopen : .name type :: .symbol "(" :: listTokens tss ++ [.symbol ")"] ++ rest =
        .name type :: .symbol "(" :: (listTokens tss ++ .symbol ")" :: rest) := by simp
    have hlengths :
        arrayLengths (k + 1) ⟨.symbol "(" :: (listTokens tss ++ .symbol ")" :: rest), []⟩ =
        some ([], ⟨.symbol "(" :: (listTokens tss ++ .symbol ")" :: rest), []⟩) := by
      rw [arrayLengths, bind_apply, accept_miss (by simp)]
      rfl
    rw [hopen, unary_of_notSymbol (by simp), primary, bind_apply, isType_type htype]
    show (next >>= _) ⟨.name type :: _, []⟩ = _
    rw [bind_apply, next_apply]
    show (arrayLengths (k + 1) >>= _) ⟨.symbol "(" :: (listTokens tss ++ .symbol ")" :: rest), []⟩ =
      _
    rw [bind_apply, hlengths]
    show (expect "(" >>= _) ⟨.symbol "(" :: _, []⟩ = _
    rw [bind_apply, expect_hit]
    show (arguments (k + 1) >>= _) ⟨_, []⟩ = _
    rw [bind_apply, arguments_reads h (k + 1) rest (by omega)]
    rfl

end Parse

namespace Expression

/-- The expressions that a text lists, as between the parentheses of a call. -/
def listOf? (text : String) : Option (List Expression) :=
  (Token.read? (text.toList ++ [')'])).bind fun tokens =>
    ((Parse.arguments (16 * tokens.length + 16)).run ⟨tokens, []⟩).bind fun p =>
      if p.2.tokens.isEmpty then some p.1 else none

/-- A text that spells the tokens of expressions, with commas between them, lists these. -/
theorem listOf?_of_whole {text : String} {tss : List (List Token)} {es : List Expression}
    (htext : Token.Spells (· == ')') text.toList (Parse.listTokens tss))
    (h : List.Forall₂ Parse.Whole tss es) : listOf? text = some es := by
  have hread : Token.read? (text.toList ++ [')']) = some (Parse.listTokens tss ++ [.symbol ")"]) :=
    Token.read?_of_reads (htext.append (Token.spells_symbol (by decide)) ⟨_, _, rfl, rfl⟩).reads
  have hparse := Parse.arguments_reads h
    (16 * (Parse.listTokens tss ++ [Token.symbol ")"]).length + 16) [] (by simp; omega)
  rw [listOf?, hread]
  show ((Parse.arguments _ ⟨_, []⟩).bind _) = _
  rw [hparse]
  rfl

end Expression
end Texel.Shader
