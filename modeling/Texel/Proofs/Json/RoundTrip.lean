import Texel.Proofs.Json.Numeral

/-!
# Texel — reading back what was written

The text of a value comes to the tokens of the value, whatever the indentation, and these tokens
bring the reader from where a value may stand to where that value has been taken. Nothing is asked
of strings: a character that is escaped comes back, and a string without a text is written as an
escape that has none. A number must be spelled as numbers are written.

* **`Lexer.Gives`** — a piece of text and its tokens, where two pieces stand one behind the other if
  the second begins with a blank or a symbol.
* **`Reader.foldlM_tokens`** — the tokens of a value, read.
* **`parse?_render`** — both together.
-/

namespace Texel.Json

/-! ## Values and their tokens -/

/-- Every number in the value is spelled as numbers are written. -/
inductive Spelled : Json → Prop
  | null : Spelled .null
  | bool (b : Bool) : Spelled (.bool b)
  | number (s : Numeral.Spelling) : Spelled (.number s.text)
  | string (text : Option String) : Spelled (.string text)
  | array {items : List Json} : (∀ v ∈ items, Spelled v) → Spelled (.array items)
  | object {members : List (Option String × Json)} :
    (∀ m ∈ members, Spelled m.2) → Spelled (.object members)

mutual

def tokens : Json → List Token
  | .null => [.word ['n', 'u', 'l', 'l']]
  | .bool true => [.word ['t', 'r', 'u', 'e']]
  | .bool false => [.word ['f', 'a', 'l', 's', 'e']]
  | .number literal => [.number literal]
  | .string text => [.string text]
  | .array [] => [.symbol '[', .symbol ']']
  | .array (v :: rest) => .symbol '[' :: (tokens v ++ (itemTokens rest ++ [.symbol ']']))
  | .object [] => [.symbol '\x7b', .symbol '\x7d']
  | .object ((key, v) :: rest) =>
    .symbol '\x7b' :: .string key :: .symbol ':' ::
      (tokens v ++ (memberTokens rest ++ [.symbol '\x7d']))

def itemTokens : List Json → List Token
  | [] => []
  | v :: rest => .symbol ',' :: (tokens v ++ itemTokens rest)

def memberTokens : List (Option String × Json) → List Token
  | [] => []
  | (key, v) :: rest =>
    .symbol ',' :: .string key :: .symbol ':' :: (tokens v ++ memberTokens rest)

end

/-! ## From text to tokens -/

namespace Lexer

/-- The text comes to these tokens, whatever was found before it. -/
def Gives (cs : List Char) (ts : List Token) : Prop :=
  ∀ found, ∃ l, cs.foldlM step ⟨.idle, found⟩ = some l ∧ l.close = ⟨.idle, ts.reverse ++ found⟩

/-- The text is empty or begins with a character that ends the token before it. -/
def Breaks (cs : List Char) : Prop := ∀ c ∈ cs.head?, isBlank c = true ∨ isSymbol c = true

theorem breaks_cons {c : Char} (cs : List Char) (h : isBlank c = true ∨ isSymbol c = true) :
    Breaks (c :: cs) := by
  intro d hd
  cases hd
  exact h

theorem ends_of_blank_or_symbol {c : Char} (hc : isBlank c = true ∨ isSymbol c = true) :
    isNumberChar c = false ∧ c.isLower = false := by
  simp only [isBlank, isSymbol, Bool.or_eq_true, beq_iff_eq] at hc
  rcases hc with (((rfl | rfl) | rfl) | rfl) | (((((rfl | rfl) | rfl) | rfl) | rfl) | rfl) <;>
    decide

theorem step_close {l : Lexer} {c : Char} (hl : l.close.mode = .idle)
    (hc : isBlank c = true ∨ isSymbol c = true) : l.step c = l.close.step c := by
  have hends := ends_of_blank_or_symbol hc
  obtain ⟨mode, found⟩ := l
  cases mode with
  | idle => rfl
  | number chars => simp [step, close, hends.1]
  | word chars => simp [step, close, hends.2]
  | string units => cases hl
  | escape units => cases hl
  | unit units count value => cases hl

variable {cs cs' : List Char} {ts ts' : List Token}

theorem gives_nil : Gives [] [] := fun found => ⟨⟨.idle, found⟩, rfl, rfl⟩

theorem Gives.append (h : Gives cs ts) (h' : Gives cs' ts') (hbreaks : Breaks cs') :
    Gives (cs ++ cs') (ts ++ ts') := by
  intro found
  obtain ⟨l, hl, hclose⟩ := h found
  obtain ⟨l', hl', hclose'⟩ := h' (ts.reverse ++ found)
  rw [List.foldlM_append, hl, List.reverse_append, List.append_assoc]
  cases cs' with
  | nil =>
    cases hl'
    exact ⟨l, rfl, hclose.trans hclose'⟩
  | cons c cs' =>
    -- the first character of the second piece ends what the first piece has left open
    refine ⟨l', ?_, hclose'⟩
    show (c :: cs').foldlM step l = some l'
    rw [List.foldlM_cons, step_close (by rw [hclose]) (hbreaks c rfl), hclose, ← List.foldlM_cons]
    exact hl'

theorem Gives.blank {c : Char} (h : Gives cs ts) (hc : isBlank c = true) : Gives (c :: cs) ts := by
  intro found
  obtain ⟨l, hl, hclose⟩ := h found
  refine ⟨l, ?_, hclose⟩
  rw [List.foldlM_cons]
  simpa [step, begin, hc] using hl

theorem Gives.symbol {c : Char} (h : Gives cs ts) (hblank : isBlank c = false)
    (hc : isSymbol c = true) : Gives (c :: cs) (.symbol c :: ts) := by
  intro found
  obtain ⟨l, hl, hclose⟩ := h (.symbol c :: found)
  refine ⟨l, ?_, by simpa using hclose⟩
  rw [List.foldlM_cons]
  simpa [step, begin, hblank, hc] using hl

theorem Gives.indent (h : Gives cs ts) (depth : Nat) :
    Gives ((Json.indent depth).toList ++ cs) ts := by
  rw [Json.indent, String.toList_ofList]
  induction 2 * depth with
  | zero => exact h
  | succ k ih =>
    rw [List.replicate_succ, List.cons_append]
    exact ih.blank rfl

/-! ### Words and numbers -/

theorem foldlM_number (found : List Token) {cs : List Char} (chars : List Char)
    (h : ∀ c ∈ cs, isNumberChar c = true) :
    cs.foldlM step ⟨.number chars, found⟩ = some ⟨.number (cs.reverse ++ chars), found⟩ := by
  induction cs generalizing chars with
  | nil => rfl
  | cons c cs ih =>
    have hstep : step ⟨.number chars, found⟩ c = some ⟨.number (c :: chars), found⟩ := by
      simp [step, h c (by simp)]
    rw [List.foldlM_cons, hstep, List.reverse_cons, List.append_assoc]
    exact ih _ fun d hd => h d (List.mem_cons_of_mem c hd)

theorem gives_number (s : Numeral.Spelling) : Gives s.text [.number s.text] := by
  intro found
  obtain ⟨c, rest, htext, hfirst⟩ := s.exists_first
  have hbegin : step ⟨.idle, found⟩ c = some ⟨.number [c], found⟩ := by
    have hnumber : isNumberChar c = true := s.isNumberChar_of_mem (by simp [htext])
    have hblank : ¬(isBlank c = true ∨ isSymbol c = true) := fun h =>
      absurd (ends_of_blank_or_symbol h).1 (by simp [hnumber])
    have hquote : ¬(c == '"') = true := by
      rintro h
      rw [beq_iff_eq.mp h] at hnumber
      exact absurd hnumber (by decide)
    rw [not_or] at hblank
    simp only [step, begin]
    rw [if_neg hblank.1, if_neg hblank.2, if_neg hquote, if_pos hfirst]
  have hrest : ∀ d ∈ rest, isNumberChar d = true := fun d hd =>
    s.isNumberChar_of_mem (htext ▸ List.mem_cons_of_mem c hd)
  refine ⟨⟨.number (rest.reverse ++ [c]), found⟩, ?_, ?_⟩
  · rw [htext, List.foldlM_cons, hbegin]
    exact foldlM_number found [c] hrest
  · simp [close, htext]

/-! ### Strings -/

/-- How a character is kept while the string is read: a control character without an escape of its
own by number. -/
def unitOf (c : Char) : Unit16 :=
  if c.toNat < 0x20 ∧ c ∉ ['\x08', '\x0c', '\n', '\r', '\t'] then .unit c.toNat else .char c

theorem foldlM_escapeText (units : List Unit16) (found : List Token) (c : Char) :
    (escapeText c).toList.foldlM step ⟨.string units, found⟩ =
      some ⟨.string (unitOf c :: units), found⟩ := by
  by_cases hcontrol : c.toNat < 0x20
  · -- one by one
    rw [← Char.ofNat_toNat c]
    generalize c.toNat = n at hcontrol
    interval_cases n <;> rfl
  · by_cases hquote : c = '"'
    · subst hquote; rfl
    by_cases hbackslash : c = '\\'
    · subst hbackslash; rfl
    have hraw : (escapeText c).toList = [c] := by
      have hne : ∀ d : Char, d.toNat < 0x20 → c ≠ d := fun d hd heq => hcontrol (heq ▸ hd)
      have hlow : ¬c.toNat < 0x10 := by omega
      simp [escapeText, hquote, hbackslash, hne _, hcontrol, hlow]
    have hunit : unitOf c = .char c := if_neg fun h => hcontrol h.1
    rw [hraw, hunit, List.foldlM_cons]
    simp [step, hquote, hbackslash, hcontrol]

theorem foldlM_escapeTexts (units : List Unit16) (found : List Token) (cs : List Char) :
    (cs.flatMap fun c => (escapeText c).toList).foldlM step ⟨.string units, found⟩ =
      some ⟨.string ((cs.map unitOf).reverse ++ units), found⟩ := by
  induction cs generalizing units with
  | nil => rfl
  | cons c cs ih =>
    rw [List.flatMap_cons, List.foldlM_append, foldlM_escapeText]
    simpa using ih (unitOf c :: units)

theorem decodeUnits_unit {n : Nat} (hn : n < 0x20) (units : List Unit16) :
    decodeUnits (.unit n :: units) = (decodeUnits units).map (Char.ofNat n :: ·) := by
  have hhigh : isHigh n = false := by simp [isHigh]; omega
  have hlow : isLow n = false := by simp [isLow]; omega
  cases units with
  | nil => simp [decodeUnits, hhigh, hlow]
  | cons u units => cases u <;> simp [decodeUnits, hhigh, hlow]

theorem decodeUnits_map (cs : List Char) : decodeUnits (cs.map unitOf) = some cs := by
  induction cs with
  | nil => rfl
  | cons c cs ih =>
    rw [List.map_cons, unitOf]
    split_ifs with h
    · rw [decodeUnits_unit h.1, ih, Char.ofNat_toNat]
      rfl
    · rw [decodeUnits, ih]
      rfl

theorem gives_keyText (key : Option String) : Gives (keyText key).toList [.string key] := by
  intro found
  cases key with
  | none => exact ⟨⟨.idle, .string none :: found⟩, rfl, rfl⟩
  | some s =>
    refine ⟨⟨.idle, .string (some s) :: found⟩, ?_, rfl⟩
    have htext : (keyText (some s)).toList =
        '"' :: ((s.toList.flatMap fun c => (escapeText c).toList) ++ ['"']) := by
      simp [keyText, stringText, String.toList_append, String.toList_join, List.flatMap_map]
    rw [htext, List.foldlM_cons, show step ⟨.idle, found⟩ '"' = some ⟨.string [], found⟩ from rfl]
    show ((s.toList.flatMap fun c => (escapeText c).toList) ++ ['"']).foldlM step _ = _
    rw [List.foldlM_append, foldlM_escapeTexts]
    simp [step, decodeUnits_map, String.ofList_toList]

/-! ### Values -/

theorem Breaks.append (h : Breaks cs) (h' : Breaks cs') : Breaks (cs ++ cs') := by
  cases cs with
  | nil => exact h'
  | cons c cs => exact breaks_cons _ (h c rfl)

theorem breaks_prettyItems (depth : Nat) (items : List Json) :
    Breaks (prettyItems depth items).toList := by
  cases items with
  | nil => intro c hc; simp [prettyItems] at hc
  | cons v rest =>
    simp only [prettyItems, String.toList_append, List.append_assoc]
    exact breaks_cons _ (.inr rfl)

theorem breaks_prettyMembers (depth : Nat) (members : List (Option String × Json)) :
    Breaks (prettyMembers depth members).toList := by
  cases members with
  | nil => intro c hc; simp [prettyMembers] at hc
  | cons m rest =>
    simp only [prettyMembers, String.toList_append, List.append_assoc]
    exact breaks_cons _ (.inr rfl)

/-- The end of a container, on a line of its own. -/
theorem gives_closing (depth : Nat) {c : Char} (hblank : isBlank c = false)
    (hc : isSymbol c = true) :
    Gives ('\n' :: ((indent depth).toList ++ [c])) [.symbol c] :=
  ((gives_nil.symbol hblank hc).indent depth).blank rfl

theorem Gives.member (h : Gives cs ts) (key : Option String) :
    Gives ((keyText key).toList ++ (':' :: ' ' :: cs)) (.string key :: .symbol ':' :: ts) :=
  (gives_keyText key).append ((h.blank rfl).symbol rfl rfl) (breaks_cons _ (.inr rfl))

/-- What stands between the brackets of a container, from the first value on. -/
theorem Gives.closed {c : Char} {between : List Char} {inner : List Token} (depth : Nat)
    (h : Gives cs ts) (hrest : Gives between inner) (hbreaks : Breaks between)
    (hblank : isBlank c = false) (hc : isSymbol c = true) :
    Gives (cs ++ (between ++ ('\n' :: ((Json.indent depth).toList ++ [c]))))
      (ts ++ (inner ++ [.symbol c])) := by
  have hclosing : Breaks ('\n' :: ((Json.indent depth).toList ++ [c])) := breaks_cons _ (.inl rfl)
  exact h.append (hrest.append (gives_closing depth hblank hc) hclosing) (hbreaks.append hclosing)

end Lexer

-- The recursion is that of the printer; each container is closed by a symbol on a line of its own,
-- so what follows a value always ends its last token.
mutual

theorem gives_pretty (depth : Nat) : ∀ {v : Json}, v.Spelled →
    Lexer.Gives (pretty depth v).toList v.tokens
  | .null, _ => by
    rw [pretty, tokens]
    exact fun found => ⟨⟨.word ['l', 'l', 'u', 'n'], found⟩, rfl, rfl⟩
  | .bool true, _ => by
    rw [pretty, tokens]
    exact fun found => ⟨⟨.word ['e', 'u', 'r', 't'], found⟩, rfl, rfl⟩
  | .bool false, _ => by
    rw [pretty, tokens]
    exact fun found => ⟨⟨.word ['e', 's', 'l', 'a', 'f'], found⟩, rfl, rfl⟩
  | .number literal, h => by
    rw [pretty, tokens, String.toList_ofList]
    cases h with
    | number s => exact Lexer.gives_number s
  | .string text, _ => by
    rw [pretty, tokens]
    exact Lexer.gives_keyText text
  | .array [], _ => by
    rw [pretty, tokens]
    exact (Lexer.gives_nil.symbol rfl rfl).symbol rfl rfl
  | .array (v :: rest), h => by
    cases h with
    | array h =>
      simp only [List.mem_cons, forall_eq_or_imp] at h
      simp only [pretty, tokens, String.toList_append, List.append_assoc]
      exact ((((gives_pretty (depth + 1) h.1).closed depth (gives_prettyItems (depth + 1) h.2)
        (Lexer.breaks_prettyItems _ _) rfl rfl).indent (depth + 1)).blank rfl).symbol rfl rfl
  | .object [], _ => by
    rw [pretty, tokens]
    exact (Lexer.gives_nil.symbol rfl rfl).symbol rfl rfl
  | .object ((key, v) :: rest), h => by
    cases h with
    | object h =>
      simp only [List.mem_cons, forall_eq_or_imp] at h
      simp only [pretty, tokens, String.toList_append, List.append_assoc]
      exact (((((gives_pretty (depth + 1) h.1).closed depth (gives_prettyMembers (depth + 1) h.2)
        (Lexer.breaks_prettyMembers _ _) rfl rfl).member key).indent (depth + 1)).blank rfl).symbol
          rfl rfl

theorem gives_prettyItems (depth : Nat) : ∀ {items : List Json}, (∀ v ∈ items, v.Spelled) →
    Lexer.Gives (prettyItems depth items).toList (itemTokens items)
  | [], _ => by
    rw [prettyItems, itemTokens]
    exact Lexer.gives_nil
  | v :: rest, h => by
    simp only [List.mem_cons, forall_eq_or_imp] at h
    simp only [prettyItems, itemTokens, String.toList_append, List.append_assoc]
    exact ((((gives_pretty depth h.1).append (gives_prettyItems depth h.2)
      (Lexer.breaks_prettyItems _ _)).indent depth).blank rfl).symbol rfl rfl

theorem gives_prettyMembers (depth : Nat) : ∀ {members : List (Option String × Json)},
    (∀ m ∈ members, m.2.Spelled) →
    Lexer.Gives (prettyMembers depth members).toList (memberTokens members)
  | [], _ => by
    rw [prettyMembers, memberTokens]
    exact Lexer.gives_nil
  | (key, v) :: rest, h => by
    simp only [List.mem_cons, forall_eq_or_imp] at h
    simp only [prettyMembers, memberTokens, String.toList_append, List.append_assoc]
    exact (((((gives_pretty depth h.1).append (gives_prettyMembers depth h.2)
      (Lexer.breaks_prettyMembers _ _)).member key).indent depth).blank rfl).symbol rfl rfl

end

/-! ## From tokens to values -/

namespace Reader

theorem foldlM_step {r q : Reader} {t : Token} (h : r.step t = some q) (ts : List Token) :
    (t :: ts).foldlM step r = ts.foldlM step q := by
  rw [List.foldlM_cons, h]
  rfl

theorem foldlM_append {r q : Reader} {ts : List Token} (h : ts.foldlM step r = some q)
    (us : List Token) : (ts ++ us).foldlM step r = us.foldlM step q := by
  rw [List.foldlM_append, h]
  rfl

-- A value is taken from any stack; of a container the stack holds what has been read so far.
mutual

theorem foldlM_tokens (mayClose : Bool) (stack : List Frame) : ∀ {v : Json}, v.Spelled →
    v.tokens.foldlM step ⟨.value mayClose, stack⟩ = some (complete v stack)
  | .null, _ => by
    rw [tokens]
    rfl
  | .bool true, _ => by
    rw [tokens]
    rfl
  | .bool false, _ => by
    rw [tokens]
    rfl
  | .number literal, h => by
    rw [tokens]
    cases h with
    | number s => simp [step, valueStep, s.parse?_text]
  | .string text, _ => by
    rw [tokens]
    rfl
  | .array [], _ => by
    rw [tokens]
    rfl
  | .array (v :: rest), h => by
    cases h with
    | array h =>
      simp only [List.mem_cons, forall_eq_or_imp] at h
      rw [tokens, foldlM_step (q := ⟨.value true, .array [] :: stack⟩) rfl,
        foldlM_append (foldlM_tokens true _ h.1)]
      exact foldlM_itemTokens [v] stack h.2
  | .object [], _ => by
    rw [tokens]
    rfl
  | .object ((key, v) :: rest), h => by
    cases h with
    | object h =>
      simp only [List.mem_cons, forall_eq_or_imp] at h
      rw [tokens, foldlM_step (q := ⟨.key [] true, stack⟩) rfl,
        foldlM_step (q := ⟨.colon [] key, stack⟩) rfl,
        foldlM_step (q := ⟨.value false, .object [] key :: stack⟩) rfl,
        foldlM_append (foldlM_tokens false _ h.1)]
      exact foldlM_memberTokens [(key, v)] stack h.2

theorem foldlM_itemTokens (read : List Json) (stack : List Frame) : ∀ {items : List Json},
    (∀ v ∈ items, v.Spelled) →
    (itemTokens items ++ [Token.symbol ']']).foldlM step ⟨.more, .array read :: stack⟩ =
      some (complete (.array (read.reverse ++ items)) stack)
  | [], _ => by
    rw [itemTokens, List.append_nil]
    rfl
  | v :: rest, h => by
    simp only [List.mem_cons, forall_eq_or_imp] at h
    rw [itemTokens, List.cons_append, List.append_assoc,
      foldlM_step (q := ⟨.value false, .array read :: stack⟩) rfl,
      foldlM_append (foldlM_tokens false _ h.1)]
    have hrest := foldlM_itemTokens (v :: read) stack h.2
    rwa [List.reverse_cons, List.append_assoc] at hrest

theorem foldlM_memberTokens (read : List (Option String × Json)) (stack : List Frame) :
    ∀ {members : List (Option String × Json)}, (∀ m ∈ members, m.2.Spelled) →
    (memberTokens members ++ [Token.symbol '\x7d']).foldlM step
      ⟨.more, .object read none :: stack⟩ =
      some (complete (.object (read.reverse ++ members)) stack)
  | [], _ => by
    rw [memberTokens, List.append_nil]
    rfl
  | (key, v) :: rest, h => by
    simp only [List.mem_cons, forall_eq_or_imp] at h
    rw [memberTokens, List.cons_append, List.cons_append, List.cons_append, List.append_assoc,
      foldlM_step (q := ⟨.key read false, stack⟩) rfl,
      foldlM_step (q := ⟨.colon read key, stack⟩) rfl,
      foldlM_step (q := ⟨.value false, .object read key :: stack⟩) rfl,
      foldlM_append (foldlM_tokens false _ h.1)]
    have hrest := foldlM_memberTokens ((key, v) :: read) stack h.2
    rwa [List.reverse_cons, List.append_assoc] at hrest

end

end Reader

/-- A value that has been written reads back as itself. -/
theorem parse?_render {v : Json} (h : v.Spelled) : parse? v.render = some v := by
  obtain ⟨l, hl, hclose⟩ := gives_pretty 0 h []
  have htokens : tokens? v.render = some v.tokens := by
    rw [tokens?, render, hl]
    simp [Lexer.finish, hclose]
  have hread : v.tokens.foldlM Reader.step {} = some ⟨.nothing v, []⟩ :=
    Reader.foldlM_tokens false [] h
  simp [parse?, htokens, hread]

end Texel.Json
