import Texel.Proofs.Shader.Reading

/-!
# Texel — reading statements and functions

The text of a generated function is a heading, statements on lines of their own and a brace. Each
line is read by itself, so its tokens are found without regard to the other lines; the tokens of a
statement are then read whatever follows them.

* **`Token.ofText?`** — the tokens of a text that has no directives, line by line.
* **`Parse.Says`** — tokens that are one statement; there is a lemma for each statement that
  generated code has.
* **`Parse.Opens`** — tokens that are the head of a function.
* **`Item.listOf?_function`** — a head and the statements of a body are read as a function.
-/

namespace Texel.Shader

/-! ## Lines -/

namespace Token

/-- The tokens of a text that has no directives. -/
def ofText? (text : String) : Option (List Token) :=
  (lines? text).bind fun lines => (lines.mapM read?).map List.flatten

/-- Joins no lines and opens no comment. -/
def isPlain (c : Char) : Bool := c != '\r' && c != '\\' && c != '/'

variable {cs rest : List Char} {ts us : List Token}

theorem foldl_lineEnds (h : ∀ c ∈ cs, isPlain c = true) (e : LineEnds)
    (he : ∀ c ∈ e.half, c = '\n') :
    (cs.foldl LineEnds.step e).found = cs.reverse ++ e.found := by
  induction cs generalizing e with
  | nil => rfl
  | cons c cs ih =>
    rw [List.forall_mem_cons] at h
    have hreturn : c ≠ '\r' := by
      rintro rfl
      exact absurd h.1 (by decide)
    rw [List.foldl_cons, List.reverse_cons, List.append_assoc, List.singleton_append]
    by_cases hc : c = '\n'
    · subst hc
      have hhalf : ¬ e.half.any (· != '\n') = true := by
        cases hhalf : e.half with
        | none => simp
        | some d => simp [he d hhalf]
      have hstep : e.step '\n' = ⟨some '\n', '\n' :: e.found⟩ := by
        rw [LineEnds.step, if_pos (by decide), if_neg hhalf]
      rw [hstep, ih h.2]
      intro d hd
      exact (Option.some.inj hd).symm
    · have hstep : e.step c = ⟨none, c :: e.found⟩ := by
        rw [LineEnds.step, if_neg (by simp [hc, hreturn])]
      rw [hstep, ih h.2]
      intro d hd
      cases hd

theorem foldl_joiner (h : ∀ c ∈ cs, isPlain c = true) (found : List Char) :
    cs.foldl Joiner.step ⟨false, found⟩ = ⟨false, cs.reverse ++ found⟩ := by
  induction cs generalizing found with
  | nil => rfl
  | cons c cs ih =>
    rw [List.forall_mem_cons] at h
    have hescape : (c == '\\') = false := by
      have hplain := h.1
      simp only [isPlain, Bool.and_eq_true, bne_iff_ne] at hplain
      simp [hplain.1.2]
    have hstep : (⟨false, found⟩ : Joiner).step c = ⟨false, c :: found⟩ := by
      rw [Joiner.step, hescape]
      rfl
    rw [List.foldl_cons, hstep, ih h.2, List.reverse_cons, List.append_assoc, List.singleton_append]

theorem foldl_stripper (h : ∀ c ∈ cs, isPlain c = true) (found : List Char) :
    cs.foldl Stripper.step ⟨.code, found⟩ = ⟨.code, cs.reverse ++ found⟩ := by
  induction cs generalizing found with
  | nil => rfl
  | cons c cs ih =>
    rw [List.forall_mem_cons] at h
    have hslash : (c == '/') = false := by
      have hplain := h.1
      simp only [isPlain, Bool.and_eq_true, bne_iff_ne] at hplain
      simp [hplain.2]
    have hstep : (⟨.code, found⟩ : Stripper).step c = ⟨.code, c :: found⟩ := by
      show Stripper.begin _ c = _
      rw [Stripper.begin, hslash]
      rfl
    rw [List.foldl_cons, hstep, ih h.2, List.reverse_cons, List.append_assoc, List.singleton_append]

/-- Without comments and joined lines, the lines of a text are what stands between its line ends. -/
theorem lines?_of_plain {text : String} (h : ∀ c ∈ text.toList, isPlain c = true) :
    lines? text = some (text.toList.splitOnP (· == '\n')) := by
  have hends := foldl_lineEnds h {} fun c hc => by cases hc
  rw [lines?, hends, List.append_nil, List.reverse_reverse, foldl_joiner h, List.append_nil]
  dsimp only
  rw [List.reverse_reverse, foldl_stripper h, List.append_nil]
  show Option.map _ (some text.toList.reverse.reverse) = _
  rw [List.reverse_reverse, Option.map_some]

/-- The characters, cut into lines, are read as these tokens. -/
def LinesRead (cs : List Char) (ts : List Token) : Prop :=
  ((cs.splitOnP (· == '\n')).mapM read?).map List.flatten = some ts

theorem forall_ne_newline (h : '\n' ∉ cs) : ∀ c ∈ cs, (c == '\n') = false := by
  intro c hc
  rw [beq_eq_false_iff_ne]
  rintro rfl
  exact h hc

theorem linesRead_last (hline : '\n' ∉ cs) (h : Reads cs ts) : LinesRead cs ts := by
  rw [LinesRead, List.splitOnP_eq_singleton (forall_ne_newline hline), List.mapM_cons,
    read?_of_reads h]
  simp

/-- One line, and what comes behind it. -/
theorem LinesRead.cons (hline : '\n' ∉ cs) (h : Reads cs ts) (hrest : LinesRead rest us) :
    LinesRead (cs ++ '\n' :: rest) (ts ++ us) := by
  obtain ⟨tss, htss, rfl⟩ := Option.map_eq_some_iff.mp hrest
  rw [LinesRead, List.splitOnP_append_cons_of_forall_mem (forall_ne_newline hline) '\n' (by decide),
    List.mapM_cons, read?_of_reads h, htss]
  rfl

theorem ofText?_of_linesRead {text : String} (hplain : ∀ c ∈ text.toList, isPlain c = true)
    (h : LinesRead text.toList ts) : ofText? text = some ts := by
  rw [ofText?, lines?_of_plain hplain]
  exact h

end Token

namespace Parse

variable {α : Type} {ts us rest : List Token} {t : Token} {n : Nat} {e : Expression} {w : String}

/-- A question that is answered with no. -/
theorem ite_miss {x : Parse Bool} {a b : Parse α} {r : Reading} (h : x r = some (false, r)) :
    (x >>= fun c => if c = true then a else b) r = b r := by
  rw [bind_apply, h]
  rfl

/-! ## Words -/

theorem IsFree.ne (h : IsFree w) {k : String} (hk : k ∈ reservedWords) : w ≠ k := by
  rintro rfl
  exact h.1 hk

/-- No type is a word of the language. -/
theorem notMem_reservedWords (h : (ValueType.ofName? w).isSome) : w ∉ reservedWords := by
  have hnone : ∀ k ∈ reservedWords, ValueType.ofName? k = none := by decide +kernel
  intro hw
  rw [hnone w hw] at h
  cases h

theorem acceptWords_miss {texts : List String} (h : ∀ w, t = .name w → w ∉ texts) :
    acceptWords texts ⟨t :: ts, []⟩ = some (false, ⟨t :: ts, []⟩) := by
  have hword : word? ⟨t :: ts, []⟩ = some (t.name?, ⟨t :: ts, []⟩) := rfl
  have hnot : t.name?.any texts.contains = false := by
    cases t with
    | name text => simpa [Token.name?] using h text rfl
    | integer value signed => rfl
    | real digits power => rfl
    | symbol text => rfl
  rw [acceptWords, bind_apply, hword]
  show (if t.name?.any texts.contains = true then
    (do advance; return true : Parse Bool) else return false) ⟨t :: ts, []⟩ = _
  rw [hnot]
  rfl

theorem acceptWord_hit (w : String) : acceptWord w ⟨.name w :: ts, []⟩ = some (true, ⟨ts, []⟩) := by
  have hword : word? ⟨.name w :: ts, []⟩ = some (some w, ⟨.name w :: ts, []⟩) := rfl
  have hyes : (some w).any [w].contains = true := by simp
  rw [acceptWord, acceptWords, bind_apply, hword]
  show (if (some w).any [w].contains = true then
    (do advance; return true : Parse Bool) else return false) ⟨.name w :: ts, []⟩ = _
  rw [hyes]
  rfl

theorem isQualifier_miss (hlayout : w ≠ "layout") (hw : w ∉ qualifierWords) :
    isQualifier ⟨.name w :: ts, []⟩ = some (false, ⟨.name w :: ts, []⟩) := by
  show some ((some w).any fun text => text = "layout" || qualifierWords.contains text, _) = _
  simp [hlayout, hw]

/-- A word that can be the first of an expression or of a statement, but of no declaration. -/
theorem isDeclaration_miss
    (hw : w ∉ "layout" :: "precision" :: "void" :: "struct" :: qualifierWords)
    (htype : ValueType.ofName? w = none) :
    isDeclaration ⟨.name w :: ts, []⟩ = some (false, ⟨.name w :: ts, []⟩) := by
  simp only [List.mem_cons, not_or] at hw
  obtain ⟨hlayout, hprecision, hvoid, hstruct, hqualifier⟩ := hw
  have hword : word? ⟨.name w :: ts, []⟩ = some (some w, ⟨.name w :: ts, []⟩) := rfl
  have hnone : isType ⟨.name w :: ts, []⟩ = some (false, ⟨.name w :: ts, []⟩) := by
    show some (w = "struct" || (ValueType.ofName? w).isSome || ([] : List String).contains w, _) = _
    rw [htype, decide_eq_false hstruct]
    rfl
  simp only [isDeclaration, bind_apply, isQualifier_miss hlayout hqualifier, hword, hnone,
    Option.bind_some, Option.some.injEq, hprecision, hvoid, decide_false, Bool.or_self,
    Bool.false_eq_true, if_false]
  rfl

/-- An expression and a semicolon. -/
theorem Whole.expression (h : Whole ts e) (hn : 8 * ts.length + 8 ≤ n) :
    Parse.expression n ⟨ts ++ .symbol ";" :: rest, []⟩ = some (e, ⟨.symbol ";" :: rest, []⟩) := by
  obtain ⟨k, rfl⟩ : ∃ k, n = k + 2 := ⟨n - 2, by omega⟩
  rw [Parse.expression, bind_apply, h.reads (k + 1) _ (by simp [Closes]) (by omega)]
  show commas (k + 1) e ⟨.symbol ";" :: rest, []⟩ = _
  rw [commas, bind_apply, accept_miss (by simp)]
  rfl

/-! ## Statements -/

/-- The tokens are a statement, whatever follows them. -/
structure Says (ts : List Token) (s : Statement) : Prop where
  /-- A statement does not begin like the end of a body. -/
  start : ∃ t us, ts = t :: us ∧ t ≠ .symbol "\x7d"
  reads : ∀ n rest, 8 * ts.length + 8 ≤ n → statement n ⟨ts ++ rest, []⟩ = some (s, ⟨rest, []⟩)

/-- The words that a statement can begin with. -/
def statementWords : List String :=
  ["if", "for", "while", "do", "switch", "case", "default", "return"]

/-- An expression that begins with a name is a statement. -/
theorem says_evaluate (h : Whole (.name w :: us) e) (hw : IsFree w) :
    Says (.name w :: us ++ [.symbol ";"]) (.evaluate e) where
  start := ⟨.name w, us ++ [.symbol ";"], rfl, by simp⟩
  reads n rest hn := by
    simp only [List.length_append, List.length_cons, List.length_nil] at hn
    obtain ⟨k, rfl⟩ : ∃ k, n = k + 1 := ⟨n - 1, by omega⟩
    have hdeclaration :
        ∀ ts, isDeclaration ⟨.name w :: ts, []⟩ = some (false, ⟨.name w :: ts, []⟩) := by
      refine fun ts => isDeclaration_miss (fun hmem => hw.1 ?_) hw.2
      have hsubset : ∀ k ∈ "layout" :: "precision" :: "void" :: "struct" :: qualifierWords,
          k ∈ reservedWords := by decide +kernel
      exact hsubset w hmem
    have hsymbol : ∀ text ts, accept text ⟨.name w :: ts, []⟩ = some (false, ⟨.name w :: ts, []⟩) :=
      fun text ts => accept_miss (by simp)
    have hword : ∀ ts, ∀ k ∈ statementWords,
        acceptWord k ⟨.name w :: ts, []⟩ = some (false, ⟨.name w :: ts, []⟩) := by
      intro ts k hk
      have hreserved : ∀ k ∈ statementWords, k ∈ reservedWords := by decide +kernel
      exact acceptWord_miss fun heq => hw.ne (hreserved k hk) (Token.name.inj heq)
    have hjump : ∀ ts, acceptWords ["break", "continue", "discard"] ⟨.name w :: ts, []⟩ =
        some (false, ⟨.name w :: ts, []⟩) := by
      refine fun ts => acceptWords_miss fun v hv hmem => hw.1 ?_
      have hsubset : ∀ k ∈ ["break", "continue", "discard"], k ∈ reservedWords := by decide +kernel
      exact Token.name.inj hv ▸ hsubset v hmem
    have hexpression : Parse.expression k ⟨_ ++ .symbol ";" :: rest, []⟩ = _ :=
      h.expression (by simp; omega)
    simp only [List.append_assoc, List.cons_append, List.nil_append] at hexpression ⊢
    rw [statement, ite_miss (hdeclaration _), ite_miss (hsymbol _ _), ite_miss (hsymbol _ _),
      ite_miss (hword _ "if" (by decide)), ite_miss (hword _ "for" (by decide)),
      ite_miss (hword _ "while" (by decide)), ite_miss (hword _ "do" (by decide)),
      ite_miss (hword _ "switch" (by decide)), ite_miss (hword _ "case" (by decide)),
      ite_miss (hword _ "default" (by decide)), ite_miss (hword _ "return" (by decide)),
      ite_miss (hjump _), bind_apply, hexpression]
    show (expect ";" >>= _) ⟨_, []⟩ = _
    rw [bind_apply, expect_hit]
    rfl

/-- A function returns the value of an expression. -/
theorem says_leave (h : Whole ts e) :
    Says (.name "return" :: ts ++ [.symbol ";"]) (.leave (some e)) where
  start := ⟨.name "return", ts ++ [.symbol ";"], rfl, by simp⟩
  reads n rest hn := by
    simp only [List.length_append, List.length_cons, List.length_nil] at hn
    obtain ⟨k, rfl⟩ : ∃ k, n = k + 1 := ⟨n - 1, by omega⟩
    have hdeclaration : ∀ ts, isDeclaration ⟨.name "return" :: ts, []⟩ =
        some (false, ⟨.name "return" :: ts, []⟩) :=
      fun ts => isDeclaration_miss (by decide +kernel) (by decide +kernel)
    have hsymbol : ∀ text ts, accept text ⟨.name "return" :: ts, []⟩ =
        some (false, ⟨.name "return" :: ts, []⟩) := fun text ts => accept_miss (by simp)
    have hword : ∀ ts, ∀ k ∈ statementWords.dropLast, acceptWord k ⟨.name "return" :: ts, []⟩ =
        some (false, ⟨.name "return" :: ts, []⟩) := by
      intro ts k hk
      refine acceptWord_miss fun heq => ?_
      rw [← Token.name.inj heq] at hk
      exact absurd hk (by decide)
    have hvalue : optional k ";" ⟨ts ++ .symbol ";" :: rest, []⟩ =
        some (some e, ⟨.symbol ";" :: rest, []⟩) := by
      obtain ⟨t, us, rfl, -, -, ht⟩ := h.start
      have hnext : isNext ";" ⟨t :: us ++ .symbol ";" :: rest, []⟩ =
          some (false, ⟨t :: us ++ .symbol ";" :: rest, []⟩) := by
        show some (t.isSymbol ";", _) = _
        rw [Token.isSymbol, beq_eq_false_iff_ne.mpr ht]
      rw [optional, bind_apply, hnext]
      show (Parse.expression k >>= _) ⟨t :: us ++ .symbol ";" :: rest, []⟩ = _
      rw [bind_apply, h.expression (by omega)]
      rfl
    simp only [List.append_assoc, List.cons_append, List.nil_append]
    rw [statement, ite_miss (hdeclaration _), ite_miss (hsymbol _ _), ite_miss (hsymbol _ _),
      ite_miss (hword _ "if" (by decide)), ite_miss (hword _ "for" (by decide)),
      ite_miss (hword _ "while" (by decide)), ite_miss (hword _ "do" (by decide)),
      ite_miss (hword _ "switch" (by decide)), ite_miss (hword _ "case" (by decide)),
      ite_miss (hword _ "default" (by decide)), bind_apply, acceptWord_hit]
    show (optional k ";" >>= _) ⟨_, []⟩ = _
    rw [bind_apply, hvalue]
    show (expect ";" >>= _) ⟨_, []⟩ = _
    rw [bind_apply, expect_hit]
    rfl

/-! ## Declarations -/

theorem arrayLengths_none (h : .symbol "[" ∉ ts.head?) :
    arrayLengths (n + 1) ⟨ts, []⟩ = some ([], ⟨ts, []⟩) := by
  rw [arrayLengths, bind_apply, accept_miss h]
  rfl

theorem qualifiers_none (hlayout : w ≠ "layout") (hw : w ∉ qualifierWords) :
    qualifiers (n + 1) ⟨.name w :: ts, []⟩ = some ({}, ⟨.name w :: ts, []⟩) := by
  rw [qualifiers, bind_apply, whileHolds, bind_apply, isQualifier_miss hlayout hw]
  rfl

/-- The type that a declaration begins with. -/
def typeNamed (type : String) : TypeUse := { name := type }

theorem typeUse_named {type : String} (htype : (ValueType.ofName? type).isSome)
    (h : .symbol "[" ∉ ts.head?) :
    typeUse (n + 1) ⟨.name type :: ts, []⟩ = some (typeNamed type, ⟨ts, []⟩) := by
  have hstruct : Token.name type ≠ .name "struct" := by
    intro heq
    exact notMem_reservedWords htype (Token.name.inj heq ▸ by decide +kernel)
  rw [typeUse, bind_apply, isType_type htype]
  show (acceptWord "struct" >>= _) ⟨_, []⟩ = _
  rw [bind_apply, acceptWord_miss hstruct]
  show (next >>= _) ⟨_, []⟩ = _
  rw [bind_apply, next_apply]
  show (arrayLengths (n + 1) >>= _) ⟨_, []⟩ = _
  rw [bind_apply, arrayLengths_none h]
  rfl

/-- The beginning of a declaration with a type. -/
theorem declaration_named {type : String} (htype : (ValueType.ofName? type).isSome)
    (h : .symbol "[" ∉ ts.head?) :
    declaration (n + 1) ⟨.name type :: ts, []⟩ = (do
      match ← head? with
      | some name =>
        let signature : Signature := ⟨some (typeNamed type), name, ← parameters (n + 1)⟩
        if ← accept ";" then return .inl (.prototype signature)
        return .inr signature
      | none => return .inl (.variableList {} (typeNamed type) (← declarators (n + 1))) :
        Parse (Declaration ⊕ Signature)) ⟨ts, []⟩ := by
  have hreserved := notMem_reservedWords htype
  have hword : ∀ k ∈ reservedWords, Token.name type ≠ .name k := fun k hk heq =>
    hreserved (Token.name.inj heq ▸ hk)
  have hlayout : type ≠ "layout" := by
    rintro rfl
    exact absurd htype (by decide +kernel)
  rw [declaration, bind_apply, acceptWord_miss (hword "precision" (by decide +kernel))]
  show (qualifiers (n + 1) >>= _) ⟨_, []⟩ = _
  rw [bind_apply, qualifiers_none hlayout fun hmem => hreserved (List.mem_append_left _ hmem)]
  show (acceptWord "void" >>= _) ⟨_, []⟩ = _
  rw [bind_apply, acceptWord_miss (hword "void" (by decide +kernel))]
  show (isType >>= _) ⟨_, []⟩ = _
  rw [bind_apply, isType_type htype]
  show ((some <$> typeUse (n + 1)) >>= _) ⟨_, []⟩ = _
  rw [bind_apply]
  show (Option.bind ((typeUse (n + 1) >>= fun a => pure (some a)) ⟨_, []⟩) _) = _
  rw [bind_apply, typeUse_named htype h]
  rfl

theorem isDeclaration_type {type : String} (htype : (ValueType.ofName? type).isSome)
    (h : .symbol "(" ∉ ts.head?) :
    isDeclaration ⟨.name type :: ts, []⟩ = some (true, ⟨.name type :: ts, []⟩) := by
  have hreserved := notMem_reservedWords htype
  have hlayout : type ≠ "layout" := by
    rintro rfl
    exact absurd htype (by decide +kernel)
  have hother : ∀ k ∈ ["precision", "void"], type ≠ k := by
    rintro k hk rfl
    have hsubset : ∀ k ∈ ["precision", "void"], k ∈ reservedWords := by decide +kernel
    exact hreserved (hsubset type hk)
  have hparen : ts.head?.any (·.isSymbol "(") = false := by
    cases ts with
    | nil => rfl
    | cons t ts =>
      have ht : t ≠ .symbol "(" := fun heq => h (by rw [heq]; rfl)
      exact beq_eq_false_iff_ne.mpr ht
  rw [isDeclaration, bind_apply,
    isQualifier_miss hlayout fun hmem => hreserved (List.mem_append_left _ hmem)]
  show (if (false || decide (some type = some "precision") || decide (some type = some "void")) =
    true then (pure true : Parse Bool) else _) ⟨_, []⟩ = _
  rw [if_neg (by simp [hother "precision" (by simp), hother "void" (by simp)]), bind_apply,
    isType_type htype]
  show some (!(ts.head?.any (·.isSymbol "(")), _) = _
  rw [hparen]
  rfl

/-- A local variable. -/
theorem says_declare {type : String} (htype : (ValueType.ofName? type).isSome) (hw : IsFree w) :
    Says [.name type, .name w, .symbol ";"]
      (.declare (.variableList {} (typeNamed type) [⟨w, [], none⟩])) where
  start := ⟨.name type, _, rfl, by simp⟩
  reads n rest hn := by
    simp only [List.length_cons, List.length_nil] at hn
    obtain ⟨k, rfl⟩ : ∃ k, n = k + 2 := ⟨n - 2, by omega⟩
    have hdeclarator : declarator (k + 1) ⟨.name w :: .symbol ";" :: rest, []⟩ =
        some (⟨w, [], none⟩, ⟨.symbol ";" :: rest, []⟩) := by
      rw [declarator, bind_apply, name_free hw]
      show (arrayLengths (k + 1) >>= _) ⟨_, []⟩ = _
      rw [bind_apply, arrayLengths_none (by simp)]
      show (accept "=" >>= _) ⟨_, []⟩ = _
      rw [bind_apply, accept_miss (by simp)]
      rfl
    have hdeclarators : declarators (k + 1) ⟨.name w :: .symbol ";" :: rest, []⟩ =
        some ([⟨w, [], none⟩], ⟨rest, []⟩) := by
      rw [declarators, bind_apply, accept_miss (by simp)]
      show (accept ";" >>= _) ⟨_, []⟩ = _
      rw [bind_apply, accept_miss (by simp)]
      show (separated (declarator (k + 1)) (k + 1) >>= _) ⟨_, []⟩ = _
      rw [bind_apply, separated, bind_apply, hdeclarator]
      show Option.bind ((accept "," >>= _) ⟨_, []⟩) _ = _
      rw [bind_apply, accept_miss (by simp)]
      show (expect ";" >>= _) ⟨_, []⟩ = _
      rw [bind_apply, expect_hit]
      rfl
    have hdeclaration : declaration (k + 1) ⟨.name type :: .name w :: .symbol ";" :: rest, []⟩ =
        some (.inl (.variableList {} (typeNamed type) [⟨w, [], none⟩]), ⟨rest, []⟩) := by
      rw [declaration_named htype (by simp), bind_apply]
      show (declarators (k + 1) >>= _) ⟨_, []⟩ = _
      rw [bind_apply, hdeclarators]
      rfl
    show statement (k + 2) ⟨.name type :: .name w :: .symbol ";" :: rest, []⟩ = _
    rw [statement, bind_apply, isDeclaration_type htype (by simp)]
    show localDeclaration (k + 1) ⟨_, []⟩ = _
    rw [localDeclaration, bind_apply, hdeclaration]
    rfl

/-! ## Functions -/

/-- Statements are read up to the brace. -/
theorem body_reads {tss : List (List Token)} {ss : List Statement} (h : List.Forall₂ Says tss ss)
    (n : Nat) (rest : List Token) (hn : 8 * tss.flatten.length + 16 ≤ n) :
    body n ⟨tss.flatten ++ .symbol "\x7d" :: rest, []⟩ = some (ss, ⟨rest, []⟩) := by
  induction h generalizing n with
  | nil =>
    obtain ⟨k, rfl⟩ : ∃ k, n = k + 1 := ⟨n - 1, by omega⟩
    rw [List.flatten_nil, List.nil_append, body, bind_apply, accept_hit]
    rfl
  | @cons ts s tss ss hts htss ih =>
    obtain ⟨k, rfl⟩ : ∃ k, n = k + 1 := ⟨n - 1, by omega⟩
    rw [List.flatten_cons, List.length_append] at hn
    obtain ⟨t, us, rfl, hbrace⟩ := hts.start
    rw [List.length_cons] at hn
    have hmiss : Token.symbol "\x7d" ∉
        (t :: us ++ (tss.flatten ++ Token.symbol "\x7d" :: rest)).head? := by
      simpa using hbrace
    rw [List.flatten_cons, List.append_assoc, body, bind_apply, accept_miss hmiss]
    show (statement k >>= _) ⟨_, []⟩ = _
    rw [bind_apply, hts.reads k _ (by simp; omega)]
    show (body k >>= _) ⟨_, []⟩ = _
    rw [bind_apply, ih k (by omega)]
    rfl

/-- The tokens are the head of a function, whatever its body is. -/
structure Opens (ts : List Token) (signature : Signature) : Prop where
  start : ∃ t us, ts = t :: us ∧ t ≠ .symbol ";"
  reads : ∀ n rest, 8 * ts.length + 8 ≤ n →
    declaration n ⟨ts ++ .symbol "\x7b" :: rest, []⟩ =
      some (.inr signature, ⟨.symbol "\x7b" :: rest, []⟩)

theorem head?_hit (hw : IsFree w) :
    head? ⟨.name w :: .symbol "(" :: ts, []⟩ = some (some w, ⟨ts, []⟩) := by
  have hget : (get : Parse Reading) ⟨.name w :: .symbol "(" :: ts, []⟩ =
      some (⟨.name w :: .symbol "(" :: ts, []⟩, ⟨.name w :: .symbol "(" :: ts, []⟩) := rfl
  rw [head?, bind_apply, hget]
  simp only [Option.bind_some]
  rw [bind_apply, name_free hw]
  show (expect "(" >>= _) ⟨.symbol "(" :: ts, []⟩ = _
  rw [bind_apply, expect_hit]
  rfl

/-- A function that neither takes nor returns anything. -/
theorem opens_procedure (hw : IsFree w) :
    Opens [.name "void", .name w, .symbol "(", .symbol ")"] ⟨none, w, []⟩ where
  start := ⟨.name "void", _, rfl, by simp⟩
  reads n rest hn := by
    obtain ⟨k, rfl⟩ : ∃ k, n = k + 1 := ⟨n - 1, by simp at hn; omega⟩
    have hvoid : ¬ "void" ∈ qualifierWords := by decide +kernel
    show declaration (k + 1)
      ⟨.name "void" :: .name w :: .symbol "(" :: .symbol ")" :: .symbol "\x7b" :: rest, []⟩ = _
    rw [declaration, bind_apply, acceptWord_miss (by decide)]
    show (qualifiers (k + 1) >>= _) ⟨_, []⟩ = _
    rw [bind_apply, qualifiers_none (by decide) hvoid]
    show (acceptWord "void" >>= _) ⟨_, []⟩ = _
    rw [bind_apply, acceptWord_hit]
    show (isType >>= _) ⟨_, []⟩ = _
    rw [bind_apply, isType_free hw]
    show ((pure none : Parse (Option TypeUse)) >>= _) ⟨_, []⟩ = _
    rw [bind_apply]
    show (head? >>= _) ⟨_, []⟩ = _
    rw [bind_apply, head?_hit hw]
    show (parameters (k + 1) >>= _) ⟨_, []⟩ = _
    rw [bind_apply, parameters, bind_apply, accept_hit]
    show (accept ";" >>= _) ⟨.symbol "\x7b" :: rest, []⟩ = _
    rw [bind_apply, accept_miss (by simp)]
    rfl

/-- A function of one value. -/
theorem opens_function {result type v : String} (hresult : (ValueType.ofName? result).isSome)
    (htype : (ValueType.ofName? type).isSome) (hw : IsFree w) (hv : IsFree v) :
    Opens [.name result, .name w, .symbol "(", .name type, .name v, .symbol ")"]
      ⟨some (typeNamed result), w, [⟨[], typeNamed type, some v⟩]⟩ where
  start := ⟨.name result, _, rfl, by simp⟩
  reads n rest hn := by
    obtain ⟨k, rfl⟩ : ∃ k, n = k + 1 := ⟨n - 1, by simp at hn; omega⟩
    have hreserved := notMem_reservedWords htype
    have hlayout : type ≠ "layout" := by
      rintro rfl
      exact absurd htype (by decide +kernel)
    have hvoid : Token.name type ≠ .name "void" := by
      intro heq
      exact hreserved (Token.name.inj heq ▸ by decide +kernel)
    have hnext :
        ∀ text ts, isNext text ⟨.name v :: ts, []⟩ = some (false, ⟨.name v :: ts, []⟩) := by
      intro text ts
      show some ((Token.name v).isSymbol text, _) = _
      rw [Token.isSymbol, beq_eq_false_iff_ne.mpr (by simp)]
    have hparameter : ∀ ts, .symbol "[" ∉ ts.head? →
        parameter (k + 1) ⟨.name type :: .name v :: ts, []⟩ =
          some (⟨[], typeNamed type, some v⟩, ⟨ts, []⟩) := by
      intro ts hts
      rw [parameter, bind_apply,
        qualifiers_none hlayout fun hmem => hreserved (List.mem_append_left _ hmem)]
      show (typeUse (k + 1) >>= _) ⟨_, []⟩ = _
      rw [bind_apply, typeUse_named htype (by simp)]
      show (isNext "," >>= _) ⟨_, []⟩ = _
      rw [bind_apply, hnext]
      show (isNext ")" >>= _) ⟨_, []⟩ = _
      rw [bind_apply, hnext]
      show (name >>= _) ⟨_, []⟩ = _
      rw [bind_apply, name_free hv]
      show (arrayLengths (k + 1) >>= _) ⟨_, []⟩ = _
      rw [bind_apply, arrayLengths_none hts]
      rfl
    have hparameters : ∀ ts, parameters (k + 1) ⟨.name type :: .name v :: .symbol ")" :: ts, []⟩ =
        some ([⟨[], typeNamed type, some v⟩], ⟨ts, []⟩) := by
      intro ts
      rw [parameters, bind_apply, accept_miss (by simp)]
      show (acceptWord "void" >>= _) ⟨_, []⟩ = _
      rw [bind_apply, acceptWord_miss hvoid]
      show (separated (parameter (k + 1)) (k + 1) >>= _) ⟨_, []⟩ = _
      rw [bind_apply, separated, bind_apply, hparameter _ (by simp)]
      show Option.bind ((accept "," >>= _) ⟨_, []⟩) _ = _
      rw [bind_apply, accept_miss (by simp)]
      show (expect ")" >>= _) ⟨_, []⟩ = _
      rw [bind_apply, expect_hit]
      rfl
    show declaration (k + 1) ⟨.name result :: .name w :: .symbol "(" :: .name type :: .name v ::
      .symbol ")" :: .symbol "\x7b" :: rest, []⟩ = _
    rw [declaration_named hresult (by simp), bind_apply, head?_hit hw]
    show (parameters (k + 1) >>= _) ⟨_, []⟩ = _
    rw [bind_apply, hparameters]
    show (accept ";" >>= _) ⟨_, []⟩ = _
    rw [bind_apply, accept_miss (by simp)]
    rfl

end Parse

namespace Item

/-- The parts of a text that has no directives. -/
def listOf? (text : String) : Option (List Item) :=
  (Token.ofText? text).bind fun tokens => ofSource? { version := 450, tokens }

/-- **A function** is read from its head and the statements of its body. -/
theorem listOf?_function {text : String} {ts : List Token} {tss : List (List Token)}
    {signature : Signature} {ss : List Statement}
    (htext : Token.ofText? text = some (ts ++ .symbol "\x7b" :: (tss.flatten ++ [.symbol "\x7d"])))
    (hhead : Parse.Opens ts signature) (hbody : List.Forall₂ Parse.Says tss ss) :
    listOf? text = some [.function signature ss] := by
  obtain ⟨t, us, rfl, ht⟩ := hhead.start
  have hsymbol : t.isSymbol ";" = false := beq_eq_false_iff_ne.mpr ht
  rw [listOf?, htext, Option.bind_some, ofSource?]
  generalize hsize : (t :: us ++ Token.symbol "\x7b" :: (tss.flatten ++ [.symbol "\x7d"])).length =
    size
  simp only [List.length_append, List.length_cons, List.length_nil] at hsize
  obtain ⟨k, hk⟩ : ∃ k, size = k + 1 := ⟨size - 1, by omega⟩
  have hend : Parse.items 450 (16 * size + 16) size ⟨[], []⟩ = some ([], ⟨[], []⟩) := by
    rw [hk]
    rfl
  have hitems : Parse.items 450 (16 * size + 16) (size + 1)
      ⟨t :: us ++ .symbol "\x7b" :: (tss.flatten ++ [.symbol "\x7d"]), []⟩ =
        some ([.function signature ss], ⟨[], []⟩) := by
    rw [Parse.items, Parse.bind_apply, Parse.peek?_apply]
    show (if t.isSymbol ";" = true then _ else _ : Parse (List Item)) ⟨_, []⟩ = _
    rw [hsymbol, if_neg Bool.false_ne_true, Parse.bind_apply,
      hhead.reads (16 * size + 16) _ (by simp; omega)]
    show (Parse.expect "\x7b" >>= _) ⟨_, []⟩ = _
    rw [Parse.bind_apply, Parse.expect_hit]
    show (Parse.body (16 * size + 16) >>= _) ⟨_, []⟩ = _
    rw [Parse.bind_apply, Parse.body_reads hbody _ [] (by omega)]
    show (Parse.items 450 (16 * size + 16) size >>= _) ⟨[], []⟩ = _
    rw [Parse.bind_apply, hend]
    rfl
  show Option.map _ (Parse.items 450 _ _ ⟨_, []⟩) = _
  rw [hitems]
  rfl

end Item
end Texel.Shader
