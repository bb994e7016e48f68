import Texel.Proofs.Glsl.Braces
import Texel.Proofs.Glsl.Extraction

/-!
# Texel — where definitions stand

Every span that scanning returns can be cut out of the text, whatever the text is. A definition
begins with its return type, its body follows behind it and ends with it, and no two definitions
overlap. The braces of a body match for the first time at its end.

* **`Token.StandsIn`**, **`Lexer.pairwise_finish`** — tokens are pieces of the text, one behind the
  other.
* **`Reader.Ordered`**, **`Reader.Bodied`** — what the reader keeps about the functions it has
  found.
* **`functionsIn_spans`** — the result.
-/

namespace Texel.Glsl

open Text Correspondence

/-! ## Tokens in their text -/

def Lexeme.chars : Lexeme → List Char
  | .word chars => chars
  | .symbol c => [c]

/-- The token is what the text says at its span. -/
structure Token.StandsIn (t : Token) (cs : List Char) : Prop where
  nonempty : t.lexeme.chars ≠ []
  place : ∃ a b, cs = a ++ t.lexeme.chars ++ b ∧
    t.span = ⟨byteSize a, byteSize (a ++ t.lexeme.chars)⟩

namespace Token.StandsIn

variable {t : Token} {cs : List Char}

theorem append (h : t.StandsIn cs) (more : List Char) : t.StandsIn (cs ++ more) := by
  obtain ⟨a, b, hcs, hspan⟩ := h.place
  exact ⟨h.nonempty, a, b ++ more, by rw [hcs]; simp, hspan⟩

theorem start_lt_stop (h : t.StandsIn cs) : t.span.start < t.span.stop := by
  obtain ⟨a, b, -, hspan⟩ := h.place
  have := byteSize_pos h.nonempty
  simp only [hspan, byteSize_append]
  omega

theorem stop_le (h : t.StandsIn cs) : t.span.stop ≤ byteSize cs := by
  obtain ⟨a, b, hcs, hspan⟩ := h.place
  simp only [hspan, hcs, byteSize_append]
  omega

/-- A token at the start of a text. -/
theorem exists_append (h : t.StandsIn cs) (hstart : t.span.start = 0) :
    ∃ b, cs = t.lexeme.chars ++ b := by
  obtain ⟨a, b, hcs, hspan⟩ := h.place
  rw [hspan] at hstart
  rw [byteSize_eq_zero_iff.mp hstart] at hcs
  exact ⟨b, hcs⟩

/-- A token at the end of a text. -/
theorem exists_append' (h : t.StandsIn cs) (hstop : t.span.stop = byteSize cs) :
    ∃ a, cs = a ++ t.lexeme.chars ∧ byteSize a = t.span.start := by
  obtain ⟨a, b, hcs, hspan⟩ := h.place
  have hb : byteSize b = 0 := by
    simp only [hspan, hcs, byteSize_append] at hstop
    omega
  rw [byteSize_eq_zero_iff.mp hb, List.append_nil] at hcs
  exact ⟨a, hcs, by rw [hspan]⟩

end Token.StandsIn

namespace Lexer

/-- How the tokens change with a character: not at all, by the slash of a comment that is taken
back, by a longer last word, or by another token. -/
theorem finish_step (l : Lexer) (c : Char) :
    (l.step c).finish = l.finish ∨
    (∃ t, l.finish = (l.step c).finish ++ [t]) ∨
    (∃ before start w, l.finish = before ++ [⟨.word w, ⟨start, l.offset⟩⟩] ∧
      (l.step c).finish = before ++ [⟨.word (w ++ [c]), ⟨start, l.offset + c.utf8Size⟩⟩]) ∨
    ∃ x : Lexeme, x.chars = [c] ∧
      (l.step c).finish = l.finish ++ [⟨x, ⟨l.offset, l.offset + c.utf8Size⟩⟩] := by
  cases l.takes c with
  | nothing h => exact .inl h
  | comment t h => exact .inr (.inl ⟨t, h⟩)
  | longer before start w h h' => exact .inr (.inr (.inl ⟨before, start, w, h, h'⟩))
  | word hc h =>
    refine .inr (.inr (.inr ⟨.word [c], rfl, ?_⟩))
    rw [h]
    simp [finish, close, emit]
  | symbol h =>
    refine .inr (.inr (.inr ⟨.symbol c, rfl, ?_⟩))
    rw [h]
    simp [finish, close, Token.ofSymbol]
  | slash hc h => exact .inr (.inr (.inr ⟨.symbol c, rfl, h⟩))

theorem offset_run_start (cs : List Char) : (run {} cs).offset = byteSize cs :=
  (offset_run {} cs).trans (Nat.zero_add _)

theorem standsIn_of_mem_finish {cs : List Char} {t : Token} (h : t ∈ (run {} cs).finish) :
    t.StandsIn cs := by
  induction cs using List.reverseRecOn generalizing t with
  | nil => exact absurd h List.not_mem_nil
  | append_singleton cs c ih =>
    have hoffset := offset_run_start cs
    rw [run_concat] at h
    rcases finish_step (run {} cs) c with hsame | ⟨s, hless⟩ |
      ⟨before, start, w, hword, hlonger⟩ | ⟨x, hx, hmore⟩
    · exact (ih (hsame ▸ h)).append [c]
    · exact (ih (hless ▸ List.mem_append_left _ h)).append [c]
    · rw [hlonger, List.mem_append, List.mem_singleton] at h
      rcases h with h | rfl
      · exact (ih (hword ▸ List.mem_append_left _ h)).append [c]
      · -- the word reached to the end of the text before, and does so again
        have hshorter : Token.StandsIn ⟨.word w, ⟨start, (run {} cs).offset⟩⟩ cs :=
          ih (hword ▸ List.mem_append_right _ (List.mem_singleton_self _))
        obtain ⟨a, hcs, hstart⟩ := hshorter.exists_append' hoffset
        have hcs : cs = a ++ w := hcs
        refine ⟨by simp [Lexeme.chars], a, [], by simp [hcs, Lexeme.chars], ?_⟩
        simp only [Lexeme.chars, Span.mk.injEq]
        refine ⟨hstart.symm, ?_⟩
        rw [hoffset, hcs, ← List.append_assoc, byteSize_append (a ++ w), byteSize_singleton]
    · rw [hmore, List.mem_append, List.mem_singleton] at h
      rcases h with h | rfl
      · exact (ih h).append [c]
      · refine ⟨by simp [hx], cs, [], by simp [hx], ?_⟩
        simp only [hx, hoffset, byteSize_append, byteSize_singleton]

/-- **Tokens** follow one another. -/
theorem pairwise_finish (cs : List Char) :
    (run {} cs).finish.Pairwise fun t u => t.span.stop ≤ u.span.start := by
  induction cs using List.reverseRecOn with
  | nil => exact .nil
  | append_singleton cs c ih =>
    rw [run_concat]
    rcases finish_step (run {} cs) c with hsame | ⟨s, hless⟩ |
      ⟨before, start, w, hword, hlonger⟩ | ⟨x, hx, hmore⟩
    · rwa [hsame]
    · rw [hless] at ih
      exact (List.pairwise_append.mp ih).1
    · rw [hword, List.pairwise_append] at ih
      rw [hlonger, List.pairwise_append]
      refine ⟨ih.1, List.pairwise_singleton _ _, fun t ht u hu => ?_⟩
      have hstart := ih.2.2 t ht _ (List.mem_singleton_self _)
      rw [List.mem_singleton.mp hu]
      exact hstart
    · rw [hmore, List.pairwise_append]
      refine ⟨ih, List.pairwise_singleton _ _, fun t ht u hu => ?_⟩
      rw [List.mem_singleton.mp hu, offset_run_start]
      exact (standsIn_of_mem_finish ht).stop_le

/-- A token that ends a text is not found in a proper part of it. -/
theorem notMem_found {cs p : List Char} {t : Token} (hp : p <+: cs) (hproper : p ≠ cs)
    (hstop : t.span.stop = byteSize cs) : t ∉ (run {} p).found := by
  intro hmem
  obtain ⟨q, rfl⟩ := hp
  have hq : q ≠ [] := by
    rintro rfl
    exact hproper (List.append_nil p).symm
  have hfinish : t ∈ (run {} p).finish := by
    rw [finish, List.mem_reverse]
    exact (found_close _).subset hmem
  have hle := (standsIn_of_mem_finish hfinish).stop_le
  have hpos := byteSize_pos hq
  rw [hstop, byteSize_append] at hle
  omega

theorem found_brace_ne_nil (cs : List Char) : (run {} ('\x7b' :: cs)).found ≠ [] := by
  intro hnil
  have hsuffix := found_run (step {} '\x7b') cs
  rw [← run_cons, hnil] at hsuffix
  exact absurd (List.suffix_nil.mp hsuffix) (List.cons_ne_nil _ _)

/-- The visible braces of a whole text. -/
theorem level_visible_start (cs : List Char) :
    level (visible true cs) = lexemeLevel ((run {} cs).found.reverse.map (·.lexeme)) := by
  have hrun := level_visible (l := {}) cs rfl rfl fun _ => Mode.noConfusion
  rw [List.map_reverse, lexemeLevel_reverse, ← braces, hrun]
  exact (zero_add _).symm

end Lexer

/-! ## Definitions one behind the other -/

/-- Where the words began that a definition may turn out to begin with. -/
def Stage.starts : Stage → List Nat
  | .outside | .block _ => []
  | .type _ start => [start]
  | .name head second => [head.start, second]
  | .parameters head _ _ | .closed head _ | .body head _ _ _ _ => [head.start]

namespace Reader

variable {ts : List Token} {r : Reader} {t : Token}

/-- A token adds a function only where it ends a body. -/
theorem step_cases (r : Reader) (t : Token) :
    (r.step t).found = r.found ∨
    ∃ head groups start depth tokens, r.stage = .body head groups start depth tokens ∧
      depthAfter depth t = 0 ∧
      r.step t =
      ⟨.outside, function head groups start t.span.stop (t :: tokens).reverse :: r.found⟩ := by
  obtain ⟨stage, found⟩ := r
  unfold step
  cases stage with
  | outside | type | parameters | closed | block => exact .inl rfl
  | name head second =>
    refine .inl ?_
    dsimp only
    split_ifs <;> rfl
  | body head groups start depth tokens =>
    dsimp only
    split_ifs with hend
    · exact .inr ⟨head, groups, start, depth, tokens, rfl, hend, rfl⟩
    · exact .inl rfl

theorem starts_outsideStep (t : Token) : ∀ s ∈ (outsideStep t).starts, s = t.span.start := by
  unfold outsideStep
  split <;> simp [Stage.starts]

theorem starts_typeStep (word : String) (start : Nat) (t : Token) :
    ∀ s ∈ (typeStep word start t).starts, s = start ∨ s = t.span.start := by
  unfold typeStep
  split
  · simp [Stage.starts]
  · exact fun s hs => .inr (starts_outsideStep t s hs)

/-- What is being read began with an earlier word, or begins with this token. -/
theorem starts_step (r : Reader) (t : Token) :
    ∀ s ∈ (r.step t).stage.starts, s ∈ r.stage.starts ∨ s = t.span.start := by
  obtain ⟨stage, found⟩ := r
  have houtside : ∀ s ∈ (outsideStep t).starts, s ∈ stage.starts ∨ s = t.span.start :=
    fun s hs => .inr (starts_outsideStep t s hs)
  unfold step
  cases stage with
  | outside => exact houtside
  | type word start =>
    intro s hs
    exact (starts_typeStep word start t s hs).imp_left List.mem_singleton.mpr
  | name head second =>
    dsimp only
    split_ifs
    · exact fun s hs => .inl (List.mem_cons.mpr (.inl (List.mem_singleton.mp hs)))
    · intro s hs
      refine (starts_typeStep head.name second t s hs).imp_left fun hsecond => ?_
      rw [hsecond]
      simp [Stage.starts]
  | parameters head groups words =>
    dsimp only
    unfold parametersStep
    split
    · exact fun s hs => .inl hs
    · exact fun s hs => .inl hs
    · exact fun s hs => .inl hs
    · exact houtside
  | closed head groups =>
    dsimp only
    unfold closedStep
    split
    · exact fun s hs => .inl hs
    · exact fun s hs => absurd hs List.not_mem_nil
    · exact houtside
  | body head groups start depth tokens =>
    dsimp only
    split_ifs
    · exact fun s hs => absurd hs List.not_mem_nil
    · exact fun s hs => .inl hs
  | block depth =>
    dsimp only
    split_ifs <;> exact fun s hs => absurd hs List.not_mem_nil

/-- The functions found among some tokens follow one another, and what is being read follows them
all. -/
structure Ordered (ts : List Token) (r : Reader) : Prop where
  stops : ∀ f ∈ r.found, ∃ t ∈ ts, f.definition.stop = t.span.stop
  pending : ∀ f ∈ r.found, ∀ s ∈ r.stage.starts, f.definition.stop ≤ s
  /-- The last function comes first. -/
  pairwise : r.found.Pairwise fun g f => f.definition.stop ≤ g.definition.start

theorem Ordered.step (h : Ordered ts r) (ht : ∀ u ∈ ts, u.span.stop ≤ t.span.start) :
    Ordered (ts ++ [t]) (r.step t) := by
  have hstops : ∀ f ∈ r.found, ∃ u ∈ ts ++ [t], f.definition.stop = u.span.stop := by
    intro f hf
    obtain ⟨u, hu, hstop⟩ := h.stops f hf
    exact ⟨u, List.mem_append_left _ hu, hstop⟩
  rcases step_cases r t with hsame | ⟨head, groups, start, depth, tokens, hstage, -, hstep⟩
  · refine ⟨hsame ▸ hstops, fun f hf s hs => ?_, hsame ▸ h.pairwise⟩
    rw [hsame] at hf
    rcases starts_step r t s hs with hearlier | rfl
    · exact h.pending f hf s hearlier
    · obtain ⟨u, hu, hstop⟩ := h.stops f hf
      exact hstop ▸ ht u hu
  · rw [hstep]
    refine ⟨?_, fun _ _ s hs => absurd hs List.not_mem_nil, List.pairwise_cons.mpr ⟨?_, h.pairwise⟩⟩
    · rw [List.forall_mem_cons]
      exact ⟨⟨t, List.mem_append_right _ (List.mem_singleton_self t), rfl⟩, hstops⟩
    · -- the new function begins where its head began, which is behind all earlier ones
      intro f hf
      exact h.pending f hf head.start (by rw [hstage]; exact List.mem_singleton_self _)

theorem ordered_of_pairwise (h : ts.Pairwise fun t u => t.span.stop ≤ u.span.start) :
    Ordered ts (ts.foldl step {}) := by
  induction ts using List.reverseRecOn with
  | nil => exact ⟨by simp, by simp, .nil⟩
  | append_singleton ts t ih =>
    obtain ⟨hts, -, hlast⟩ := List.pairwise_append.mp h
    rw [List.foldl_append]
    exact (ih hts).step fun u hu => hlast u hu t (List.mem_singleton_self t)

end Reader

/-! ## Bodies -/

/-- The lexemes of a body that is not closed yet. -/
structure Opening (xs : List Lexeme) (depth : Nat) : Prop where
  first : xs.head? = some (.symbol '\x7b')
  level : lexemeLevel xs = depth
  positive : ∀ p, p <+: xs → p ≠ [] → 0 < lexemeLevel p

theorem Opening.depth_pos {xs : List Lexeme} {depth : Nat} (h : Opening xs depth) : 0 < depth := by
  have hne : xs ≠ [] := by
    rintro rfl
    cases h.first
  have hpos := h.positive xs List.prefix_rfl hne
  rw [h.level] at hpos
  exact_mod_cast hpos

theorem Opening.start : Opening [.symbol '\x7b'] 1 := by
  refine ⟨rfl, rfl, fun p hp hne => ?_⟩
  rcases List.prefix_cons_iff.mp hp with rfl | ⟨q, rfl, hq⟩
  · exact absurd rfl hne
  · rw [List.prefix_nil.mp hq]
    decide

/-- Closing a brace that is open is subtracting one. -/
theorem depthAfter_of_pos {depth : Nat} (h : 0 < depth) (t : Token) :
    (Reader.depthAfter depth t : Int) = depth + t.lexeme.brace := by
  unfold Reader.depthAfter
  split
  · next ht => simp [ht, Lexeme.brace, brace]
  · next ht =>
    simp only [ht, Lexeme.brace, brace]
    simp
    omega
  · next hopen hclose =>
    cases hx : t.lexeme with
    | word w => simp [Lexeme.brace]
    | symbol c =>
      have hopen : c ≠ '\x7b' := fun hc => hopen (by rw [hx, hc])
      have hclose : c ≠ '\x7d' := fun hc => hclose (by rw [hx, hc])
      simp [Lexeme.brace, brace, hopen, hclose]

theorem Opening.concat {xs : List Lexeme} {depth : Nat} {t : Token} (h : Opening xs depth)
    (hpos : Reader.depthAfter depth t ≠ 0) :
    Opening (xs ++ [t.lexeme]) (Reader.depthAfter depth t) := by
  have hlevel : lexemeLevel (xs ++ [t.lexeme]) = Reader.depthAfter depth t := by
    rw [lexemeLevel_append, lexemeLevel_singleton, h.level, depthAfter_of_pos h.depth_pos]
  refine ⟨by rw [List.head?_append, h.first]; rfl, hlevel, fun p hp hne => ?_⟩
  rcases List.prefix_concat_iff.mp hp with rfl | hp
  · rw [hlevel]
    exact_mod_cast Nat.pos_of_ne_zero hpos
  · exact h.positive p hp hne

namespace Reader

/-- The body of a function among other tokens, and the calls in it. -/
def Bodied (ts : List Token) (f : Function) : Prop :=
  ∃ (before : List Token) (first : Token) (inner : List Token) (last : Token) (after : List Token),
    ts = before ++ (first :: inner) ++ last :: after ∧
    f.body = ⟨first.span.start, last.span.stop⟩ ∧ f.definition.stop = last.span.stop ∧
    last.lexeme = .symbol '\x7d' ∧ Opening ((first :: inner).map (·.lexeme)) 1 ∧
    f.calls = callsIn f.name (first :: inner ++ [last])

/-- The tokens of a body that is being read come last. -/
def Pending (ts : List Token) : Stage → Prop
  | .body _ _ start depth tokens =>
    ∃ (before : List Token) (first : Token) (inner : List Token),
      tokens.reverse = first :: inner ∧ ts = before ++ first :: inner ∧
      start = first.span.start ∧ Opening ((first :: inner).map (·.lexeme)) depth
  | _ => True

variable {ts : List Token} {t : Token}

theorem Bodied.append {f : Function} (h : Bodied ts f) (more : List Token) :
    Bodied (ts ++ more) f := by
  obtain ⟨before, first, inner, last, after, rfl, hrest⟩ := h
  exact ⟨before, first, inner, last, after ++ more, by simp, hrest⟩

theorem pending_outsideStep (ts : List Token) (t : Token) : Pending ts (outsideStep t) := by
  unfold outsideStep
  split <;> trivial

theorem pending_typeStep (ts : List Token) (word : String) (start : Nat) (t : Token) :
    Pending ts (typeStep word start t) := by
  unfold typeStep
  split
  · trivial
  · exact pending_outsideStep ts t

/-- The brace that closes the first one ends the body. -/
theorem Pending.bodied {head : Head} {groups : List (List String)} {start depth : Nat}
    {tokens : List Token} (h : Pending ts (.body head groups start depth tokens))
    (hend : depthAfter depth t = 0) :
    Bodied (ts ++ [t]) (function head groups start t.span.stop (t :: tokens).reverse) := by
  obtain ⟨before, first, inner, htokens, rfl, rfl, hopening⟩ := h
  have hdepth := hopening.depth_pos
  have hone : depth = 1 ∧ t.lexeme = .symbol '\x7d' := by
    unfold depthAfter at hend
    split at hend
    · omega
    · exact ⟨by omega, by assumption⟩
    · omega
  obtain ⟨rfl, hlast⟩ := hone
  refine ⟨before, first, inner, t, [], by simp, rfl, rfl, hlast, hopening, ?_⟩
  show callsIn head.name (t :: tokens).reverse = callsIn head.name _
  rw [List.reverse_cons, htokens]

/-- **Bodies** are made of the tokens between matching braces. -/
theorem bodied (ts : List Token) :
    Pending ts (ts.foldl step {}).stage ∧ ∀ f ∈ (ts.foldl step {}).found, Bodied ts f := by
  induction ts using List.reverseRecOn with
  | nil => exact ⟨trivial, fun f hf => absurd hf List.not_mem_nil⟩
  | append_singleton ts t ih =>
    obtain ⟨hstage, hfound⟩ := ih
    rw [List.foldl_append, List.foldl_cons, List.foldl_nil]
    generalize ts.foldl step {} = r at hstage hfound
    obtain ⟨stage, found⟩ := r
    have hkept : ∀ f ∈ found, Bodied (ts ++ [t]) f := fun f hf => (hfound f hf).append [t]
    cases stage with
    | outside => exact ⟨pending_outsideStep _ t, hkept⟩
    | type word start => exact ⟨pending_typeStep _ word start t, hkept⟩
    | name head second =>
      unfold step
      dsimp only
      split_ifs
      · exact ⟨trivial, hkept⟩
      · exact ⟨pending_typeStep _ _ _ t, hkept⟩
    | parameters head groups words =>
      refine ⟨?_, hkept⟩
      show Pending _ (parametersStep head groups words t)
      unfold parametersStep
      split
      · trivial
      · trivial
      · trivial
      · exact pending_outsideStep _ t
    | closed head groups =>
      refine ⟨?_, hkept⟩
      show Pending _ (closedStep head groups t)
      unfold closedStep
      split
      · next hbrace =>
        refine ⟨ts, t, [], rfl, rfl, rfl, ?_⟩
        rw [List.map_singleton, hbrace]
        exact .start
      · trivial
      · exact pending_outsideStep _ t
    | body head groups start depth tokens =>
      unfold step
      dsimp only
      split_ifs with hend
      · refine ⟨trivial, fun f hf => ?_⟩
        rcases List.mem_cons.mp hf with rfl | hf
        · exact hstage.bodied hend
        · exact hkept f hf
      · obtain ⟨before, first, inner, htokens, rfl, hstart, hopening⟩ := hstage
        refine ⟨⟨before, first, inner ++ [t], ?_, by simp, hstart, ?_⟩, hkept⟩
        · rw [List.reverse_cons, htokens, List.cons_append]
        · rw [← List.cons_append, List.map_append, List.map_singleton]
          exact hopening.concat hend
    | block depth =>
      unfold step
      dsimp only
      split_ifs
      · exact ⟨trivial, hkept⟩
      · exact ⟨trivial, hkept⟩

end Reader

/-! ## The spans of functions -/

/-- The spans of a function of a text. That they can be cut out says that their ends are between
characters. -/
structure WellPlaced (source : String) (f : Function) : Prop where
  start_lt : f.definition.start < f.body.start
  body_lt : f.body.start < f.body.stop
  stop_eq : f.body.stop = f.definition.stop
  stop_le : f.definition.stop ≤ byteSize source.toList
  definitionText : ∃ rest, f.definitionText? source = some (f.returnType ++ rest)
  bodyText : ∃ text, f.bodyText? source = some text ∧ Braced text.toList

theorem Correspondence.TokenMeets.lexeme_eq {k : Nat} {t u : Token}
    (h : (Correspondence.shift k).TokenMeets t u) : u.lexeme = t.lexeme := by
  rw [h.lexeme]
  cases t.lexeme <;> rfl

section Excerpts

variable {text : String} {first last : Token} {inner : List Token}
  (hmeets : List.Forall₂ (Correspondence.shift first.span.start).TokenMeets (tokens text)
    (first :: inner ++ [last]))

include hmeets

theorem map_lexeme_excerpt :
    (tokens text).map (·.lexeme) = (first :: inner).map (·.lexeme) ++ [last.lexeme] := by
  have hall : ∀ {ts us : List Token},
      List.Forall₂ (Correspondence.shift first.span.start).TokenMeets ts us →
      ts.map (·.lexeme) = us.map (·.lexeme) := by
    intro ts us h
    induction h with
    | nil => rfl
    | cons ht _ ih => rw [List.map_cons, List.map_cons, ht.lexeme_eq, ih]
  rw [hall hmeets, List.map_append, List.map_singleton]

/-- A piece of a text begins with its first token. -/
theorem exists_first_append : ∃ b, text.toList = first.lexeme.chars ++ b := by
  generalize hts : tokens text = ts at hmeets
  cases hmeets with
  | @cons t _ ts _ ht _ =>
    have hstands : t.StandsIn text.toList :=
      Lexer.standsIn_of_mem_finish (show t ∈ tokens text by rw [hts]; exact List.mem_cons_self)
    have hstart : first.span.start = t.span.start + first.span.start := ht.start
    rw [ht.lexeme_eq]
    exact hstands.exists_append (by omega)

variable (hsize : first.span.start + byteSize text.toList = last.span.stop)
include hsize

/-- Its last token ends it. -/
theorem exists_last :
    ∃ t ∈ tokens text, t.lexeme = last.lexeme ∧ t.span.stop = byteSize text.toList := by
  have hreverse := List.rel_reverse hmeets
  rw [List.reverse_append, List.reverse_singleton, List.singleton_append] at hreverse
  generalize hts : (tokens text).reverse = ts at hreverse
  cases hreverse with
  | @cons t _ ts _ ht _ =>
    have hstop : last.span.stop = t.span.stop + first.span.start := ht.stop
    exact ⟨t, List.mem_reverse.mp (by rw [hts]; exact List.mem_cons_self), ht.lexeme_eq.symm,
      by omega⟩

/-- The text of a body. -/
theorem braced_excerpt (hmode : (Lexer.run {} text.toList).mode = .code)
    (hopening : Opening ((first :: inner).map (·.lexeme)) 1)
    (hlast : last.lexeme = .symbol '\x7d') : Braced text.toList := by
  have hfirst : first.lexeme = .symbol '\x7b' := Option.some.inj hopening.first
  obtain ⟨b, hb⟩ := exists_first_append hmeets
  obtain ⟨t, ht, hlexeme, hstop⟩ := exists_last hmeets hsize
  obtain ⟨a, ha, -⟩ := (Lexer.standsIn_of_mem_finish ht).exists_append' hstop
  rw [hfirst] at hb
  rw [hlexeme, hlast] at ha
  have htokens : (Lexer.run {} text.toList).found.reverse = tokens text := by
    rw [tokens, Lexer.finish, Lexer.close_of_code hmode]
  have hlexemes := map_lexeme_excerpt hmeets
  constructor
  · cases a with
    | nil => exact absurd (List.cons.inj (hb.symm.trans ha)).1 (by decide)
    | cons d a =>
      obtain ⟨rfl, -⟩ := List.cons.inj (hb.symm.trans ha)
      exact ⟨a, ha⟩
  · rw [Lexer.level_visible_start, htokens, hlexemes, lexemeLevel_append, hopening.level,
      lexemeLevel_singleton, hlast]
    rfl
  · -- the tokens found in a proper part are some of those before the closing brace
    intro p hp hne hproper
    have hfound : (Lexer.run {} p).found.reverse <+: tokens text := by
      obtain ⟨q, hq⟩ := hp
      rw [← htokens, ← hq, Lexer.run_append, List.reverse_prefix]
      exact Lexer.found_run _ q
    have hnotAll : t ∉ (Lexer.run {} p).found := Lexer.notMem_found hp hproper hstop
    rw [Lexer.level_visible_start]
    refine hopening.positive _ ?_ ?_
    · have hmap := hfound.map (·.lexeme)
      rw [hlexemes] at hmap
      refine (List.prefix_concat_iff.mp hmap).resolve_left fun hall => hnotAll ?_
      have hlength := congrArg List.length (hall.trans hlexemes.symm)
      rw [List.length_map, List.length_map] at hlength
      rw [← List.mem_reverse, hfound.eq_of_length hlength]
      exact ht
    · obtain ⟨q, hq⟩ := hp
      cases p with
      | nil => exact absurd rfl hne
      | cons d p =>
        obtain ⟨rfl, -⟩ := List.cons.inj (hq.trans hb)
        rw [ne_eq, List.map_eq_nil_iff, List.reverse_eq_nil_iff]
        exact Lexer.found_brace_ne_nil p

end Excerpts

/-- The tokens of a function: its return type, what follows up to its body, and the body. -/
theorem exists_outline {source : String} {f : Function} (h : f ∈ functionsIn source) :
    ∃ (before : List Token) (first : Token) (middle : List Token) (opening : Token)
      (inner : List Token) (closing : Token) (after : List Token),
      tokens source =
        before ++ first :: (middle ++ opening :: (inner ++ closing :: after)) ∧
      first.lexeme = .word f.returnType.toList ∧ closing.lexeme = .symbol '\x7d' ∧
      f.definition = ⟨first.span.start, closing.span.stop⟩ ∧
      f.body = ⟨opening.span.start, closing.span.stop⟩ ∧
      Opening ((opening :: inner).map (·.lexeme)) 1 := by
  obtain ⟨before, first, middle, last, after, w, htokens, hfirst, -, hreturn, hspan, hfold⟩ :=
    (Reader.traced (tokens source)).2 f (List.mem_reverse.mp h)
  obtain ⟨front, opening, inner, closing, rest, hsplit, hbody, hstop, hclosing, hopening, -⟩ :=
    (Reader.bodied (first :: middle ++ [last])).2 f (by rw [hfold]; exact List.mem_singleton_self f)
  have hbrace : opening.lexeme = .symbol '\x7b' := Option.some.inj hopening.first
  -- the body does not begin with the return type, which is a word
  obtain ⟨front, rfl⟩ : ∃ front', front = first :: front' := by
    cases front with
    | nil =>
      obtain ⟨rfl, -⟩ := List.cons.inj hsplit
      rw [hfirst] at hbrace
      cases hbrace
    | cons u front =>
      obtain ⟨rfl, -⟩ := List.cons.inj hsplit
      exact ⟨front, rfl⟩
  refine ⟨before, first, front, opening, inner, closing, rest ++ after, ?_, ?_, hclosing, ?_, hbody,
    hopening⟩
  · have hsame : tokens source = before ++ (first :: middle ++ [last]) ++ after := by
      rw [htokens]
      simp
    rw [hsame, hsplit]
    simp
  · rw [hreturn, String.toList_ofList, hfirst]
  · rw [← hstop, hspan]

theorem wellPlaced_of_mem {source : String} {f : Function} (h : f ∈ functionsIn source) :
    WellPlaced source f := by
  obtain ⟨before, first, middle, opening, inner, closing, after, htokens, hfirst, hclosing,
    hdefinition, hbody, hopening⟩ := exists_outline h
  have hstands : ∀ t ∈ tokens source, t.StandsIn source.toList := fun t ht =>
    Lexer.standsIn_of_mem_finish ht
  have hfirstSize := (hstands first (by rw [htokens]; simp)).start_lt_stop
  have hopeningSize := (hstands opening (by rw [htokens]; simp)).start_lt_stop
  have hclosingIn := hstands closing (by rw [htokens]; simp)
  have hclosingSize := hclosingIn.start_lt_stop
  -- the return type stands before the opening brace, and that before the closing one
  have hpairwise : (tokens source).Pairwise fun t u => t.span.stop ≤ u.span.start :=
    Lexer.pairwise_finish source.toList
  rw [htokens, List.pairwise_append, List.pairwise_cons, List.pairwise_append,
    List.pairwise_cons] at hpairwise
  have hheadOrder := hpairwise.2.1.1 opening (by simp)
  have hbodyOrder := hpairwise.2.1.2.2.1.1 closing (by simp)
  have hwhole : tokens source =
      before ++ (first :: (middle ++ opening :: inner)) ++ closing :: after := by
    rw [htokens]
    simp
  have hpart : tokens source =
      (before ++ first :: middle) ++ (opening :: inner) ++ closing :: after := by
    rw [htokens]
    simp
  obtain ⟨text, htext, -, hmeets⟩ := exists_slice? hwhole (.inl ⟨_, hfirst⟩) hclosing
  obtain ⟨inside, hinside, hmode, hinsideMeets⟩ :=
    exists_slice? hpart (.inr (Option.some.inj hopening.first)) hclosing
  obtain ⟨b, hb⟩ := exists_first_append hmeets
  constructor
  · rw [hdefinition, hbody]
    exact lt_of_lt_of_le hfirstSize hheadOrder
  · rw [hbody]
    show opening.span.start < closing.span.stop
    omega
  · rw [hbody, hdefinition]
  · rw [hdefinition]
    exact hclosingIn.stop_le
  · refine ⟨String.ofList b, ?_⟩
    rw [Function.definitionText?, hdefinition, htext, Option.some_inj, ← String.toList_inj, hb,
      hfirst, String.toList_append, String.toList_ofList]
    rfl
  · refine ⟨inside, by rw [Function.bodyText?, hbody, hinside], ?_⟩
    exact braced_excerpt hinsideMeets (byteSize_slice? hinside) hmode hopening hclosing

/-- **Spans.** Scanning any text gives functions with sound spans, one behind the other. -/
theorem functionsIn_spans (source : String) :
    (∀ f ∈ functionsIn source, WellPlaced source f) ∧
      (functionsIn source).Pairwise fun f g => f.definition.stop ≤ g.definition.start := by
  refine ⟨fun f hf => wellPlaced_of_mem hf, ?_⟩
  have hordered := Reader.ordered_of_pairwise (Lexer.pairwise_finish source.toList)
  exact List.pairwise_reverse.mpr hordered.pairwise

theorem crammed_wellPlaced :
    crammedFunction ∈ functionsIn crammed ∧ WellPlaced crammed crammedFunction :=
  have hmem : crammedFunction ∈ functionsIn crammed := by decide +kernel
  ⟨hmem, (functionsIn_spans crammed).1 crammedFunction hmem⟩

end Texel.Glsl
