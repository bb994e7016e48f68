import Texel.Proofs.Glsl.Lexing

/-!
# Texel — braces outside of comments

What counts as a brace of a text is said here without the lexer: comments and directive lines are
taken out of the text, and the braces of what remains are counted. The lexer sees these braces and
no others.

* **`visible`** — a text without comments and directive lines.
* **`Braced`** — texts whose braces match for the first time at their end.
* **`Lexer.level_visible`** — the lexer sees the visible braces.
-/

namespace Texel.Glsl

open Text Correspondence

/-! ## Braces -/

/-- By how much a character changes the number of open braces. -/
def brace (c : Char) : Int := if c = '\x7b' then 1 else if c = '\x7d' then -1 else 0

/-- How many more braces a text opens than it closes. -/
def level (cs : List Char) : Int := (cs.map brace).sum

theorem level_cons (c : Char) (cs : List Char) : level (c :: cs) = brace c + level cs := by
  simp [level]

def Lexeme.brace : Lexeme → Int
  | .word _ => 0
  | .symbol c => Glsl.brace c

def lexemeLevel (xs : List Lexeme) : Int := (xs.map Lexeme.brace).sum

theorem lexemeLevel_append (xs ys : List Lexeme) :
    lexemeLevel (xs ++ ys) = lexemeLevel xs + lexemeLevel ys := by
  simp [lexemeLevel]

theorem lexemeLevel_reverse (xs : List Lexeme) : lexemeLevel xs.reverse = lexemeLevel xs := by
  rw [lexemeLevel, List.map_reverse, List.sum_reverse, lexemeLevel]

theorem lexemeLevel_singleton (x : Lexeme) : lexemeLevel [x] = x.brace := by simp [lexemeLevel]

/-! ## Texts without comments -/

/-- What stands behind a block comment. -/
def afterBlock : List Char → List Char
  | [] => []
  | '*' :: '/' :: cs => cs
  | _ :: cs => afterBlock cs

theorem length_afterBlock_le (cs : List Char) : (afterBlock cs).length ≤ cs.length := by
  fun_induction afterBlock cs with
  | case1 => exact Nat.le_refl _
  | case2 cs =>
    simp only [List.length_cons]
    omega
  | case3 c cs _ ih =>
    simp only [List.length_cons]
    omega

/-- What stands from the end of the line on. -/
def fromLineEnd (cs : List Char) : List Char := cs.dropWhile (· ≠ '\n')

theorem length_fromLineEnd_le (cs : List Char) : (fromLineEnd cs).length ≤ cs.length :=
  (List.dropWhile_suffix _).length_le

/-- The characters outside of comments and directive lines. A directive line begins with `#`, where
`fresh` says that only blanks stand before it on its line. -/
def visible (fresh : Bool) : List Char → List Char
  | [] => []
  | '/' :: '/' :: cs => visible false (fromLineEnd cs)
  | '/' :: '*' :: cs => visible false (afterBlock cs)
  | c :: cs =>
    if c = '#' ∧ fresh = true then visible false (fromLineEnd cs)
    else c :: visible (c == '\n' || (fresh && isBlank c)) cs
termination_by cs => cs.length
decreasing_by
  · have := length_fromLineEnd_le cs
    simp only [List.length_cons]
    omega
  · have := length_afterBlock_le cs
    simp only [List.length_cons]
    omega
  · have := length_fromLineEnd_le cs
    simp only [List.length_cons]
    omega
  · simp

/-- A text in braces, which match for the first time at its end. Braces in comments and directive
lines do not count. -/
structure Braced (cs : List Char) : Prop where
  ends : ∃ inner, cs = '\x7b' :: (inner ++ ['\x7d'])
  level : level (visible true cs) = 0
  open_before : ∀ p, p <+: cs → p ≠ [] → p ≠ cs → 0 < Glsl.level (visible true p)

/-- Where a block comment ends, if it does. -/
theorem afterBlock_cases (cs : List Char) :
    (∃ x, cs = x ++ '*' :: '/' :: afterBlock cs ∧ ¬ ['*', '/'] <:+: x) ∨
      ¬ ['*', '/'] <:+: cs ∧ afterBlock cs = [] := by
  fun_induction afterBlock cs with
  | case1 => exact .inr ⟨by simp, rfl⟩
  | case2 cs => exact .inl ⟨[], rfl, by simp⟩
  | case3 c cs hother ih =>
    -- the character in front begins no end of a comment
    have hcons : ∀ x : List Char, x <+: cs → ¬ ['*', '/'] <:+: x → ¬ ['*', '/'] <:+: c :: x := by
      intro x hx hnot hin
      rcases List.infix_cons_iff.mp hin with hin | hin
      · obtain ⟨rest, hrest⟩ := hin
        obtain ⟨rfl, rfl⟩ := List.cons.inj hrest
        obtain ⟨more, hmore⟩ := hx
        exact hother (rest ++ more) rfl hmore.symm
      · exact hnot hin
    rcases ih with ⟨x, hx, hnot⟩ | ⟨hnot, hnil⟩
    · refine .inl ⟨c :: x, by rw [List.cons_append, ← hx], hcons x ⟨_, hx.symm⟩ hnot⟩
    · exact .inr ⟨hcons cs List.prefix_rfl hnot, hnil⟩

namespace Lexer

variable {l : Lexer} {c : Char}

/-- The braces among the tokens found so far. -/
def braces (l : Lexer) : Int := lexemeLevel (l.found.map (·.lexeme))

theorem lexemeLevel_matched {ts : List Token} (h : Matched ts) :
    lexemeLevel (ts.map (·.lexeme)) = 0 := by
  induction h with
  | nil => rfl
  | @plain t ts hopen hclose _ ih =>
    rw [List.map_cons, ← List.singleton_append, lexemeLevel_append, ih, lexemeLevel_singleton]
    cases hx : t.lexeme with
    | word w => rfl
    | symbol c => simp_all [Lexeme.brace, brace]
  | @braces t u ts us ht hu _ _ ih ih' =>
    simp only [List.map_cons, List.map_append, ht, hu]
    rw [← List.singleton_append, ← List.singleton_append (l := us.map _), lexemeLevel_append,
      lexemeLevel_append, lexemeLevel_append, ih, ih', lexemeLevel_singleton, lexemeLevel_singleton]
    decide

theorem braces_of_found {k : Lexer} {ts : List Token} (h : k.found = ts.reverse ++ l.found) :
    k.braces = l.braces + lexemeLevel (ts.map (·.lexeme)) := by
  rw [braces, h, List.map_append, lexemeLevel_append, List.map_reverse, lexemeLevel_reverse, braces,
    add_comm]

theorem braces_close (l : Lexer) : l.close.braces = l.braces := by
  obtain ⟨ts, hts, hfound⟩ := l.matched_close
  rw [braces_of_found hfound, lexemeLevel_matched hts, add_zero]

/-- What a visible character does to the braces; nothing but a slash of its own may open a comment
with the next one. -/
theorem braces_step (hl : l.close.mode = .code)
    (hslash : ∀ start, l.mode = .slash start → c ≠ '/' ∧ c ≠ '*')
    (hline : ¬ (c = '#' ∧ l.fresh = true)) :
    (l.step c).braces = l.braces + brace c ∧ (l.step c).close.mode = .code ∧
      ∀ start, (l.step c).mode = .slash start → c = '/' := by
  -- a symbol that ends what is open before it
  have hsymbol : (l.step c).mode = .code →
      (l.step c).found = .ofSymbol l.offset c :: l.close.found →
      (l.step c).braces = l.braces + brace c ∧ (l.step c).close.mode = .code ∧
        ∀ start, (l.step c).mode = .slash start → c = '/' := by
    intro hmode hfound
    refine ⟨?_, by rw [close_of_code hmode, hmode], fun start h => ?_⟩
    · have hone : (l.step c).found = [Token.ofSymbol l.offset c].reverse ++ l.close.found := hfound
      rw [braces_of_found hone, braces_close]
      exact congrArg _ (lexemeLevel_singleton _)
    · rw [hmode] at h
      cases h
  by_cases hbrace : c = '\x7b' ∨ c = '\x7d'
  · have hfirm : isFirm c = true := by rcases hbrace with rfl | rfl <;> rfl
    obtain ⟨hmode, hfound⟩ := step_firm hl hfirm
    exact hsymbol hmode hfound
  rw [not_or] at hbrace
  by_cases hhash : c = '#'
  · subst hhash
    have hfresh : l.close.fresh = false := by
      rw [fresh_close]
      simpa using hline
    have hended : l.mode.EndedBy '#' := by
      cases hm : l.mode with
      | code => trivial
      | word start chars => exact rfl
      | slash start => exact hslash start hm
      | line | block | star => simp [close, hm] at hl
    have hstep : l.step '#' =
        (l.close.emit (.symbol '#') l.offset (l.offset + '#'.utf8Size)).advance '#' := by
      rw [step_of_ended hended, step, read, hl]
      simp [begin, isBlank, hfresh, Identifier.isStart, offset_close]
    exact hsymbol (by rw [hstep]; rfl) (by rw [hstep]; rfl)
  · have hpasses := passes_plain hl (by simp [hbrace, hhash]) hslash
    obtain ⟨ts, hts, hfound⟩ := hpasses.found
    refine ⟨?_, hpasses.mode, hpasses.slash⟩
    rw [braces_of_found hfound, lexemeLevel_matched hts]
    simp [brace, hbrace]

/-- In a comment, reading `cs` is reading `rest` behind the comment, as far as braces go. -/
def Resumes (l : Lexer) (cs rest : List Char) : Prop :=
  ∃ k : Lexer, k.mode = .code ∧ k.fresh = false ∧ k.braces = l.braces ∧
    (l.run cs).braces = (k.run rest).braces

theorem Resumes.braces_run {cs rest : List Char} {n : Int} (h : l.Resumes cs rest)
    (hrest : ∀ {k : Lexer}, k.fresh = false → k.close.mode = .code →
      (∀ start, k.mode = .slash start → ∀ c ∈ rest.head?, c ≠ '/' ∧ c ≠ '*') →
      (k.run rest).braces = k.braces + n) :
    (l.run cs).braces = l.braces + n := by
  obtain ⟨k, hmode, hfresh, hbraces, hsame⟩ := h
  have hclosed : k.close.mode = .code := by rw [close_of_code hmode, hmode]
  rw [hsame, hrest hfresh hclosed (by rw [hmode]; exact fun _ => Mode.noConfusion), hbraces]

/-- Behind a line comment or a directive line. -/
theorem resumes_line (hl : l.mode = .line) (hfresh : l.fresh = false) (cs : List Char) :
    l.Resumes cs (fromLineEnd cs) := by
  have hskipped : '\n' ∉ cs.takeWhile (· ≠ '\n') := fun h => by
    simpa using List.mem_takeWhile_imp h
  obtain ⟨hmode, hfound⟩ := run_line hl hskipped
  have hstay := fresh_run hfresh hskipped
  have hsplit : l.run cs = (l.run (cs.takeWhile (· ≠ '\n'))).run (fromLineEnd cs) := by
    rw [← run_append, fromLineEnd, List.takeWhile_append_dropWhile]
  rw [Resumes, hsplit]
  generalize l.run (cs.takeWhile (· ≠ '\n')) = k at hmode hfound hstay
  refine ⟨{ k with mode := .code }, rfl, hstay, by rw [braces, braces, hfound], ?_⟩
  cases hrest : fromLineEnd cs with
  | nil => rfl
  | cons c rest =>
    have hc : c = '\n' := by
      have := List.head?_dropWhile_not (· ≠ '\n') cs
      rw [← fromLineEnd, hrest] at this
      simpa using this
    subst hc
    have hstep : k.step '\n' = ({ k with mode := .code } : Lexer).step '\n' := by
      simp [step, read, begin, hmode, isBlank]
    rw [run_cons, run_cons, hstep]

/-- Behind a block comment. -/
theorem resumes_block (hl : l.mode = .block) (cs : List Char) : l.Resumes cs (afterBlock cs) := by
  rcases afterBlock_cases cs with ⟨x, hcs, hx⟩ | ⟨hopen, hnil⟩
  · have hskips := skips_block hx hl
    have hsplit : cs = (x ++ ['*', '/']) ++ afterBlock cs := by
      rw [List.append_assoc]
      exact hcs
    refine ⟨l.run (x ++ ['*', '/']), hskips.mode, ?_, by rw [braces, braces, hskips.found], ?_⟩
    · rw [show x ++ ['*', '/'] = x ++ ['*'] ++ ['/'] by simp]
      exact fresh_concat l _ rfl
    · conv_lhs => rw [hsplit, run_append]
  · obtain ⟨-, hfound⟩ := run_block hopen (.inl hl)
    refine ⟨{ l with mode := .code, fresh := false }, rfl, rfl, rfl, ?_⟩
    rw [hnil, braces, hfound]
    rfl

/-- **Visible braces** are those that the lexer sees. -/
theorem level_visible (cs : List Char) {fresh : Bool} (hfresh : l.fresh = fresh)
    (hl : l.close.mode = .code)
    (hslash : ∀ start, l.mode = .slash start → ∀ c ∈ cs.head?, c ≠ '/' ∧ c ≠ '*') :
    (l.run cs).braces = l.braces + level (visible fresh cs) := by
  -- a comment begins with a slash that ends what is open before it
  have hclose : ∀ {k : Lexer} {c : Char} {rest : List Char}, k.close.mode = .code →
      (∀ start, k.mode = .slash start → ∀ d ∈ (c :: rest).head?, d ≠ '/' ∧ d ≠ '*') →
      Identifier.isPart c = false → k.run (c :: rest) = k.close.run (c :: rest) := by
    intro k c rest hk hopen hpart
    refine run_of_ended ?_
    cases hm : k.mode with
    | code => trivial
    | word start chars => exact hpart
    | slash start => exact hopen start hm c rfl
    | line | block | star => simp [close, hm] at hk
  fun_induction visible fresh cs generalizing l with
  | case1 fresh => simp [run, level]
  | case2 fresh cs ih =>
    have hopen := open_line hl
    have hrun : l.run ('/' :: '/' :: cs) = (l.close.run ['/', '/']).run cs := by
      rw [hclose hl hslash rfl, ← run_append]
      rfl
    have hnotFresh : (l.close.run ['/', '/']).fresh = false := fresh_concat _ ['/'] rfl
    rw [hrun, (resumes_line hopen.1 hnotFresh cs).braces_run ih, braces, hopen.2, ← braces,
      braces_close]
  | case3 fresh cs ih =>
    have hopen := open_block hl
    have hrun : l.run ('/' :: '*' :: cs) = (l.close.run ['/', '*']).run cs := by
      rw [hclose hl hslash rfl, ← run_append]
      rfl
    rw [hrun, (resumes_block hopen.1 cs).braces_run ih, braces, hopen.2, ← braces, braces_close]
  | case4 fresh c cs _ _ hline ih =>
    obtain ⟨rfl, rfl⟩ := hline
    have hrun : l.run ('#' :: cs) = (l.close.step '#').run cs := hclose hl hslash rfl
    have hstep : l.close.step '#' = ({ l.close with mode := .line } : Lexer).advance '#' := by
      rw [step, read, hl]
      simp [begin, isBlank, fresh_close, hfresh]
    have hmode : (l.close.step '#').mode = .line := by rw [hstep]; rfl
    have hnotFresh : (l.close.step '#').fresh = false := fresh_concat _ [] rfl
    have hkept : (l.close.step '#').braces = l.braces := by
      rw [hstep, ← braces_close l]
      rfl
    rw [hrun, (resumes_line hmode hnotFresh cs).braces_run ih, hkept]
  | case5 fresh c cs hnotLine hnotBlock hline ih =>
    obtain ⟨hbraces, hmode, hopens⟩ := braces_step hl (fun start hm => hslash start hm c rfl)
      (by rwa [hfresh])
    have hnext : ∀ start, (l.step c).mode = .slash start → ∀ d ∈ cs.head?, d ≠ '/' ∧ d ≠ '*' := by
      intro start hm d hd
      have hc := hopens start hm
      obtain ⟨rest, rfl⟩ := List.head?_eq_some_iff.mp hd
      refine ⟨?_, ?_⟩
      · rintro rfl
        exact hnotLine rest hc rfl
      · rintro rfl
        exact hnotBlock rest hc rfl
    rw [run_cons, ih (by rw [fresh_step, hfresh]) hmode hnext, hbraces, level_cons, add_assoc]

end Lexer

end Texel.Glsl
