import Texel.Proofs.Glsl.Correspondence

/-!
# Texel — libraries put together

The library of a program is put together from the libraries of its operators, one behind the other.
A text is **settled** when it ends between two tokens, at the start of a line and outside of every
definition. What is scanned behind a settled text is what is scanned of the rest alone: a library
that is put together from settled texts holds the definitions of its parts, in their order, each
with the text that it has there.

* **`Entry`** — what pasting and calling use of a function: its parameters, the functions it calls
  and the text of its definition.
* **`entries_append`**, **`Complete.append`** — the two sides of the above.
-/

namespace Texel

/-! ## Slices of a longer text -/

namespace Text

theorem byteSize_append (a b : List Char) : byteSize (a ++ b) = byteSize a + byteSize b := by
  induction a with
  | nil => simp [byteSize]
  | cons c a ih =>
    simp only [byteSize, List.cons_append, List.foldr_cons] at ih ⊢
    omega

theorem byteSize_cons (c : Char) (cs : List Char) :
    byteSize (c :: cs) = c.utf8Size + byteSize cs := rfl

theorem byteSize_singleton (c : Char) : byteSize [c] = c.utf8Size := rfl

theorem byteSize_eq_zero_iff {cs : List Char} : byteSize cs = 0 ↔ cs = [] := by
  cases cs with
  | nil => simp [byteSize]
  | cons c cs =>
    have := c.utf8Size_pos
    simp only [byteSize_cons, reduceCtorEq, iff_false]
    omega

theorem byteSize_pos {cs : List Char} (h : cs ≠ []) : 0 < byteSize cs :=
  Nat.pos_of_ne_zero (mt byteSize_eq_zero_iff.mp h)

theorem dropBytes?_cons (c : Char) (cs : List Char) (n : Nat) :
    dropBytes? (c.utf8Size + n) (c :: cs) = dropBytes? n cs := by
  obtain ⟨m, hm⟩ : ∃ m, c.utf8Size + n = m + 1 :=
    ⟨c.utf8Size + n - 1, by have := c.utf8Size_pos; omega⟩
  rw [hm, dropBytes?, if_pos (by omega), ← hm, Nat.add_sub_cancel_left]

theorem dropBytes?_append (a b : List Char) (n : Nat) :
    dropBytes? (byteSize a + n) (a ++ b) = dropBytes? n b := by
  induction a with
  | nil => rw [byteSize, List.foldr_nil, Nat.zero_add, List.nil_append]
  | cons c a ih => rw [byteSize_cons, Nat.add_assoc, List.cons_append, dropBytes?_cons, ih]

theorem dropBytes?_append_right {n : Nat} {a rest : List Char} (b : List Char)
    (h : dropBytes? n a = some rest) : dropBytes? n (a ++ b) = some (rest ++ b) := by
  fun_induction dropBytes? n a with
  | case1 cs => simp_all [dropBytes?]
  | case2 => cases h
  | case3 n c cs hle ih => rw [List.cons_append, dropBytes?, if_pos hle, ih h]
  | case4 => cases h

theorem takeBytes?_append_right {n : Nat} {a kept : List Char} (b : List Char)
    (h : takeBytes? n a = some kept) : takeBytes? n (a ++ b) = some kept := by
  fun_induction takeBytes? n a generalizing kept with
  | case1 cs => simpa [takeBytes?] using h
  | case2 => cases h
  | case3 n c cs hle ih =>
    obtain ⟨tail, htail, rfl⟩ := Option.map_eq_some_iff.mp h
    rw [List.cons_append, takeBytes?, if_pos hle, ih htail, Option.map_some]
  | case4 => cases h

theorem takeBytes?_byteSize (cs : List Char) : takeBytes? (byteSize cs) cs = some cs := by
  induction cs with
  | nil => rfl
  | cons c cs ih =>
    obtain ⟨m, hm⟩ : ∃ m, c.utf8Size + byteSize cs = m + 1 :=
      ⟨c.utf8Size + byteSize cs - 1, by have := c.utf8Size_pos; omega⟩
    rw [byteSize_cons, hm, takeBytes?, if_pos (by omega), ← hm, Nat.add_sub_cancel_left, ih,
      Option.map_some]

/-- A slice of the second part of a text. -/
theorem slice?_shift (a b : String) (span : Span) :
    slice? (a ++ b) ⟨span.start + byteSize a.toList, span.stop + byteSize a.toList⟩ =
      slice? b span := by
  unfold slice?
  have hle : span.start + byteSize a.toList ≤ span.stop + byteSize a.toList ↔
      span.start ≤ span.stop := by omega
  have hlen : span.stop + byteSize a.toList - (span.start + byteSize a.toList) =
      span.stop - span.start := by omega
  simp only [hle, hlen, String.toList_append]
  rw [Nat.add_comm span.start, dropBytes?_append]

/-- A slice of the first part of a text. -/
theorem slice?_append_right {a : String} {span : Span} {text : String} (b : String)
    (h : slice? a span = some text) : slice? (a ++ b) span = some text := by
  unfold slice? at h ⊢
  split_ifs at h ⊢
  obtain ⟨rest, hrest, h⟩ := Option.bind_eq_some_iff.mp h
  obtain ⟨kept, hkept, h⟩ := Option.bind_eq_some_iff.mp h
  have hdrop := dropBytes?_append_right b.toList hrest
  have htake := takeBytes?_append_right b.toList hkept
  simpa [hdrop, htake] using h

/-- A whole text is a slice of itself. -/
theorem slice?_whole (s : String) : slice? s ⟨0, byteSize s.toList⟩ = some s := by
  simp [slice?, dropBytes?, takeBytes?_byteSize]

theorem byteSize_takeBytes? {n : Nat} {cs kept : List Char} (h : takeBytes? n cs = some kept) :
    byteSize kept = n := by
  fun_induction takeBytes? n cs generalizing kept with
  | case1 cs =>
    cases h
    rfl
  | case2 => cases h
  | case3 n c cs hle ih =>
    obtain ⟨tail, htail, rfl⟩ := Option.map_eq_some_iff.mp h
    rw [byteSize_cons, ih htail]
    omega
  | case4 => cases h

/-- A slice has as many bytes as its span. -/
theorem byteSize_slice? {s : String} {span : Span} {text : String} (h : slice? s span = some text) :
    span.start + byteSize text.toList = span.stop := by
  unfold slice? at h
  split_ifs at h with hle
  obtain ⟨rest, -, h⟩ := Option.bind_eq_some_iff.mp h
  obtain ⟨kept, hkept, h⟩ := Option.bind_eq_some_iff.mp h
  cases h
  rw [String.toList_ofList, byteSize_takeBytes? hkept]
  omega

end Text

namespace Glsl

open Text Correspondence

/-! ## Texts behind one another -/

/-- The correspondence between a text and the same text `k` bytes later. -/
def Correspondence.shift (k : Nat) : Correspondence where
  spell w := w
  spell_injective := fun _ _ h => h
  spell_notCalls _ := Iff.rfl
  meets a a' := a' = a + k
  meets_unique := by omega

theorem shift_name (k : Nat) (s : String) : (Correspondence.shift k).name s = s :=
  String.ofList_toList

theorem Lexer.run_append (l : Lexer) (a b : List Char) : l.run (a ++ b) = (l.run a).run b :=
  List.foldl_append

theorem Lexer.offset_run (l : Lexer) (cs : List Char) :
    (l.run cs).offset = l.offset + byteSize cs := by
  induction cs generalizing l with
  | nil => rfl
  | cons c cs ih =>
    rw [show l.run (c :: cs) = (l.step c).run cs from rfl, ih, byteSize_cons]
    simp only [Lexer.step, Lexer.advance, offset_read]
    omega

/-- Reading the same characters in both texts, where all words keep their spelling and the places
between the characters correspond. -/
theorem run_meets {ρ : Correspondence} (hspell : ∀ w, ρ.spell w = w) {earlier : List Token}
    {l l' : Lexer} (h : ρ.LexerMeets earlier l l') {cs : List Char}
    (hplaces : ∀ p, p <+: cs → ρ.meets (l.offset + byteSize p) (l'.offset + byteSize p)) :
    ρ.LexerMeets earlier (l.run cs) (l'.run cs) := by
  induction cs generalizing l l' with
  | nil => exact h
  | cons c cs ih =>
    have hstep : ρ.LexerMeets earlier (l.step c) (l'.step c) := by
      refine h.step (hplaces [c] (by simp)) (fun _ => hspell _) fun _ _ _ _ => ?_
      rw [hspell, hspell, List.reverse_cons]
    refine ih hstep fun p hp => ?_
    have hnext := hplaces (c :: p) (List.cons_prefix_cons.mpr ⟨rfl, hp⟩)
    simpa only [Lexer.step, Lexer.advance, offset_read, byteSize_cons, Nat.add_assoc] using hnext

theorem run_shift {k : Nat} {earlier : List Token} {l l' : Lexer}
    (h : (Correspondence.shift k).LexerMeets earlier l l') (cs : List Char) :
    (Correspondence.shift k).LexerMeets earlier (l.run cs) (l'.run cs) := by
  have hoffset : l'.offset = l.offset + k := h.offset
  refine run_meets (fun _ => rfl) h fun p _ => ?_
  show l'.offset + byteSize p = l.offset + byteSize p + k
  omega

/-- The text ends between two tokens, at the start of a line and outside of every definition. -/
structure Settled (text : String) : Prop where
  mode : (Lexer.run {} text.toList).mode = .code
  fresh : (Lexer.run {} text.toList).fresh = true
  outside : ((tokens text).foldl Reader.step {}).stage = .outside

variable {a b : String}

/-- Reading on behind a settled text is reading from the start, at later positions. -/
theorem Settled.run_meets (h : Settled a) (b : String) :
    (Correspondence.shift (byteSize a.toList)).LexerMeets (Lexer.run {} a.toList).found
      (Lexer.run {} b.toList) (Lexer.run {} (a ++ b).toList) := by
  rw [String.toList_append, Lexer.run_append]
  refine run_shift ⟨?_, ?_, h.fresh, [], rfl, .nil⟩ b.toList
  · rw [h.mode]
    exact .code
  · show (Lexer.run {} a.toList).offset = 0 + byteSize a.toList
    exact Lexer.offset_run {} a.toList

theorem Settled.tokens_append (h : Settled a) (b : String) :
    ∃ later, tokens (a ++ b) = tokens a ++ later ∧
      List.Forall₂ (Correspondence.shift (byteSize a.toList)).TokenMeets (tokens b) later := by
  obtain ⟨later, hlater, hmeets⟩ := (h.run_meets b).close.found
  refine ⟨later.reverse, ?_, List.rel_reverse hmeets⟩
  have hclose : (Lexer.run {} a.toList).close = Lexer.run {} a.toList := by
    rw [Lexer.close, h.mode]
  rw [tokens, Lexer.finish, hlater, List.reverse_append, tokens, Lexer.finish, hclose]

theorem Settled.read_meets (h : Settled a) (b : String) :
    (Correspondence.shift (byteSize a.toList)).ReaderMeets
      ((tokens a).foldl Reader.step {}).found ((tokens b).foldl Reader.step {})
      ((tokens (a ++ b)).foldl Reader.step {}) := by
  obtain ⟨later, htokens, hmeets⟩ := h.tokens_append b
  rw [htokens, List.foldl_append]
  refine functions_meet hmeets ⟨?_, [], rfl, .nil⟩
  rw [h.outside]
  exact .outside

theorem Settled.functionsIn_append (h : Settled a) (b : String) :
    ∃ later, functionsIn (a ++ b) = functionsIn a ++ later ∧
      List.Forall₂ (Correspondence.shift (byteSize a.toList)).FunctionMeets (functionsIn b)
        later := by
  obtain ⟨later, hlater, hmeets⟩ := (h.read_meets b).found
  refine ⟨later.reverse, ?_, List.rel_reverse hmeets⟩
  rw [functionsIn, hlater, List.reverse_append, functionsIn]

theorem Settled.append (ha : Settled a) (hb : Settled b) : Settled (a ++ b) where
  mode := by
    have h := (ha.run_meets b).mode
    rw [hb.mode] at h
    generalize (Lexer.run {} (a ++ b).toList).mode = m at h
    cases h
    rfl
  fresh := (ha.run_meets b).fresh.trans hb.fresh
  outside := by
    have h := (ha.read_meets b).stage
    rw [hb.outside] at h
    generalize ((tokens (a ++ b)).foldl Reader.step {}).stage = s at h
    cases h
    rfl

theorem settled_empty : Settled "" := ⟨rfl, rfl, rfl⟩

/-! ## Entries -/

/-- What a call of a function needs to know, and which functions have to be there first. -/
structure Heading where
  name : String
  /-- The parameters of a call. -/
  parameters : List (String × Parameter)
  calls : List String
deriving DecidableEq, Repr

/-- A function of a library, with the text of its definition. -/
structure Entry extends Heading where
  text : String
deriving DecidableEq, Repr

def Function.heading (f : Function) : Heading := ⟨f.name, f.callParameters, f.calls⟩

def Function.entryIn? (library : String) (f : Function) : Option Entry :=
  (f.definitionText? library).map (⟨f.heading, ·⟩)

/-- The functions of a library whose text can be cut out of it. -/
def entries (library : String) : List Entry := (functionsIn library).filterMap (·.entryIn? library)

/-- The text is settled, and every function has its text. -/
structure Complete (library : String) : Prop extends Settled library where
  texts : ∀ f ∈ functionsIn library, (f.definitionText? library).isSome

theorem callParameters_congr {f f' : Function} (h : f'.groups = f.groups) :
    f'.callParameters = f.callParameters := by
  simp only [Function.callParameters, Function.parameters, Function.parameter?, Function.declared,
    h]

theorem map_shift_name (k : Nat) (names : List String) :
    names.map (Correspondence.shift k).name = names := by
  rw [show (Correspondence.shift k).name = id from funext (shift_name k), List.map_id]

/-- A function whose spans have been moved. -/
def Function.move (place : Nat → Nat) (f : Function) : Function :=
  { f with
    definition := ⟨place f.definition.start, place f.definition.stop⟩
    body := ⟨place f.body.start, place f.body.stop⟩ }

/-- Where words keep their spelling, a corresponding function differs in its spans only. -/
theorem Correspondence.FunctionMeets.eq_move {ρ : Correspondence} {place : Nat → Nat}
    {f f' : Function} (h : ρ.FunctionMeets f f') (hname : ∀ s, ρ.name s = s)
    (hplace : ∀ k k', ρ.meets k k' → k' = place k) : f' = f.move place := by
  have hid : ρ.name = id := funext hname
  have hself := h.name
  have hreturn := h.returnType
  have hgroups := h.groups
  have hstart := hplace _ _ h.start
  have hstop := hplace _ _ h.stop
  have hbodyStart := hplace _ _ h.bodyStart
  have hbodyStop := hplace _ _ h.bodyStop
  have hcalls := h.calls
  simp only [hid, id_eq, List.map_id_fun, List.map_id'] at hself hreturn hgroups hcalls
  obtain ⟨name, returnType, groups, ⟨start, stop⟩, ⟨bodyStart, bodyStop⟩, calls⟩ := f'
  simp only at hself hreturn hgroups hstart hstop hbodyStart hbodyStop hcalls
  rw [hself, hreturn, hgroups, hstart, hstop, hbodyStart, hbodyStop, hcalls, Function.move]

theorem eq_move_of_shift {k : Nat} {f f' : Function}
    (h : (Correspondence.shift k).FunctionMeets f f') : f' = f.move (· + k) :=
  h.eq_move (shift_name k) fun _ _ hmeets => hmeets

/-- A function has the same text in a text and behind another text. -/
theorem definitionText?_shift {f f' : Function}
    (h : (Correspondence.shift (byteSize a.toList)).FunctionMeets f f') :
    f'.definitionText? (a ++ b) = f.definitionText? b := by
  have hspan : f'.definition =
      ⟨f.definition.start + byteSize a.toList, f.definition.stop + byteSize a.toList⟩ := by
    rw [← show f'.definition.start = _ from h.start, ← show f'.definition.stop = _ from h.stop]
  rw [Function.definitionText?, hspan, slice?_shift, Function.definitionText?]

/-- A function has the same entry in a text and behind another text. -/
theorem entryIn?_shift {f f' : Function}
    (h : (Correspondence.shift (byteSize a.toList)).FunctionMeets f f') :
    f'.entryIn? (a ++ b) = f.entryIn? b := by
  have hheading : f'.heading = f.heading := by rw [eq_move_of_shift h]; rfl
  rw [Function.entryIn?, definitionText?_shift h, hheading, Function.entryIn?]

/-- A function has the same entry in a text and before another text. -/
theorem entryIn?_append {f : Function} (h : (f.definitionText? a).isSome) :
    f.entryIn? (a ++ b) = f.entryIn? a := by
  obtain ⟨text, htext⟩ := Option.isSome_iff_exists.mp h
  have hlonger : f.definitionText? (a ++ b) = some text := slice?_append_right b htext
  rw [Function.entryIn?, hlonger, Function.entryIn?, htext]

theorem filterMap_entryIn?_shift {fs fs' : List Function}
    (h : List.Forall₂ (Correspondence.shift (byteSize a.toList)).FunctionMeets fs fs') :
    fs'.filterMap (·.entryIn? (a ++ b)) = fs.filterMap (·.entryIn? b) := by
  induction h with
  | nil => rfl
  | cons hf _ ih => rw [List.filterMap_cons, List.filterMap_cons, entryIn?_shift hf, ih]

/-- **Entries.** A library that is put together holds the entries of both parts. -/
theorem entries_append (h : Complete a) (b : String) :
    entries (a ++ b) = entries a ++ entries b := by
  obtain ⟨later, hfunctions, hmeets⟩ := h.functionsIn_append b
  rw [entries, hfunctions, List.filterMap_append, filterMap_entryIn?_shift hmeets, entries, entries]
  congr 1
  exact List.filterMap_congr fun f hf => entryIn?_append (h.texts f hf)

theorem definitionText?_isSome_iff {f : Function} {library : String} :
    (f.definitionText? library).isSome ↔ (f.entryIn? library).isSome := by
  rw [Function.entryIn?, Option.isSome_map]

theorem Complete.append (ha : Complete a) (hb : Complete b) : Complete (a ++ b) where
  toSettled := ha.toSettled.append hb.toSettled
  texts := by
    obtain ⟨later, hfunctions, hmeets⟩ := ha.functionsIn_append b
    intro f hf
    rw [hfunctions, List.mem_append] at hf
    rw [definitionText?_isSome_iff]
    rcases hf with hf | hf
    · rw [entryIn?_append (ha.texts f hf), ← definitionText?_isSome_iff]
      exact ha.texts f hf
    · -- a function behind `a` is one of `b`
      obtain ⟨i, hi, rfl⟩ := List.getElem_of_mem hf
      have hi' : i < (functionsIn b).length := hmeets.length_eq ▸ hi
      have hmeet : (Correspondence.shift (byteSize a.toList)).FunctionMeets (functionsIn b)[i]
          later[i] := hmeets.get hi' hi
      rw [entryIn?_shift hmeet, ← definitionText?_isSome_iff]
      exact hb.texts _ (List.getElem_mem hi')

theorem complete_empty : Complete "" := ⟨settled_empty, fun _ hf => nomatch hf⟩

/-! ## Looking functions up -/

/-- The entry that a name stands for: the last one with that name. -/
def Entry.find? (es : List Entry) (name : String) : Option Entry :=
  es.reverse.find? (·.name = name)

theorem find?_filterMap_entryIn? {library : String} {fs : List Function} (name : String)
    (h : ∀ f ∈ fs, (f.definitionText? library).isSome) :
    (fs.filterMap (·.entryIn? library)).find? (·.name = name) =
      (fs.find? (·.name = name)).bind (·.entryIn? library) := by
  induction fs with
  | nil => rfl
  | cons f fs ih =>
    rw [List.forall_mem_cons] at h
    obtain ⟨text, htext⟩ := Option.isSome_iff_exists.mp h.1
    have hentry : f.entryIn? library = some ⟨f.heading, text⟩ := by
      rw [Function.entryIn?, htext]; rfl
    have hcons : (f :: fs).filterMap (·.entryIn? library) =
        ⟨f.heading, text⟩ :: fs.filterMap (·.entryIn? library) := by
          rw [List.filterMap_cons, hentry]
    have hsame : (⟨f.heading, text⟩ : Entry).name = f.name := rfl
    rw [hcons, List.find?_cons, List.find?_cons, hsame, ih h.2]
    cases decide (f.name = name) with
    | true => exact hentry.symm
    | false => rfl

end Glsl
end Texel
