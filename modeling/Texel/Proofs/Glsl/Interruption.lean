import Texel.Proofs.Glsl.Emission

/-!
# Texel — pasting that stops halfway

A function counts as pasted before its text has been cut out, and the functions that it calls are
copied first. When a text turns out to be out of the range of the library, pasting stops there, and
what has happened has happened: the mark stays, and so do the copies.

* **`Grew`** — what pasting may change at all, and **`grew_pasteWithin`**, however it ends.
* **`exists_outOfRange`** — with a known function, only a span that does not fit stops pasting; the
  induction is on the room.
* **`marked`** — from then on, the function counts as pasted.
* **`untouched_iff`** — so a failure leaves no trace exactly if the name was not known.
-/

namespace Texel.Glsl.Emitter

open Texel.Action

variable {library name : String} {e e' e'' : Emitter} {err : CodeError}

/-- The definitions have become more, and so have the marks; all else is as before. -/
structure Grew (e e' : Emitter) : Prop where
  rest : e' = { e with definitions := e'.definitions, pasted := e'.pasted }
  definitions : e.definitions <+: e'.definitions
  pasted : e.pasted <:+ e'.pasted

theorem Grew.refl (e : Emitter) : Grew e e := ⟨rfl, List.prefix_rfl, List.suffix_rfl⟩

theorem Grew.trans (h : Grew e e') (h' : Grew e' e'') : Grew e e'' := by
  refine ⟨?_, h.definitions.trans h'.definitions, h.pasted.trans h'.pasted⟩
  rw [h'.rest, h.rest]

theorem Grew.function?_eq (h : Grew e e') (name : String) :
    e'.function? name = e.function? name := by
  rw [h.rest]
  rfl

theorem grew_mark (e : Emitter) (name : String) : Grew e { e with pasted := name :: e.pasted } :=
  ⟨rfl, List.prefix_rfl, List.suffix_cons name e.pasted⟩

theorem grew_copy (e : Emitter) (library : String) (f : Function) :
    Keeps (Grew e) (copy library f) := by
  unfold copy
  split
  · next text _ =>
    refine Keeps.update fun s hs => hs.trans ⟨rfl, ?_, List.suffix_rfl⟩
    exact List.prefix_append s.definitions [.definition f.name text]
  · exact Keeps.fail _

/-- **What pasting may change**, whether it succeeds or not. -/
theorem grew_pasteWithin (e : Emitter) (library : String) (depth : Nat) (name : String) :
    Keeps (Grew e) (pasteWithin library depth name) := by
  induction depth generalizing name with
  | zero =>
    rw [pasteWithin]
    refine Keeps.state.bind fun s => ?_
    split
    · exact Keeps.pure ()
    · exact Keeps.fail _
  | succ depth ih =>
    rw [pasteWithin]
    refine Keeps.state.bind fun s => ?_
    split
    · exact Keeps.pure ()
    · refine (Keeps.ofOption _ _).bind fun f => ?_
      refine (Keeps.update fun t ht => ht.trans (grew_mark t name)).bind fun _ => ?_
      exact (Keeps.each ih _).bind fun _ => grew_copy e library f

/-- What has been pasted cannot fail. -/
theorem notMem_pasted_of_error {depth : Nat}
    (h : ((pasteWithin library depth name).run e).result = .error err) : name ∉ e.pasted := by
  intro hpasted
  rw [(pasteWithin_pasted hpasted depth).1] at h
  cases h

/-- Pasting a known function: the mark, then what the function calls, then its text. -/
theorem run_pasteWithin_known {depth : Nat} {f : Function} (hpasted : name ∉ e.pasted)
    (hf : e.function? name = some f) :
    let rest := do
      Action.each (pasteWithin library depth)
        (f.calls.filter fun callee => (e.function? callee).isSome)
      copy library f
    ((pasteWithin library (depth + 1) name).run e).result =
        (rest.run { e with pasted := name :: e.pasted }).result ∧
      ((pasteWithin library (depth + 1) name).run e).state =
        (rest.run { e with pasted := name :: e.pasted }).state := by
  have hstate : (Action.state : Action Emitter CodeError Emitter).Returns e e e := .state e
  have hfunction := Returns.ofOption hf (CodeError.unknownFunction name) e
  have hmark : (Action.update fun e : Emitter => { e with pasted := name :: e.pasted } :
      Action Emitter CodeError Unit).Returns e () { e with pasted := name :: e.pasted } :=
        .update _ e
  have hfresh : ¬ e.isPasted name = true := by
    rw [isPasted_eq_false hpasted]
    exact Bool.false_ne_true
  rw [pasteWithin]
  constructor
  · rw [hstate.result_bind, if_neg hfresh, hfunction.result_bind, hmark.result_bind]
  · rw [hstate.state_bind, if_neg hfresh, hfunction.state_bind, hmark.state_bind]

/-- **Why pasting stops.** The functions that are called are known as well, so what stops it is a
text that does not fit, maybe deep in the calls. -/
theorem exists_outOfRange {depth : Nat} (hknown : (e.function? name).isSome)
    (h : ((pasteWithin library depth name).run e).result = .error err) :
    ∃ f ∈ e.functions, f.definitionText? library = none ∧
      err = .spanOutOfRange f.name f.definition.start f.definition.stop library.utf8ByteSize := by
  induction depth generalizing name e with
  | zero =>
    -- without room, a known name is passed over
    have hstate : (Action.state : Action Emitter CodeError Emitter).Returns e e e := .state e
    rw [pasteWithin, hstate.result_bind, hknown, Bool.or_true, if_pos rfl] at h
    cases h
  | succ depth ih =>
    obtain ⟨f, hf⟩ := Option.isSome_iff_exists.mp hknown
    have hmem : f ∈ e.functions := mem_of_find? hf
    rw [(run_pasteWithin_known (notMem_pasted_of_error h) hf).1] at h
    rcases error_of_bind h with h | ⟨_, s, hcalls, hcopy⟩
    · -- one of the calls has stopped, in a state with the same functions
      obtain ⟨before, called, after, s, hsplit, hbefore, hstop⟩ := error_of_each h
      have hgrew : Grew { e with pasted := name :: e.pasted } s := by
        rw [← hbefore.2]
        exact Keeps.each (grew_pasteWithin _ library depth) before _ (Grew.refl _)
      have hcalled : called ∈ f.calls.filter fun callee => (e.function? callee).isSome := by
        rw [hsplit]
        exact List.mem_append_right _ List.mem_cons_self
      have hfunctions : s.functions = e.functions := by rw [hgrew.rest]
      rw [← hfunctions]
      refine ih ?_ hstop
      rw [hgrew.function?_eq]
      exact (List.mem_filter.mp hcalled).2
    · unfold copy at hcopy
      split at hcopy
      · cases hcopy
      · next htext => exact ⟨f, hmem, htext, (Except.error.inj hcopy).symm⟩

/-- The function counts as pasted, however its turn has ended. -/
theorem marked (hpasted : name ∉ e.pasted) (hknown : (e.function? name).isSome) :
    name ∈ ((pasteWithin library e.functions.length name).run e).state.pasted := by
  obtain ⟨f, hf⟩ := Option.isSome_iff_exists.mp hknown
  obtain ⟨depth, hdepth⟩ : ∃ depth, e.functions.length = depth + 1 := by
    have hpos := List.length_pos_of_mem (mem_of_find? hf)
    exact ⟨e.functions.length - 1, by omega⟩
  rw [hdepth, (run_pasteWithin_known hpasted hf).2]
  have hkeeps : Keeps (Grew { e with pasted := name :: e.pasted }) (do
      Action.each (pasteWithin library depth)
        (f.calls.filter fun callee => (e.function? callee).isSome)
      copy library f) :=
    (Keeps.each (grew_pasteWithin _ library depth) _).bind fun _ => grew_copy _ library f
  exact (hkeeps _ (Grew.refl _)).pasted.subset List.mem_cons_self

/-! ## What can be seen of a failure -/

/-- The same names count as pasted, and the text of the definitions is the same. -/
def Untouched (e e' : Emitter) : Prop :=
  (∀ other, e'.isPasted other = e.isPasted other) ∧ e'.definitionsText = e.definitionsText

theorem untouched_iff
    (h : ((pasteWithin library e.functions.length name).run e).result = .error err) :
    Untouched e ((pasteWithin library e.functions.length name).run e).state ↔
      e.function? name = none := by
  have hpasted := notMem_pasted_of_error h
  constructor
  · intro huntouched
    by_contra hknown
    have hsame := huntouched.1 name
    rw [isPasted_eq_false hpasted, ← Bool.not_eq_true, isPasted, List.contains_iff_mem] at hsame
    exact hsame (marked hpasted (Option.isSome_iff_ne_none.mpr hknown))
  · intro hunknown
    rw [(pasteWithin_unknown hpasted hunknown _).2]
    exact ⟨fun _ => rfl, rfl⟩

/-- A function that has been marked is never copied again, from whatever library. -/
theorem paste_pasted (h : name ∈ e.pasted) (right : String) : (paste name right).Returns e () e :=
  (Returns.state e).bind (pasteWithin_pasted h _)

theorem paste_pasted_loaded (h : name ∈ e.pasted) (right : String) :
    (do load right; paste name right).Returns e () { e with functions := functionsIn right } :=
  (load_returns right e).bind
    (paste_pasted (e := { e with functions := functionsIn right }) h right)

/-- A function that has not been marked is copied from every library that has it. -/
theorem paste_loaded (h : name ∉ e.pasted) {right : String} {f : Function}
    (hf : find? (functionsIn right) name = some f) :
    ∃ e' text, (do load right; paste name right).Returns e () e' ∧
      f.definitionText? right = some text ∧
      ∃ more, e'.definitions = e.definitions ++ more ∧ .definition name text ∈ more := by
  obtain ⟨es, q, hwalk⟩ := exists_walk (e := { e with functions := functionsIn right }) rfl
    (Option.isSome_iff_exists.mpr ⟨f, hf⟩)
  have hwalked := hwalk.walked fun _ _ => Entry.name_of_find?
  have hname : name ∈ es.map (·.name) :=
    ((hwalked.mem_iff name).mp (hwalked.asked List.mem_cons_self)).resolve_left h
  obtain ⟨x, hx, rfl⟩ := List.mem_map.mp hname
  obtain ⟨f', hf', -, htext⟩ := exists_function_of_find? (hwalked.found x hx)
  obtain rfl := Option.some.inj (hf.symm.trans hf')
  refine ⟨_, x.text, (load_returns right e).bind (paste_returns rfl hwalk), htext,
    es.map Entry.piece, rfl, ?_⟩
  exact List.mem_map_of_mem hx

/-- **Failures.** A failed paste leaves no trace exactly if it failed because nobody knew the name;
then the function can still be copied from a library that has it. If the name was known, a text was
out of range: the function has been marked, maybe others with it and with copies of them, and no
library will ever bring its definition. -/
theorem paste_error_untouched_iff (library name : String) (e : Emitter) (err : CodeError)
    (h : ((paste name library).run e).result = .error err) :
    let e' := ((paste name library).run e).state
    (Untouched e e' ↔ e.function? name = none) ∧
      (e.function? name = none → err = .unknownFunction name ∧ e' = e ∧
        ∀ right f, find? (functionsIn right) name = some f →
          ∃ e'' text, (do load right; paste name right).Returns e' () e'' ∧
            f.definitionText? right = some text ∧
            ∃ more, e''.definitions = e'.definitions ++ more ∧ .definition name text ∈ more) ∧
      (e.function? name ≠ none →
        (∃ f ∈ e.functions, f.definitionText? library = none ∧
          err = .spanOutOfRange f.name f.definition.start f.definition.stop library.utf8ByteSize) ∧
        e.isPasted name = false ∧ e'.isPasted name = true ∧ Grew e e' ∧
        ∀ right, (paste name right).Returns e' () e' ∧
          (do load right; paste name right).Returns e' ()
            { e' with functions := functionsIn right }) := by
  have hstate : (Action.state : Action Emitter CodeError Emitter).Returns e e e := .state e
  have hpaste : ((paste name library).run e).state =
      ((pasteWithin library e.functions.length name).run e).state := hstate.state_bind
  rw [paste, hstate.result_bind] at h
  rw [hpaste]
  have hpasted := notMem_pasted_of_error h
  refine ⟨untouched_iff h, fun hunknown => ?_, fun hknown => ?_⟩
  · rw [(pasteWithin_unknown hpasted hunknown _).1] at h
    rw [(pasteWithin_unknown hpasted hunknown _).2]
    exact ⟨(Except.error.inj h).symm, rfl, fun right f hf => paste_loaded hpasted hf⟩
  · have hmarked : name ∈ ((pasteWithin library e.functions.length name).run e).state.pasted :=
      marked hpasted (Option.isSome_iff_ne_none.mpr hknown)
    refine ⟨?_, isPasted_eq_false hpasted, List.contains_iff_mem.mpr hmarked, ?_, fun right => ?_⟩
    · exact exists_outOfRange (Option.isSome_iff_ne_none.mpr hknown) h
    · exact grew_pasteWithin e library _ name e (Grew.refl e)
    · exact ⟨paste_pasted hmarked right, paste_pasted_loaded hmarked right⟩

/-! ## A text that is too short -/

/-- Two functions, of which the second calls the first. -/
def pairText : String := "void g()\x7b\x7dvoid f()\x7bg();\x7d"

/-- The first of them alone. -/
def shortText : String := "void g()\x7b\x7d"

/-- An emitter that knows the two functions and has pasted none. -/
def paired : Emitter := requested pairText []

/-- A third name is refused without a trace, and can be pasted as soon as a library has it. -/
theorem paired_refuses :
    ((paste "h" shortText).run paired).result = .error (.unknownFunction "h") ∧
      Untouched paired ((paste "h" shortText).run paired).state ∧
      ∃ e text, (do load "void h()\x7b\x7d"; paste "h" "void h()\x7b\x7d").Returns
          ((paste "h" shortText).run paired).state () e ∧
        .definition "h" text ∈ e.definitions := by
  have herror : ((paste "h" shortText).run paired).result = .error (.unknownFunction "h") := by
    decide +kernel
  have hunknown : paired.function? "h" = none := by decide +kernel
  have hknown : (find? (functionsIn "void h()\x7b\x7d") "h").isSome := by decide +kernel
  obtain ⟨f, hf⟩ := Option.isSome_iff_exists.mp hknown
  have hfailed := paste_error_untouched_iff shortText "h" paired _ herror
  obtain ⟨e, text, hreturns, -, more, hmore, hmem⟩ := (hfailed.2.1 hunknown).2.2 _ f hf
  refine ⟨herror, hfailed.1.mpr hunknown, e, text, hreturns, ?_⟩
  rw [hmore]
  exact List.mem_append_right _ hmem

/-- The second function does not fit. The first one has been copied by then, and the second one is
not copied from the right library either. -/
theorem paired_interrupted :
    let e := ((paste "f" shortText).run paired).state
    ((paste "f" shortText).run paired).result = .error (.spanOutOfRange "f" 10 24 10) ∧
      (paired.isPasted "f" = false ∧ e.isPasted "f" = true) ∧
      (paired.definitionsText = "" ∧ e.definitionsText = "void g()\x7b\x7d\n\n") ∧
      ((paste "f" pairText).run e).result = .ok () ∧
      ((paste "f" pairText).run e).state.definitionsText = "void g()\x7b\x7d\n\n" := by
  decide +kernel

end Texel.Glsl.Emitter
