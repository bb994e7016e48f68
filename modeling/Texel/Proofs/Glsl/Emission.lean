import Texel.Proofs.Glsl.Closure

/-!
# Texel — what requests for functions leave in the definitions

Functions of one library are asked for one after the other, known or not. The walks that answer the
requests share what has been pasted, so what they leave behind has to be described for all of them
together: the definitions hold the functions that can be reached from a request through calls, each
once, and a function stands behind the functions that it calls unless it takes part in a circle of
calls.

* **`Invokes`** — one known function calls another.
* **`Pastes.reached`** — a walk meets nothing else than what its names lead to.
* **`Pastes.calleesFirst`** — the order of a walk. The functions whose turn has not ended yet all
  lead to the one at hand, so a call of one of them closes a circle.
* **`Answered`** — the emitter between two requests; **`Answered.paste`** is the step.
* **`Copy`**, **`copies_definitionsOf`** — what is found in definitions that have been copied.
* **`paste_emission`** — all of this for a new emitter.
-/

namespace Texel.Glsl

open Relation Text

variable {library : String}

/-- The function that a name stands for calls another one that is known. -/
def Invokes (library name called : String) : Prop :=
  ∃ f, find? (functionsIn library) name = some f ∧ called ∈ f.calls ∧
    (find? (functionsIn library) called).isSome

theorem isSome_find?_entries (library name : String) :
    (Entry.find? (entries library) name).isSome = (find? (functionsIn library) name).isSome :=
  (Emitter.isSome_function? (e := { functions := functionsIn library }) rfl name).symm

/-- The function behind an entry, and the calls of both. -/
theorem exists_function_of_find? {name : String} {e : Entry}
    (h : Entry.find? (entries library) name = some e) :
    ∃ f, find? (functionsIn library) name = some f ∧ f.calls = e.calls ∧
      f.definitionText? library = some e.text := by
  obtain ⟨f, hf, hheading, htext⟩ :=
    Emitter.exists_function? (e := { functions := functionsIn library }) rfl h
  exact ⟨f, hf, congrArg Heading.calls hheading, htext⟩

theorem invokes_iff {name called : String} {e : Entry}
    (h : Entry.find? (entries library) name = some e) :
    Invokes library name called ↔
      called ∈ e.calls ∧ (Entry.find? (entries library) called).isSome := by
  obtain ⟨f, hf, hcalls, -⟩ := exists_function_of_find? h
  rw [isSome_find?_entries, ← hcalls]
  constructor
  · rintro ⟨f', hf', hcalled, hknown⟩
    obtain rfl := Option.some.inj (hf.symm.trans hf')
    exact ⟨hcalled, hknown⟩
  · rintro ⟨hcalled, hknown⟩
    exact ⟨f, hf, hcalled, hknown⟩

/-! ## Walks -/

section Walks

variable {d : Nat} {p q names : List String} {es : List Entry}

/-- **Nothing else is copied.** -/
theorem Pastes.reached (h : Pastes (Entry.find? (entries library)) d p names es q) :
    ∀ e ∈ es, ∃ name ∈ names, ReflTransGen (Invokes library) name e.name := by
  induction h with
  | nil => exact fun e he => absurd he List.not_mem_nil
  | skip _ _ ih =>
    intro e he
    obtain ⟨name, hname, hreach⟩ := ih e he
    exact ⟨name, List.mem_cons_of_mem _ hname, hreach⟩
  | @paste d p names q r name e es fs _ hlook _ _ ihcalls ihnames =>
    intro x hx
    rcases List.mem_append.mp hx with hx | hx
    · obtain ⟨called, hcalled, hreach⟩ := ihcalls x hx
      have hinvokes : Invokes library name called :=
        (invokes_iff hlook).mpr (List.mem_filter.mp hcalled)
      exact ⟨name, List.mem_cons_self, hreach.head hinvokes⟩
    · rcases List.mem_cons.mp hx with rfl | hx
      · refine ⟨name, List.mem_cons_self, ?_⟩
        rw [Entry.name_of_find? hlook]
      · obtain ⟨other, hother, hreach⟩ := ihnames x hx
        exact ⟨other, List.mem_cons_of_mem _ hother, hreach⟩

/-- A function that is on no circle of calls stands behind all that it calls. The names `done` stand
before the others. -/
def CalleesFirst (library : String) : (done names : List String) → Prop
  | _, [] => True
  | done, name :: names =>
    (¬ TransGen (Invokes library) name name → ∀ called, Invokes library name called →
      called ∈ done) ∧ CalleesFirst library (done ++ [name]) names

theorem calleesFirst_append {done names more : List String} :
    CalleesFirst library done (names ++ more) ↔
      CalleesFirst library done names ∧ CalleesFirst library (done ++ names) more := by
  induction names generalizing done with
  | nil => simp [CalleesFirst]
  | cons name names ih =>
    rw [List.cons_append, CalleesFirst, CalleesFirst, ih, and_assoc]
    simp

/-- **The order of a walk.** The functions on the `stack` are waiting for what they call, so they
lead to every name that is asked for; what has been pasted is done or is waiting. -/
theorem Pastes.calleesFirst (h : Pastes (Entry.find? (entries library)) d p names es q)
    (done stack : List String)
    (hstack : ∀ waiting ∈ stack, ∀ name ∈ names, TransGen (Invokes library) waiting name)
    (hpasted : ∀ name ∈ p, name ∈ done ∨ name ∈ stack) :
    CalleesFirst library done (es.map (·.name)) := by
  induction h generalizing done stack with
  | nil => trivial
  | skip _ _ ih =>
    refine ih done stack (fun waiting hwaiting name hname => ?_) hpasted
    exact hstack waiting hwaiting name (List.mem_cons_of_mem _ hname)
  | @paste d p names q r name e es fs _ hlook hcalls _ ihcalls ihnames =>
    have hself : e.name = name := Entry.name_of_find? hlook
    have hwalked := hcalls.walked fun _ _ => Entry.name_of_find?
    have hlead : ∀ waiting ∈ stack, TransGen (Invokes library) waiting name :=
      fun waiting hwaiting =>
      hstack waiting hwaiting name List.mem_cons_self
    have hinvokes : ∀ called ∈ e.calls.filter fun called =>
        (Entry.find? (entries library) called).isSome, Invokes library name called :=
      fun called hcalled => (invokes_iff hlook).mpr (List.mem_filter.mp hcalled)
    -- afterwards, what has been pasted stands before or is waiting as before
    have hafter : ∀ x ∈ q, x = name ∨ (x ∈ done ++ es.map (·.name)) ∨ x ∈ stack := by
      intro x hx
      rcases (hwalked.mem_iff x).mp hx with hx | hx
      · rcases List.mem_cons.mp hx with rfl | hx
        · exact Or.inl rfl
        · exact Or.inr ((hpasted x hx).imp (List.mem_append_left _) id)
      · exact Or.inr (Or.inl (List.mem_append_right _ hx))
    rw [List.map_append, List.map_cons, hself, calleesFirst_append]
    refine ⟨ihcalls done (name :: stack) ?_ ?_, ?_, ihnames _ stack ?_ ?_⟩
    · -- while its calls have their turn, this function waits as well
      intro waiting hwaiting called hcalled
      rcases List.mem_cons.mp hwaiting with rfl | hwaiting
      · exact .single (hinvokes called hcalled)
      · exact (hlead waiting hwaiting).tail (hinvokes called hcalled)
    · intro x hx
      rcases List.mem_cons.mp hx with rfl | hx
      · exact Or.inr List.mem_cons_self
      · exact (hpasted x hx).imp id (List.mem_cons_of_mem _)
    · -- what it calls has been pasted: a function that waits for this one would close a circle
      intro hcircle called hcalled
      have hq : called ∈ q := hwalked.asked (List.mem_filter.mpr ((invokes_iff hlook).mp hcalled))
      rcases hafter called hq with rfl | hdone | hwaiting
      · exact absurd (.single hcalled) hcircle
      · exact hdone
      · exact absurd ((hlead called hwaiting).head hcalled) hcircle
    · exact fun waiting hwaiting other hother =>
        hstack waiting hwaiting other (List.mem_cons_of_mem _ hother)
    · intro x hx
      rcases hafter x hx with rfl | hdone | hwaiting
      · exact Or.inl (List.mem_append_right _ List.mem_cons_self)
      · exact Or.inl (List.mem_append_left _ hdone)
      · exact Or.inr hwaiting

end Walks

/-! ## Requests -/

namespace Emitter

theorem isPasted_eq_false {e : Emitter} {name : String} (h : name ∉ e.pasted) :
    e.isPasted name = false := by
  rw [isPasted, ← Bool.not_eq_true, List.contains_iff_mem]
  exact h

/-- A name that nobody knows is refused, and nothing happens. -/
theorem pasteWithin_unknown {e : Emitter} {name : String} (hpasted : name ∉ e.pasted)
    (hunknown : e.function? name = none) (depth : Nat) :
    ((pasteWithin library depth name).run e).result = .error (.unknownFunction name) ∧
      ((pasteWithin library depth name).run e).state = e := by
  have hfresh : e.isPasted name = false := isPasted_eq_false hpasted
  have hstate : (Action.state : Action Emitter CodeError Emitter).Returns e e e := .state e
  cases depth with
  | zero =>
    rw [pasteWithin, hstate.result_bind, hstate.state_bind, hfresh, hunknown]
    exact ⟨rfl, rfl⟩
  | succ depth =>
    rw [pasteWithin, hstate.result_bind, hstate.state_bind, hfresh, hunknown]
    exact ⟨rfl, rfl⟩

end Emitter

/-- The emitter after requests for functions of a library. The entries `es` have been copied. -/
structure Answered (library : String) (requests : List String) (e : Emitter) (es : List Entry) :
    Prop where
  functions : e.functions = functionsIn library
  definitions : e.definitions = es.map Entry.piece
  pasted : ∀ name, name ∈ e.pasted ↔ name ∈ es.map (·.name)
  found : ∀ x ∈ es, Entry.find? (entries library) x.name = some x
  nodup : (es.map (·.name)).Nodup
  asked : ∀ name ∈ requests, (find? (functionsIn library) name).isSome → name ∈ es.map (·.name)
  reached : ∀ x ∈ es, ∃ name ∈ requests, ReflTransGen (Invokes library) name x.name
  closed : ∀ x ∈ es, ∀ called, Invokes library x.name called → called ∈ es.map (·.name)
  ordered : CalleesFirst library [] (es.map (·.name))

variable {requests : List String} {e : Emitter} {es : List Entry} {name : String}

theorem answered_load (library : String) :
    Answered library [] ((Emitter.load library).run {}).state [] where
  functions := rfl
  definitions := rfl
  pasted _ := Iff.rfl
  found _ hx := absurd hx List.not_mem_nil
  nodup := .nil
  asked _ hname := absurd hname List.not_mem_nil
  reached _ hx := absurd hx List.not_mem_nil
  closed _ hx := absurd hx List.not_mem_nil
  ordered := trivial

theorem Answered.refused (h : Answered library requests e es)
    (hunknown : find? (functionsIn library) name = none) :
    Answered library (requests ++ [name]) e es where
  __ := h
  asked other hother hknown := by
    rcases List.mem_append.mp hother with hother | hother
    · exact h.asked other hother hknown
    · rw [List.mem_singleton.mp hother, hunknown] at hknown
      cases hknown
  reached x hx := by
    obtain ⟨other, hother, hreach⟩ := h.reached x hx
    exact ⟨other, List.mem_append_left _ hother, hreach⟩

theorem Answered.copied (h : Answered library requests e es) {d : Nat} {fs : List Entry}
    {q : List String} (hwalk : Pastes (Entry.find? (entries library)) d e.pasted [name] fs q) :
    Answered library (requests ++ [name]) (e.copied fs q) (es ++ fs) := by
  have hwalked := hwalk.walked fun _ _ => Entry.name_of_find?
  have hpasted : ∀ x, x ∈ q ↔ x ∈ (es ++ fs).map (·.name) := by
    intro x
    rw [hwalked.mem_iff, h.pasted, List.map_append, List.mem_append]
  have hold : ∀ x ∈ es.map (·.name), x ∈ (es ++ fs).map (·.name) := by
    intro x hx
    rw [List.map_append]
    exact List.mem_append_left _ hx
  refine ⟨h.functions, ?_, hpasted, ?_, ?_, ?_, ?_, ?_, ?_⟩
  · show e.definitions ++ fs.map Entry.piece = _
    rw [h.definitions, List.map_append]
  · intro x hx
    exact (List.mem_append.mp hx).elim (h.found x) (hwalked.found x)
  · rw [List.map_append, List.nodup_append]
    refine ⟨h.nodup, hwalked.nodup, fun x hx y hy hxy => ?_⟩
    subst hxy
    obtain ⟨entry, hentry, rfl⟩ := List.mem_map.mp hy
    exact hwalked.fresh entry hentry ((h.pasted _).mpr hx)
  · intro other hother hknown
    rcases List.mem_append.mp hother with hother | hother
    · exact hold other (h.asked other hother hknown)
    · exact (hpasted other).mp (hwalked.asked hother)
  · intro x hx
    rcases List.mem_append.mp hx with hx | hx
    · obtain ⟨other, hother, hreach⟩ := h.reached x hx
      exact ⟨other, List.mem_append_left _ hother, hreach⟩
    · obtain ⟨other, hother, hreach⟩ := hwalk.reached x hx
      exact ⟨other, List.mem_append_right _ hother, hreach⟩
  · -- a walk leaves no call open, and the earlier ones had none
    intro x hx called hcalled
    rcases List.mem_append.mp hx with hx | hx
    · exact hold called (h.closed x hx called hcalled)
    · have hknown := (invokes_iff (hwalked.found x hx)).mp hcalled
      exact (hpasted called).mp (hwalked.called x hx called hknown.1 hknown.2)
  · rw [List.map_append, calleesFirst_append, List.nil_append]
    -- nobody waits between two requests
    refine ⟨h.ordered, hwalk.calleesFirst _ [] ?_ ?_⟩
    · exact fun waiting hwaiting => absurd hwaiting List.not_mem_nil
    · exact fun x hx => Or.inl ((h.pasted x).mp hx)

/-- **One request.** It is answered if the name is known, whatever has been asked for before; the
answer stays the same with more room. -/
theorem Answered.paste (h : Answered library requests e es) (name : String) :
    ((Emitter.paste name library).run e).result =
        (if (find? (functionsIn library) name).isSome then .ok ()
          else .error (.unknownFunction name)) ∧
      (∀ depth, (functionsIn library).length ≤ depth →
        ((Emitter.pasteWithin library depth name).run e).result =
            ((Emitter.paste name library).run e).result ∧
          ((Emitter.pasteWithin library depth name).run e).state =
            ((Emitter.paste name library).run e).state) ∧
      ∃ es',
        Answered library (requests ++ [name]) ((Emitter.paste name library).run e).state es' := by
  have hfunction : e.function? name = find? (functionsIn library) name := by
    rw [Emitter.function?, h.functions]
  cases hf : find? (functionsIn library) name with
  | none =>
    have hpasted : name ∉ e.pasted := by
      intro hpasted
      obtain ⟨x, hx, hname⟩ := List.mem_map.mp ((h.pasted name).mp hpasted)
      have hknown := isSome_find?_entries library name
      rw [← hname, h.found x hx, hname, hf] at hknown
      cases hknown
    have hunknown : ∀ depth,
        ((Emitter.pasteWithin library depth name).run e).result = .error (.unknownFunction name) ∧
          ((Emitter.pasteWithin library depth name).run e).state = e :=
      Emitter.pasteWithin_unknown hpasted (hfunction.trans hf)
    have hstate : (Action.state : Action Emitter CodeError Emitter).Returns e e e := .state e
    rw [Emitter.paste, hstate.result_bind, hstate.state_bind]
    refine ⟨(hunknown _).1, fun depth _ => ?_, es, ?_⟩
    · exact ⟨(hunknown depth).1.trans (hunknown _).1.symm,
        (hunknown depth).2.trans (hunknown _).2.symm⟩
    · rw [(hunknown _).2]
      exact h.refused hf
  | some f =>
    have hknown : (e.function? name).isSome := by
      rw [hfunction, hf]
      rfl
    obtain ⟨fs, q, hwalk⟩ := Emitter.exists_walk h.functions hknown
    have hpaste := Emitter.paste_returns h.functions hwalk
    rw [hpaste.1, hpaste.2]
    refine ⟨rfl, fun depth hdepth => ?_, es ++ fs, h.copied hwalk⟩
    have hroom := hwalk.mono (h.functions.symm ▸ hdepth)
    exact (hroom.run h.functions rfl).of_each_singleton

/-- A new emitter that has loaded a library and was asked for functions of it. A request that fails
does not keep the others from being made. -/
def Emitter.requested (library : String) (requests : List String) : Emitter :=
  requests.foldl (fun e name => ((paste name library).run e).state) ((load library).run {}).state

/-- **All requests.** -/
theorem exists_answered (library : String) (requests : List String) :
    ∃ es, Answered library requests (Emitter.requested library requests) es := by
  induction requests using List.reverseRecOn with
  | nil => exact ⟨[], answered_load library⟩
  | append_singleton requests name ih =>
    obtain ⟨es, hes⟩ := ih
    rw [Emitter.requested, List.foldl_append]
    exact (hes.paste name).2.2

/-! ## Definitions that have been copied -/

/-- The function `f'` of the text `target` is the function `f` of the text `source` once more. -/
structure Copy (source target : String) (f f' : Function) : Prop where
  name : f'.name = f.name
  returnType : f'.returnType = f.returnType
  groups : f'.groups = f.groups
  calls : f'.calls = f.calls
  text : f'.definitionText? target = f.definitionText? source
  /-- The body begins and ends at the same places of the definition. -/
  bodyStart : f'.body.start + f.definition.start = f.body.start + f'.definition.start
  bodyStop : f'.body.stop + f.definition.start = f.body.stop + f'.definition.start

section Copies

variable {source a b : String} {f f₀ f' : Function}

theorem Copy.before (h : Copy source a f f') (htext : (f.definitionText? source).isSome)
    (b : String) :
    Copy source (a ++ b) f f' where
  __ := h
  text := by
    obtain ⟨text, hsource⟩ := Option.isSome_iff_exists.mp htext
    have hslice : f'.definitionText? a = some text := h.text.trans hsource
    rw [hsource]
    exact slice?_append_right b hslice

theorem Copy.behind (h : Copy source b f f₀)
    (hmeets : (Correspondence.shift (byteSize a.toList)).FunctionMeets f₀ f') :
    Copy source (a ++ b) f f' := by
  have hstart : f'.definition.start = f₀.definition.start + byteSize a.toList := hmeets.start
  have hbodyStart : f'.body.start = f₀.body.start + byteSize a.toList := hmeets.bodyStart
  have hbodyStop : f'.body.stop = f₀.body.stop + byteSize a.toList := hmeets.bodyStop
  have hfrom := h.bodyStart
  have hto := h.bodyStop
  refine ⟨?_, ?_, ?_, ?_, ?_, by omega, by omega⟩
  · rw [hmeets.name, shift_name, h.name]
  · rw [hmeets.returnType, shift_name, h.returnType]
  · rw [hmeets.groups, ← h.groups]
    simp only [map_shift_name, List.map_id']
  · rw [hmeets.calls, map_shift_name, h.calls]
  · rw [definitionText?_shift hmeets, h.text]

/-- One definition with the blank line behind it. -/
theorem copy_definition {text : String} (h : f ∈ functionsIn source)
    (htext : f.definitionText? source = some text) :
    Settled (text ++ "\n\n") ∧
      ∃ f₀, functionsIn (text ++ "\n\n") = [f₀] ∧ Copy source (text ++ "\n\n") f f₀ := by
  obtain ⟨piece, f₀, hpiece, hmode, hread, hmeets⟩ := exists_piece h
  obtain rfl := Option.some.inj (hpiece.symm.trans htext)
  have hlines : piece ++ "\n\n" = piece ++ "\n" ++ "\n" := by
    rw [String.append_assoc]
    rfl
  have hsettled : Settled (piece ++ "\n") := settled_newline hmode (by rw [hread])
  refine ⟨?_, f₀, ?_, ?_⟩
  · rw [hlines]
    exact hsettled.append ⟨rfl, rfl, rfl⟩
  · rw [hlines, functionsIn_newline, functionsIn_newline, functionsIn, hread,
      List.reverse_singleton]
  · have hstart : f.definition.start = f₀.definition.start + f.definition.start := hmeets.start
    have hstop : f.definition.stop = f₀.definition.stop + f.definition.start := hmeets.stop
    have hbodyStart : f.body.start = f₀.body.start + f.definition.start := hmeets.bodyStart
    have hbodyStop : f.body.stop = f₀.body.stop + f.definition.start := hmeets.bodyStop
    have hsize : f.definition.start + byteSize piece.toList = f.definition.stop :=
      byteSize_slice? htext
    -- the piece is the whole of its first function
    have hspan : f₀.definition = ⟨0, byteSize piece.toList⟩ := by
      rw [show f₀.definition = ⟨f₀.definition.start, f₀.definition.stop⟩ from rfl, Span.mk.injEq]
      omega
    refine ⟨?_, ?_, ?_, ?_, ?_, by omega, by omega⟩
    · rw [hmeets.name, shift_name]
    · rw [hmeets.returnType, shift_name]
    · rw [hmeets.groups]
      simp only [map_shift_name, List.map_id']
    · rw [hmeets.calls, map_shift_name]
    · rw [htext, Function.definitionText?, hspan]
      exact slice?_append_right _ (slice?_whole piece)

/-- The definitions of functions, with a blank line behind each. -/
def definitionsOf (source : String) (fs : List Function) : String :=
  String.join ((fs.filterMap (·.definitionText? source)).map (· ++ "\n\n"))

/-- **Definitions that have been copied** are found again, in their order. -/
theorem copies_definitionsOf {fs : List Function} (h : ∀ f ∈ fs, f ∈ functionsIn source) :
    Settled (definitionsOf source fs) ∧
      List.Forall₂ (Copy source (definitionsOf source fs)) fs
        (functionsIn (definitionsOf source fs)) := by
  induction fs using List.reverseRecOn with
  | nil => exact ⟨settled_empty, .nil⟩
  | append_singleton fs f ih =>
    rw [List.forall_mem_append, List.forall_mem_singleton] at h
    obtain ⟨hsettled, hcopies⟩ := ih h.1
    obtain ⟨text, htext⟩ := Option.isSome_iff_exists.mp (isSome_definitionText? h.2)
    obtain ⟨hpiece, f₀, hfunctions, hcopy⟩ := copy_definition h.2 htext
    have hmore :
        definitionsOf source (fs ++ [f]) = definitionsOf source fs ++ (text ++ "\n\n") := by
      simp [definitionsOf, List.filterMap_append, htext, String.join_append]
    rw [hmore]
    refine ⟨hsettled.append hpiece, ?_⟩
    obtain ⟨later, hlater, hmeets⟩ := hsettled.functionsIn_append (text ++ "\n\n")
    rw [hlater]
    rw [hfunctions] at hmeets
    -- the earlier functions keep their places, the last one is behind their text
    refine List.rel_append ?_ ?_
    · refine List.forall₂_iff_get.mpr ⟨hcopies.length_eq, fun i hi hi' => ?_⟩
      have htexts := isSome_definitionText? (h.1 _ (List.get_mem fs ⟨i, hi⟩))
      exact (hcopies.get hi hi').before htexts _
    · cases hmeets with
      | cons hmeet htail =>
        cases htail
        exact .cons (hcopy.behind hmeet) .nil

end Copies

/-! ## All requests of a new emitter -/

/-- The functions that requests lead to, in the order of their definitions. -/
structure Emission (library : String) (requests : List String) (fs : List Function) : Prop where
  nodup : (fs.map (·.name)).Nodup
  /-- They are the functions of the library that can be reached from a known name that was asked
  for, through calls. -/
  mem_iff : ∀ f, f ∈ fs ↔ find? (functionsIn library) f.name = some f ∧
    ∃ name ∈ requests, (find? (functionsIn library) name).isSome ∧
      ReflTransGen (Invokes library) name f.name
  /-- Unless it is on a circle of calls, a function stands behind all known functions that it
  calls. -/
  ordered : ∀ before f after, fs = before ++ f :: after →
    ¬ TransGen (Invokes library) f.name f.name →
    ∀ called, Invokes library f.name called → ∃ g ∈ before, g.name = called

/-- The functions behind the entries that have been copied. -/
theorem exists_functions (hfound : ∀ x ∈ es, Entry.find? (entries library) x.name = some x) :
    ∃ fs : List Function, fs.map (·.name) = es.map (·.name) ∧
      (∀ f ∈ fs, find? (functionsIn library) f.name = some f) ∧
      fs.filterMap (·.definitionText? library) = es.map (·.text) := by
  induction es with
  | nil => exact ⟨[], rfl, fun f hf => absurd hf List.not_mem_nil, rfl⟩
  | cons x es ih =>
    rw [List.forall_mem_cons] at hfound
    obtain ⟨fs, hnames, hfs, htexts⟩ := ih hfound.2
    obtain ⟨f, hf, -, htext⟩ := exists_function_of_find? hfound.1
    have hname : f.name = x.name := name_of_find? hf
    refine ⟨f :: fs, ?_, List.forall_mem_cons.mpr ⟨?_, hfs⟩, ?_⟩
    · rw [List.map_cons, List.map_cons, hname, hnames]
    · rw [hname, hf]
    · rw [List.filterMap_cons, htext, htexts, List.map_cons]

/-- A name with a function behind it, as far as calls lead. -/
theorem isSome_of_reflTransGen {name other : String} (h : ReflTransGen (Invokes library) name other)
    (hother : (find? (functionsIn library) other).isSome) :
    (find? (functionsIn library) name).isSome := by
  rcases h.cases_head with rfl | ⟨_, ⟨f, hf, _⟩, _⟩
  · exact hother
  · rw [hf]
    rfl

/-- What has been copied is closed under calls. -/
theorem Answered.mem_of_reached (h : Answered library requests e es) {name other : String}
    (hname : name ∈ es.map (·.name)) (hreach : ReflTransGen (Invokes library) name other) :
    other ∈ es.map (·.name) := by
  induction hreach with
  | refl => exact hname
  | tail _ hinvokes ih =>
    obtain ⟨x, hx, rfl⟩ := List.mem_map.mp ih
    exact h.closed x hx _ hinvokes

theorem Answered.emission (h : Answered library requests e es) {fs : List Function}
    (hnames : fs.map (·.name) = es.map (·.name))
    (hfs : ∀ f ∈ fs, find? (functionsIn library) f.name = some f) :
    Emission library requests fs where
  nodup := hnames ▸ h.nodup
  mem_iff f := by
    constructor
    · intro hf
      have hmem : f.name ∈ es.map (·.name) := hnames ▸ List.mem_map_of_mem hf
      obtain ⟨x, hx, hxname⟩ := List.mem_map.mp hmem
      obtain ⟨name, hname, hreach⟩ := h.reached x hx
      rw [hxname] at hreach
      have hknown : (find? (functionsIn library) f.name).isSome := by rw [hfs f hf]; rfl
      exact ⟨hfs f hf, name, hname, isSome_of_reflTransGen hreach hknown, hreach⟩
    · rintro ⟨hf, name, hname, hknown, hreach⟩
      have hmem := h.mem_of_reached (h.asked name hname hknown) hreach
      rw [← hnames] at hmem
      obtain ⟨f', hf', hname'⟩ := List.mem_map.mp hmem
      have hsame := hfs f' hf'
      rw [hname', hf] at hsame
      rw [Option.some.inj hsame]
      exact hf'
  ordered before f after hsplit hcircle called hcalled := by
    have hordered := h.ordered
    rw [← hnames, hsplit, List.map_append, List.map_cons, calleesFirst_append] at hordered
    have hmem := hordered.2.1 hcircle called hcalled
    rw [List.nil_append] at hmem
    exact List.mem_map.mp hmem

/-- **Pasting is emission.** After any requests to a new emitter that has loaded a library, the next
request is answered exactly if its name is known, and no bound on the nesting of calls plays a role.
The definitions are those of the functions that the requests lead to: each of them once, each behind
what it calls unless calls go in circles, and each found again in the text. -/
theorem paste_emission (library : String) (requests : List String) :
    (∀ name,
      ((Emitter.paste name library).run (Emitter.requested library requests)).result =
          (if (find? (functionsIn library) name).isSome then .ok ()
            else .error (.unknownFunction name)) ∧
        ∀ depth, (functionsIn library).length ≤ depth →
          ((Emitter.pasteWithin library depth name).run
            (Emitter.requested library requests)).result =
              ((Emitter.paste name library).run (Emitter.requested library requests)).result ∧
            ((Emitter.pasteWithin library depth name).run
              (Emitter.requested library requests)).state =
              ((Emitter.paste name library).run (Emitter.requested library requests)).state) ∧
      ∃ fs, Emission library requests fs ∧
        (∀ f ∈ fs, (f.definitionText? library).isSome) ∧
        (Emitter.requested library requests).definitionsText = definitionsOf library fs ∧
        List.Forall₂ (Copy library (Emitter.requested library requests).definitionsText) fs
          (functionsIn (Emitter.requested library requests).definitionsText) := by
  obtain ⟨es, h⟩ := exists_answered library requests
  refine ⟨fun name => ⟨(h.paste name).1, (h.paste name).2.1⟩, ?_⟩
  obtain ⟨fs, hnames, hfs, htexts⟩ := exists_functions h.found
  have hmem : ∀ f ∈ fs, f ∈ functionsIn library := fun f hf => mem_of_find? (hfs f hf)
  have htext : (Emitter.requested library requests).definitionsText = definitionsOf library fs := by
    rw [Emitter.definitionsText, h.definitions, renderPieces, definitionsOf, htexts, List.map_map,
      List.map_map]
    rfl
  refine ⟨fs, h.emission hnames hfs, fun f hf => isSome_definitionText? (hmem f hf), htext, ?_⟩
  rw [htext]
  exact (copies_definitionsOf hmem).2

end Texel.Glsl
