import Texel.Glsl.Emitter
import Texel.Proofs.Action
import Texel.Proofs.Glsl.Extraction

/-!
# Texel — what pasting copies

Pasting goes depth first through the calls of a function. `Pastes` describes such a walk through a
table of entries, without an emitter: which entries it meets, in the order in which they are copied,
and which names count as pasted afterwards.

* **`IsPasting`** — what a way to paste does with one name.
* **`IsPasting.run`** — so it copies exactly the entries of the walk.
* **`Pastes.frame`** — a walk stays the same in a larger table and when other names have been
  pasted before, as long as the names that it asks for mean the same.
-/

namespace Texel.Glsl

/-- A walk from `names` that copies entries, functions nested at most `depth` deep. `pasted` lists
what has been pasted, before and after. -/
inductive Pastes (look : String → Option Entry) :
    (depth : Nat) → (pasted names : List String) → List Entry → List String → Prop
  | nil {d : Nat} {p : List String} : Pastes look d p [] [] p
  /-- A name that has been pasted is passed over. -/
  | skip {d : Nat} {p names q : List String} {name : String} {es : List Entry} (hname : name ∈ p)
    (hnames : Pastes look d p names es q) : Pastes look d p (name :: names) es q
  /-- A function comes after the known functions that it calls. -/
  | paste {d : Nat} {p names q r : List String} {name : String} {e : Entry} {es fs : List Entry}
    (hname : name ∉ p) (hlook : look name = some e)
    (hcalls : Pastes look d (name :: p) (e.calls.filter fun called => (look called).isSome) es q)
    (hnames : Pastes look (d + 1) q names fs r) :
    Pastes look (d + 1) p (name :: names) (es ++ e :: fs) r

variable {look : String → Option Entry} {d : Nat} {p q names : List String} {es : List Entry}

/-- More room to nest changes nothing. -/
theorem Pastes.mono (h : Pastes look d p names es q) {d' : Nat} (hd : d ≤ d') :
    Pastes look d' p names es q := by
  induction h generalizing d' with
  | nil => exact .nil
  | skip hname _ ih => exact .skip hname (ih hd)
  | paste hname hlook _ _ ihcalls ihnames =>
    obtain ⟨k, rfl⟩ : ∃ k, d' = k + 1 := ⟨d' - 1, by omega⟩
    exact .paste hname hlook (ihcalls (by omega)) (ihnames hd)

/-- **Locality.** The walk depends on the meaning of the names that it comes across. -/
theorem Pastes.frame {look' : String → Option Entry} {p' : List String}
    (hfind : ∀ name e, look name = some e → e.name = name) (h : Pastes look d p names es q)
    (hnames : ∀ name ∈ names, look' name = look name)
    (hcalls : ∀ e ∈ es, ∀ name ∈ e.calls, look' name = look name)
    (hfresh : ∀ e ∈ es, e.name ∉ p') :
    Pastes look' d (p ++ p') names es (q ++ p') := by
  induction h with
  | nil => exact .nil
  | skip hname _ ih =>
    rw [List.forall_mem_cons] at hnames
    exact .skip (List.mem_append_left _ hname) (ih hnames.2 hcalls hfresh)
  | @paste d p names q r name e es fs hname hlook _ _ ihcalls ihnames =>
    rw [List.forall_mem_cons] at hnames
    have hself : e ∈ es ++ e :: fs := by simp
    have hother : name ∉ p ++ p' := by
      rw [List.mem_append, not_or]
      exact ⟨hname, hfind name e hlook ▸ hfresh e hself⟩
    have hfilter : (e.calls.filter fun called => (look' called).isSome) =
        e.calls.filter fun called => (look called).isSome :=
      List.filter_congr fun called hcalled => by rw [hcalls e hself called hcalled]
    have hbefore : Pastes look' d (name :: (p ++ p'))
        (e.calls.filter fun called => (look' called).isSome) es (q ++ p') := by
      rw [hfilter]
      refine ihcalls ?_ ?_ ?_
      · intro called hcalled
        exact hcalls e hself called (List.mem_of_mem_filter hcalled)
      · exact fun x hx => hcalls x (List.mem_append_left _ hx)
      · exact fun x hx => hfresh x (List.mem_append_left _ hx)
    have hafter : Pastes look' (d + 1) (q ++ p') names fs (r ++ p') := by
      refine ihnames hnames.2 ?_ ?_
      · exact fun x hx => hcalls x (List.mem_append_right _ (List.mem_cons_of_mem _ hx))
      · exact fun x hx => hfresh x (List.mem_append_right _ (List.mem_cons_of_mem _ hx))
    exact .paste hother (hnames.1.trans hlook) hbefore hafter

/-! ## Looking functions up -/

theorem mem_of_find? {fs : List Function} {name : String} {f : Function}
    (h : find? fs name = some f) :
    f ∈ fs :=
  List.mem_reverse.mp (List.mem_of_find?_eq_some h)

theorem name_of_find? {fs : List Function} {name : String} {f : Function}
    (h : find? fs name = some f) :
    f.name = name := by
  simpa using List.find?_some h

theorem Entry.mem_of_find? {es : List Entry} {name : String} {e : Entry}
    (h : Entry.find? es name = some e) : e ∈ es :=
  List.mem_reverse.mp (List.mem_of_find?_eq_some h)

theorem Entry.name_of_find? {es : List Entry} {name : String} {e : Entry}
    (h : Entry.find? es name = some e) : e.name = name := by
  simpa using List.find?_some h

theorem Entry.find?_eq_none_iff {es : List Entry} {name : String} :
    Entry.find? es name = none ↔ name ∉ es.map (·.name) := by
  rw [Entry.find?, List.find?_eq_none]
  simp

/-- Where names are defined once, every entry can be found. -/
theorem Entry.find?_of_mem {es : List Entry} (hnodup : (es.map (·.name)).Nodup) {e : Entry}
    (he : e ∈ es) : Entry.find? es e.name = some e := by
  cases hfound : Entry.find? es e.name with
  | none => exact absurd (List.mem_map_of_mem he) (Entry.find?_eq_none_iff.mp hfound)
  | some e' =>
    rw [List.inj_on_of_nodup_map hnodup (Entry.mem_of_find? hfound) he (Entry.name_of_find? hfound)]

/-- A part of a table answers for the names that it defines, and for those that nobody defines. -/
theorem Entry.find?_of_sublist {es part : List Entry} (hnodup : (es.map (·.name)).Nodup)
    (hpart : part.Sublist es) {name : String}
    (h : name ∈ part.map (·.name) ∨ name ∉ es.map (·.name)) :
    Entry.find? es name = Entry.find? part name := by
  rcases h with h | h
  · obtain ⟨e, he, rfl⟩ := List.mem_map.mp h
    rw [Entry.find?_of_mem hnodup (hpart.subset he),
      Entry.find?_of_mem (hnodup.sublist (hpart.map _)) he]
  · have hpart' : name ∉ part.map (·.name) := fun hmem => h ((hpart.map _).subset hmem)
    rw [Entry.find?_eq_none_iff.mpr h, Entry.find?_eq_none_iff.mpr hpart']

/-! ## The emitter -/

/-- The copy of an entry. -/
def Entry.piece (e : Entry) : Piece := .definition e.name e.text

namespace Emitter

/-- The emitter after copying entries. -/
def copied (e : Emitter) (es : List Entry) (pasted : List String) : Emitter :=
  { e with definitions := e.definitions ++ es.map Entry.piece, pasted }

variable {library : String} {e : Emitter}

/-- The function behind an entry. -/
theorem exists_function? (hfunctions : e.functions = functionsIn library) {name : String}
    {entry : Entry} (h : Entry.find? (entries library) name = some entry) :
    ∃ f, e.function? name = some f ∧ f.heading = entry.toHeading ∧
      f.definitionText? library = some entry.text := by
  rw [find?_entries] at h
  obtain ⟨f, hf, hentry⟩ := Option.bind_eq_some_iff.mp h
  obtain ⟨text, htext, rfl⟩ := Option.map_eq_some_iff.mp hentry
  exact ⟨f, by rw [Emitter.function?, hfunctions, hf], rfl, htext⟩

theorem isSome_function? (hfunctions : e.functions = functionsIn library) (name : String) :
    (e.function? name).isSome = (Entry.find? (entries library) name).isSome := by
  rw [find?_entries, Emitter.function?, hfunctions]
  cases hf : find? (functionsIn library) name with
  | none => rfl
  | some f =>
    exact (definitionText?_isSome_iff.mp (isSome_definitionText? (mem_of_find? hf))).symm

theorem load_returns (library : String) (e : Emitter) :
    (load library).Returns e () { e with functions := functionsIn library } :=
  (Action.Returns.reportAll _ e).bind (.update _ e)

/-- A name that has been pasted is left alone. -/
theorem pasteWithin_pasted {name : String} (h : name ∈ e.pasted) (depth : Nat) :
    (pasteWithin library depth name).Returns e () e := by
  have hpasted : e.isPasted name = true := List.contains_iff_mem.mpr h
  cases depth with
  | zero =>
    rw [pasteWithin]
    refine (Action.Returns.state e).bind ?_
    rw [hpasted, Bool.true_or, if_pos rfl]
    exact .pure () e
  | succ depth =>
    rw [pasteWithin]
    refine (Action.Returns.state e).bind ?_
    rw [if_pos hpasted]
    exact .pure () e

/-- A function is copied after what it calls. -/
theorem pasteWithin_fresh {name : String} (h : name ∉ e.pasted) {f : Function}
    (hf : e.function? name = some f) {text : String} (htext : f.definitionText? library = some text)
    {depth : Nat} {e' : Emitter}
    (hcalls : (Action.each (pasteWithin library depth)
      (f.calls.filter fun called => (e.function? called).isSome)).Returns
        { e with pasted := name :: e.pasted } () e') :
    (pasteWithin library (depth + 1) name).Returns e ()
      { e' with definitions := e'.definitions ++ [.definition f.name text] } := by
  have hpasted : ¬ e.isPasted name = true := mt List.contains_iff_mem.mp h
  rw [pasteWithin]
  refine (Action.Returns.state e).bind ?_
  rw [if_neg hpasted]
  refine (Action.Returns.ofOption hf _ e).bind ((Action.Returns.update _ e).bind (hcalls.bind ?_))
  rw [copy, htext]
  exact .update _ e'

/-- A way to paste: names that have been pasted are passed over, and a function is copied after what
it calls, with less room. -/
structure IsPasting {ε : Type} (library : String) (step : Nat → String → Action Emitter ε Unit) :
    Prop where
  pasted : ∀ {name : String} {e : Emitter}, name ∈ e.pasted → ∀ depth,
    (step depth name).Returns e () e
  fresh : ∀ {name : String} {e : Emitter}, name ∉ e.pasted → ∀ {f : Function},
    e.function? name = some f → ∀ {text : String}, f.definitionText? library = some text →
    ∀ {depth : Nat} {e' : Emitter},
      (Action.each (step depth) (f.calls.filter fun called => (e.function? called).isSome)).Returns
        { e with pasted := name :: e.pasted } () e' →
      (step (depth + 1) name).Returns e ()
        { e' with definitions := e'.definitions ++ [.definition f.name text] }

theorem isPasting_pasteWithin (library : String) : IsPasting library (pasteWithin library) :=
  ⟨pasteWithin_pasted, pasteWithin_fresh⟩

end Emitter

/-- **Pasting.** The emitter copies the entries of the walk. -/
theorem Emitter.IsPasting.run {ε : Type} {library : String}
    {step : Nat → String → Action Emitter ε Unit} (hstep : Emitter.IsPasting library step)
    (h : Pastes (Entry.find? (entries library)) d p names es q) {e : Emitter}
    (hfunctions : e.functions = functionsIn library) (hpasted : e.pasted = p) :
    (Action.each (step d) names).Returns e () (e.copied es q) := by
  induction h generalizing e with
  | @nil d p =>
    have hsame : e.copied [] p = e := by
      rw [← hpasted]
      simp [Emitter.copied]
    rw [hsame]
    exact .each_nil _ e
  | skip hname _ ih =>
    exact .each_cons (hstep.pasted (hpasted ▸ hname) _) (ih hfunctions hpasted)
  | @paste d p names q r name entry es fs hname hlook _ _ ihcalls ihnames =>
    obtain ⟨f, hf, hheading, htext⟩ := Emitter.exists_function? hfunctions hlook
    have hfilter : (f.calls.filter fun called => (e.function? called).isSome) =
        entry.calls.filter fun called => (Entry.find? (entries library) called).isSome := by
      rw [show f.calls = entry.calls from congrArg Heading.calls hheading]
      exact List.filter_congr fun called _ => Emitter.isSome_function? hfunctions called
    have hcalls := ihcalls (e := { e with pasted := name :: e.pasted }) hfunctions
      (congrArg (name :: ·) hpasted)
    rw [← hfilter] at hcalls
    have hcopy := hstep.fresh (hpasted ▸ hname) hf htext hcalls
    have hrest := ihnames (e := e.copied (es ++ [entry]) q) hfunctions rfl
    -- what has been copied so far: the calls, then the function itself
    have hnow : { ({ e with pasted := name :: e.pasted } : Emitter).copied es q with
        definitions :=
          (({ e with pasted := name :: e.pasted } : Emitter).copied es q).definitions ++
          [.definition f.name entry.text] } = e.copied (es ++ [entry]) q := by
      simp [Emitter.copied, show f.name = entry.name from congrArg Heading.name hheading,
        Entry.piece]
    have hend : (e.copied (es ++ [entry]) q).copied fs r = e.copied (es ++ entry :: fs) r := by
      simp [Emitter.copied]
    rw [hnow] at hcopy
    rw [hend] at hrest
    exact .each_cons hcopy hrest

theorem Pastes.run {library : String} (h : Pastes (Entry.find? (entries library)) d p names es q)
    {e : Emitter} (hfunctions : e.functions = functionsIn library) (hpasted : e.pasted = p) :
    (Action.each (Emitter.pasteWithin library d) names).Returns e () (e.copied es q) :=
  (Emitter.isPasting_pasteWithin library).run h hfunctions hpasted

/-- Pasting one function. -/
theorem Emitter.paste_returns {library : String} {e : Emitter}
    (hfunctions : e.functions = functionsIn library) {name : String}
    (h : Pastes (Entry.find? (entries library)) e.functions.length e.pasted [name] es q) :
    (Emitter.paste name library).Returns e () (e.copied es q) := by
  refine (Action.Returns.state e).bind ?_
  exact (h.run hfunctions rfl).of_each_singleton

end Texel.Glsl
