import Texel.Proofs.Glsl.Paste

/-!
# Texel — what pasting leaves behind

Pasting marks a function before it turns to the functions that it calls, so a walk always ends; and
since there is room for as many functions in one another's turn as there are functions, it never
ends for want of room. When it is over, whatever has been copied has the functions that it calls
beside it, and nothing has been copied twice.

* **`Walked`** — what a walk leaves behind, and **`Pastes.walked`**, by induction on the walk.
* **`exists_pastes`**, **`Emitter.exists_walk`** — there is a walk from every list of known names.
* **`Emitter.paste_cases`** — what pasting does to an emitter, if it returns.
-/

namespace Texel.Glsl

/-- The entries `es` have been copied for `names`, where `p` had been pasted before and `q` is
pasted now. -/
structure Walked (look : String → Option Entry) (p names : List String) (es : List Entry)
    (q : List String) : Prop where
  kept : p ⊆ q
  asked : names ⊆ q
  /-- Everything that is copied stands in the table. -/
  found : ∀ e ∈ es, look e.name = some e
  fresh : ∀ e ∈ es, e.name ∉ p
  mem_iff : ∀ name, name ∈ q ↔ name ∈ p ∨ name ∈ es.map (·.name)
  /-- Known functions that are called have been pasted as well. -/
  called : ∀ e ∈ es, ∀ name ∈ e.calls, (look name).isSome → name ∈ q
  nodup : (es.map (·.name)).Nodup

variable {look : String → Option Entry} {d : Nat} {p q names : List String} {es : List Entry}

/-- **Walks** leave nothing open. -/
theorem Pastes.walked (hfind : ∀ name e, look name = some e → e.name = name)
    (h : Pastes look d p names es q) : Walked look p names es q := by
  induction h with
  | @nil d p =>
    exact ⟨fun _ h => h, List.nil_subset _, fun e he => absurd he List.not_mem_nil,
      fun e he => absurd he List.not_mem_nil, by simp, fun e he => absurd he List.not_mem_nil, .nil⟩
  | skip hname _ ih =>
    exact { ih with asked := List.cons_subset.mpr ⟨ih.kept hname, ih.asked⟩ }
  | @paste d p names q r name e es fs hname hlook _ _ ihcalls ihnames =>
    have hself : e.name = name := hfind name e hlook
    have hq : name ∈ q := ihcalls.kept List.mem_cons_self
    have hmem : ∀ x, x ∈ es ++ e :: fs ↔ x ∈ es ∨ x = e ∨ x ∈ fs := by simp
    have hnames : (es ++ e :: fs).map (·.name) = es.map (·.name) ++ name :: fs.map (·.name) := by
      rw [List.map_append, List.map_cons, hself]
    refine ⟨?_, ?_, ?_, ?_, ?_, ?_, ?_⟩
    · exact fun x hx => ihnames.kept (ihcalls.kept (List.mem_cons_of_mem _ hx))
    · exact List.cons_subset.mpr ⟨ihnames.kept hq, ihnames.asked⟩
    · intro x hx
      rcases (hmem x).mp hx with hx | rfl | hx
      · exact ihcalls.found x hx
      · rw [hself, hlook]
      · exact ihnames.found x hx
    · intro x hx hpasted
      rcases (hmem x).mp hx with hx | rfl | hx
      · exact ihcalls.fresh x hx (List.mem_cons_of_mem _ hpasted)
      · exact hname (hself ▸ hpasted)
      · exact ihnames.fresh x hx (ihcalls.kept (List.mem_cons_of_mem _ hpasted))
    · intro x
      rw [ihnames.mem_iff, ihcalls.mem_iff, hnames, List.mem_cons, List.mem_append, List.mem_cons]
      tauto
    · intro x hx called hcalled hknown
      rcases (hmem x).mp hx with hx | rfl | hx
      · exact ihnames.kept (ihcalls.called x hx called hcalled hknown)
      · exact ihnames.kept (ihcalls.asked (List.mem_filter.mpr ⟨hcalled, hknown⟩))
      · exact ihnames.called x hx called hcalled hknown
    · -- the function itself comes after those it calls, and before those of the other names
      rw [hnames]
      have hbefore : name ∉ es.map (·.name) := by
        intro hin
        obtain ⟨x, hx, hxname⟩ := List.mem_map.mp hin
        exact ihcalls.fresh x hx (hxname ▸ List.mem_cons_self)
      have hafter : ∀ x ∈ fs.map (·.name), x ∉ q := by
        intro x hx hxq
        obtain ⟨y, hy, rfl⟩ := List.mem_map.mp hx
        exact ihnames.fresh y hy hxq
      refine List.nodup_append.mpr ⟨ihcalls.nodup, ?_, ?_⟩
      · exact List.nodup_cons.mpr ⟨fun hin => hafter name hin hq, ihnames.nodup⟩
      · intro x hx y hy hxy
        subst hxy
        rcases List.mem_cons.mp hy with rfl | hy
        · exact hbefore hx
        · exact hafter x hy ((ihcalls.mem_iff x).mpr (Or.inr hx))

/-! ## Walks exist -/

/-- How many known names are left. -/
def left (known p : List String) : Nat := (known.toFinset \ p.toFinset).card

theorem left_mono {known : List String} (h : p ⊆ q) : left known q ≤ left known p := by
  refine Finset.card_le_card (Finset.sdiff_subset_sdiff (Finset.Subset.refl _) ?_)
  intro x hx
  exact List.mem_toFinset.mpr (h (List.mem_toFinset.mp hx))

theorem left_cons_lt {known : List String} {name : String} (hknown : name ∈ known)
    (hname : name ∉ p) :
    left known (name :: p) < left known p := by
  refine Finset.card_lt_card ⟨?_, ?_⟩
  · refine Finset.sdiff_subset_sdiff (Finset.Subset.refl _) ?_
    intro x hx
    exact List.mem_toFinset.mpr (List.mem_cons_of_mem _ (List.mem_toFinset.mp hx))
  · intro hsub
    have hin : name ∈ known.toFinset \ p.toFinset := by simp [hknown, hname]
    simpa using hsub hin

theorem left_le_length (known p : List String) : left known p ≤ known.length :=
  (Finset.card_le_card Finset.sdiff_subset).trans (List.toFinset_card_le known)

/-- **Room.** Where names are left for at most `d` more turns, walks that nest `d` deep exist. The
induction is on the room, and then on the names. -/
theorem exists_pastes (known : List String) (hknown : ∀ name, (look name).isSome → name ∈ known)
    (hfind : ∀ name e, look name = some e → e.name = name) (d : Nat) :
    ∀ (p names : List String), left known p ≤ d → (∀ name ∈ names, (look name).isSome) →
      ∃ es q, Pastes look d p names es q := by
  induction d with
  | zero =>
    intro p names hroom hnames
    -- everything that is known has been pasted
    have hpasted : ∀ name ∈ names, name ∈ p := by
      intro name hname
      by_contra hnot
      have := left_cons_lt (hknown name (hnames name hname)) hnot
      omega
    clear hnames
    induction names with
    | nil => exact ⟨[], p, .nil⟩
    | cons name names ih =>
      rw [List.forall_mem_cons] at hpasted
      obtain ⟨es, q, hes⟩ := ih hpasted.2
      exact ⟨es, q, .skip hpasted.1 hes⟩
  | succ d ihd =>
    intro p names
    induction names generalizing p with
    | nil => exact fun _ _ => ⟨[], p, .nil⟩
    | cons name names ih =>
      intro hroom hnames
      rw [List.forall_mem_cons] at hnames
      by_cases hname : name ∈ p
      · obtain ⟨es, q, hes⟩ := ih p hroom hnames.2
        exact ⟨es, q, .skip hname hes⟩
      · obtain ⟨e, he⟩ := Option.isSome_iff_exists.mp hnames.1
        have hless := left_cons_lt (hknown name hnames.1) hname
        have hroom' : left known (name :: p) ≤ d := by omega
        obtain ⟨es, q, hes⟩ := ihd _ (e.calls.filter fun called => (look called).isSome) hroom'
          fun called hcalled => (List.mem_filter.mp hcalled).2
        have hmore : left known q ≤ left known p :=
          left_mono fun x hx => (hes.walked hfind).kept (List.mem_cons_of_mem _ hx)
        obtain ⟨fs, r, hfs⟩ := ih q (hmore.trans hroom) hnames.2
        exact ⟨es ++ e :: fs, r, .paste hname he hes hfs⟩

/-! ## Emitters -/

namespace Emitter

variable {library name : String} {e e' : Emitter}

/-- Only a function that has been pasted, or is known, can be pasted. -/
theorem pasted_or_known {depth : Nat} (h : (pasteWithin library depth name).Returns e () e') :
    name ∈ e.pasted ∨ (e.function? name).isSome := by
  cases depth with
  | zero =>
    rw [pasteWithin] at h
    obtain ⟨_, _, hstate, hrest⟩ := h.of_bind
    obtain ⟨rfl, rfl⟩ := hstate.of_state
    split_ifs at hrest with hknown
    · rw [Bool.or_eq_true] at hknown
      exact hknown.imp List.contains_iff_mem.mp id
    · cases hrest.1
  | succ depth =>
    rw [pasteWithin] at h
    obtain ⟨_, _, hstate, hrest⟩ := h.of_bind
    obtain ⟨rfl, rfl⟩ := hstate.of_state
    split_ifs at hrest with hpasted
    · exact Or.inl (List.contains_iff_mem.mp hpasted)
    · obtain ⟨f, _, hfunction, _⟩ := hrest.of_bind
      rw [hfunction.of_ofOption.1]
      exact Or.inr rfl

/-- There is a walk from every known name, however many names have been pasted. -/
theorem exists_walk (hfunctions : e.functions = functionsIn library)
    (hknown : (e.function? name).isSome) :
    ∃ es q, Pastes (Entry.find? (entries library)) e.functions.length e.pasted [name] es q := by
  rw [isSome_function? hfunctions] at hknown
  refine exists_pastes ((entries library).map (·.name)) ?_ (fun _ _ => Entry.name_of_find?) _ _ _
    ?_ ?_
  · intro other hother
    by_contra hnot
    rw [Entry.find?_eq_none_iff.mpr hnot] at hother
    cases hother
  · calc left ((entries library).map (·.name)) e.pasted
        ≤ ((entries library).map (·.name)).length := left_le_length _ _
      _ ≤ e.functions.length := by
        rw [List.length_map, hfunctions]
        exact List.length_filterMap_le _ _
  · exact List.forall_mem_singleton.mpr hknown

/-- **Pasting**, if it returns, copies the entries of a walk. -/
theorem paste_cases (hfunctions : e.functions = functionsIn library)
    (h : (paste name library).Returns e () e') :
    ∃ es q, Walked (Entry.find? (entries library)) e.pasted [name] es q ∧ e' = e.copied es q := by
  have hfind : ∀ name entry, Entry.find? (entries library) name = some entry → entry.name = name :=
    fun _ _ => Entry.name_of_find?
  obtain ⟨_, _, hstate, hrest⟩ := h.of_bind
  obtain ⟨rfl, rfl⟩ := hstate.of_state
  obtain ⟨es, q, hes⟩ : ∃ es q, Pastes (Entry.find? (entries library)) e.functions.length e.pasted
      [name] es q := by
    rcases pasted_or_known hrest with hpasted | hknown
    · exact ⟨[], e.pasted, .skip hpasted .nil⟩
    · exact exists_walk hfunctions hknown
  exact ⟨es, q, hes.walked hfind, h.2.symm.trans (paste_returns hfunctions hes).2⟩

end Emitter
end Texel.Glsl
