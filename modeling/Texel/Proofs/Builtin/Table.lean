import Texel.Proofs.Builtin.Specialised
import Texel.Proofs.Glsl.Paste

/-!
# Texel — the functions of a program

A program has the libraries of its single-pass operators, each once, and one specialised definition
for each of its multi-pass nodes. No name is defined twice in such a table, and none of the
libraries calls a function of another one; so pasting the function of a node copies the functions of
its own library, in the order in which they are defined there.

* **`table`** — the entries of a program.
* **`nodup_table`** — names are defined once.
* **`pastes_operator`**, **`pastes_specialised`** — the walks from the function of a node.
-/

namespace Texel.Builtin

open Glsl Program

theorem mem_all (b : Builtin) : b ∈ all := by cases b <;> decide

/-- The names that the library of an operator defines. -/
def names (b : Builtin) : List String := b.headings.map (·.name)

/-- The names that come up when the library of an operator is pasted. -/
def mentions (b : Builtin) : List String := b.headings.flatMap fun h => h.name :: h.calls

/-! ## Names of the libraries -/

/-- Libraries do not define what another one mentions. -/
theorem disjoint_names {b c : Builtin} (h : b ≠ c) : ∀ name ∈ b.mentions, name ∉ c.names := by
  have hall : ∀ b ∈ all, ∀ c ∈ all, b ≠ c → ∀ name ∈ b.mentions, name ∉ c.names := by
    decide +kernel
  exact hall b b.mem_all c c.mem_all h

theorem nodup_names (b : Builtin) : b.names.Nodup := by
  have hall : ∀ b ∈ all, b.names.Nodup := by decide +kernel
  exact hall b b.mem_all

/-- Nothing that a single-pass library mentions looks like a name made for a node. -/
theorem isPlain_mentions {b : Builtin} (h : b ≠ heightGradient) :
    ∀ name ∈ b.mentions, isPlain name.toList = true := by
  have hall : ∀ b ∈ all, b ≠ heightGradient → ∀ name ∈ b.mentions, isPlain name.toList = true := by
    decide +kernel
  exact hall b b.mem_all h

theorem names_subset_mentions (b : Builtin) : ∀ name ∈ b.names, name ∈ b.mentions := by
  intro name hname
  obtain ⟨h, hh, rfl⟩ := List.mem_map.mp hname
  exact List.mem_flatMap.mpr ⟨h, hh, List.mem_cons_self⟩

theorem function_mem_names (b : Builtin) : b.operator.function ∈ b.names := by
  simp [names, headings]

/-! ## The table of a program -/

/-- The entries of the library of an operator. -/
def entriesOf (b : Builtin) : List Entry := entries b.operator.library

theorem map_toHeading_entriesOf (b : Builtin) : b.entriesOf.map (·.toHeading) = b.headings :=
  b.library_holds.headings

theorem map_name_entriesOf (b : Builtin) : b.entriesOf.map (·.name) = b.names := by
  rw [names, ← map_toHeading_entriesOf, List.map_map]
  rfl

/-- The entries of a program with the libraries of certain operators and certain multi-pass
nodes. -/
def table (operators : List Builtin) (nodes : List Nat) : List Entry :=
  operators.flatMap entriesOf ++ nodes.map gradientEntry

variable {operators : List Builtin} {nodes : List Nat}

theorem mem_names_table {name : String} :
    name ∈ (table operators nodes).map (·.name) ↔
      (∃ b ∈ operators, name ∈ b.names) ∨ ∃ n ∈ nodes, name = specialisedName gradient n := by
  simp only [table, List.map_append, List.mem_append, List.map_flatMap, List.mem_flatMap,
    map_name_entriesOf, List.map_map, List.mem_map, Function.comp_apply, eq_comm]
  rfl

theorem specialisedName_not_plain (n : Nat) :
    isPlain (specialisedName gradient n).toList = false := by
  have := List.isPrefixOf_iff_prefix.mpr (prefix_specialisedName n)
  simp [isPlain, this]

theorem subtreeName_not_plain (n : Nat) : isPlain (subtreeName n).toList = false := by
  have := List.isPrefixOf_iff_prefix.mpr (prefix_subtreeName n)
  simp [isPlain, this]

theorem subtreeName_ne_specialisedName (n m : Nat) :
    subtreeName n ≠ specialisedName gradient m := by
  rw [Ne, ← String.toList_inj, toList_specialisedName, toList_gradient, toList_subtreeName,
    plainGradient]
  simp

/-- A name made for a node is not one of a library. -/
theorem notMem_mentions_of_not_plain {b : Builtin} (hb : b ≠ heightGradient) {name : String}
    (hname : isPlain name.toList = false) : name ∉ b.mentions := by
  intro hmem
  rw [isPlain_mentions hb name hmem] at hname
  cases hname

section

variable (hoperators : operators.Nodup) (hsingle : heightGradient ∉ operators)
  (hnodes : nodes.Nodup)

include hoperators hsingle hnodes

/-- **Names are defined once.** -/
theorem nodup_table : ((table operators nodes).map (·.name)).Nodup := by
  have hne : ∀ b ∈ operators, b ≠ heightGradient := fun b hb h => hsingle (h ▸ hb)
  have hlibraries : ((operators.flatMap entriesOf).map (·.name)).Nodup := by
    rw [List.map_flatMap, List.nodup_flatMap]
    simp only [map_name_entriesOf]
    refine ⟨fun b _ => b.nodup_names, hoperators.imp fun hbc => ?_⟩
    exact fun name hb hc => disjoint_names hbc name (names_subset_mentions _ name hb) hc
  have hspecialised : ((nodes.map gradientEntry).map (·.name)).Nodup := by
    rw [List.map_map]
    exact hnodes.map fun _ _ h => specialisedName_inj.mp h
  rw [table, List.map_append]
  refine hlibraries.append hspecialised fun name hlibrary hnode => ?_
  rw [List.map_flatMap, List.mem_flatMap] at hlibrary
  obtain ⟨b, hb, hname⟩ := hlibrary
  rw [map_name_entriesOf] at hname
  rw [List.map_map, List.mem_map] at hnode
  obtain ⟨n, _, rfl⟩ := hnode
  exact notMem_mentions_of_not_plain (hne b hb) (specialisedName_not_plain n)
    (names_subset_mentions b _ hname)

/-- The table answers like the library of an operator whatever that library mentions. -/
theorem find?_table_operator {b : Builtin} (hb : b ∈ operators) {name : String}
    (hname : name ∈ b.mentions) :
    Entry.find? (table operators nodes) name = Entry.find? b.entriesOf name := by
  have hne : b ≠ heightGradient := fun h => hsingle (h ▸ hb)
  have hpart : b.entriesOf.Sublist (table operators nodes) :=
    (List.sublist_flatten_of_mem (List.mem_map_of_mem hb)).trans (List.sublist_append_left _ _)
  refine Entry.find?_of_sublist (nodup_table hoperators hsingle hnodes) hpart ?_
  rw [map_name_entriesOf, mem_names_table]
  by_cases hown : name ∈ b.names
  · exact Or.inl hown
  · refine Or.inr ?_
    rintro (⟨c, _, hc⟩ | ⟨n, _, rfl⟩)
    · by_cases hbc : b = c
      · exact hown (hbc ▸ hc)
      · exact disjoint_names hbc name hname hc
    · exact notMem_mentions_of_not_plain hne (specialisedName_not_plain n) hname

theorem find?_table_specialised {n : Nat} (hn : n ∈ nodes) :
    Entry.find? (table operators nodes) (specialisedName gradient n) = some (gradientEntry n) :=
  Entry.find?_of_mem (nodup_table hoperators hsingle hnodes)
    (List.mem_append_right _ (List.mem_map_of_mem hn))

end

/-- A specialised function calls no function of the table. -/
theorem find?_table_call (hsingle : heightGradient ∉ operators) {n : Nat} {name : String}
    (hname : name ∈ (specialisedHeading n).calls) :
    Entry.find? (table operators nodes) name = none := by
  rw [Entry.find?_eq_none_iff, mem_names_table]
  have hplain : ∀ b ∈ all, "max" ∉ b.names ∧ "rgb_to_float" ∉ b.names := by decide +kernel
  have hnode : ∀ m, name ≠ specialisedName gradient m := by
    rintro m rfl
    have hgradient := specialisedName_not_plain m
    simp only [specialisedHeading, List.mem_cons, List.not_mem_nil, or_false] at hname
    rcases hname with hname | hname | hname
    · rw [hname] at hgradient
      revert hgradient
      decide
    · rw [hname] at hgradient
      revert hgradient
      decide
    · exact subtreeName_ne_specialisedName n m hname.symm
  rintro (⟨b, hb, hmem⟩ | ⟨m, _, hm⟩)
  · simp only [specialisedHeading, List.mem_cons, List.not_mem_nil, or_false] at hname
    rcases hname with rfl | rfl | rfl
    · exact (hplain b b.mem_all).1 hmem
    · exact (hplain b b.mem_all).2 hmem
    · have hne : b ≠ heightGradient := fun h => hsingle (h ▸ hb)
      exact notMem_mentions_of_not_plain hne (subtreeName_not_plain n)
        (names_subset_mentions b _ hmem)
  · exact hnode m hm

/-! ## Walks -/

/-- Calls of known functions are calls of defined names. -/
theorem filter_calls {es : List Entry} {defined calls : List String}
    (h : es.map (·.name) = defined) :
    (calls.filter fun called => (Entry.find? es called).isSome) = calls.filter (· ∈ defined) := by
  refine List.filter_congr fun called _ => ?_
  rw [← h]
  by_cases hmem : called ∈ es.map (·.name)
  · have hsome : Entry.find? es called ≠ none := fun h => Entry.find?_eq_none_iff.mp h hmem
    rw [decide_eq_true hmem, Option.isSome_iff_ne_none.mpr hsome]
  · rw [decide_eq_false hmem, Entry.find?_eq_none_iff.mpr hmem]
    rfl

/-- A step of a walk through a table whose names are known. -/
theorem pastes_step {es : List Entry} {defined : List String} (hdefined : es.map (·.name) = defined)
    (hnodup : defined.Nodup) {h : Heading} {e : Entry} (he : e ∈ es) (hheading : e.toHeading = h)
    {d : Nat} {p q r names : List String} (hname : h.name ∉ p) (fs : List Entry) {gs : List Entry}
    (hcalls : Pastes (Entry.find? es) d (h.name :: p) (h.calls.filter (· ∈ defined)) fs q)
    (hnames : Pastes (Entry.find? es) (d + 1) q names gs r) :
    Pastes (Entry.find? es) (d + 1) p (h.name :: names) (fs ++ e :: gs) r := by
  subst hheading
  rw [← hdefined] at hnodup
  refine .paste hname (Entry.find?_of_mem hnodup he) ?_ hnames
  rw [filter_calls hdefined]
  exact hcalls

/-- The walk through the library of an operator meets its functions in the order of their
definition. -/
theorem pastes_own (b : Builtin) :
    ∃ pasted, Pastes (Entry.find? b.entriesOf) b.names.length [] [b.operator.function] b.entriesOf
      pasted ∧ ∀ name, name ∈ pasted ↔ name ∈ b.names := by
  have hheadings := b.map_toHeading_entriesOf
  have hdefined := b.map_name_entriesOf
  have hnodup := b.nodup_names
  generalize b.entriesOf = es at hheadings hdefined
  by_cases hhelpers : b.helpers = []
  · -- one function, which calls nothing of its library
    have hcalls : ∀ b ∈ all, b.helpers = [] → b.calls.filter (· ∈ b.names) = [] := by
      decide +kernel
    rw [headings, hhelpers, List.nil_append] at hheadings
    obtain ⟨e, rfl, he⟩ := List.map_eq_singleton_iff.mp hheadings
    refine ⟨[b.operator.function], ?_, ?_⟩
    · rw [show b.names.length = 1 by simp [names, headings, hhelpers]]
      refine pastes_step hdefined hnodup List.mem_cons_self he (by simp) [] ?_ .nil
      rw [hcalls b b.mem_all hhelpers]
      exact .nil
    · simp [names, headings, hhelpers]
  · cases b with
    | blend =>
      obtain ⟨e1, es, rfl, h1, hheadings⟩ := List.map_eq_cons_iff.mp hheadings
      obtain ⟨e2, es, rfl, h2, hheadings⟩ := List.map_eq_cons_iff.mp hheadings
      obtain ⟨e3, es, rfl, h3, hheadings⟩ := List.map_eq_cons_iff.mp hheadings
      obtain ⟨e4, rfl, h4⟩ := List.map_eq_singleton_iff.mp hheadings
      refine ⟨["blend_screen", "blend_multiply", "blend_rgb", "blend_node"], ?_,
        fun _ => List.Perm.mem_iff (by decide)⟩
      refine pastes_step hdefined hnodup (by simp) h4 (by simp) [e1, e2, e3] ?_ .nil
      refine pastes_step hdefined hnodup (by simp) h3 (by decide) [e1, e2] ?_ .nil
      refine pastes_step hdefined hnodup (by simp) h1 (by decide) [] .nil ?_
      exact pastes_step hdefined hnodup (by simp) h2 (by decide) [] .nil .nil
    | valueNoise =>
      obtain ⟨e1, es, rfl, h1, hheadings⟩ := List.map_eq_cons_iff.mp hheadings
      obtain ⟨e2, es, rfl, h2, hheadings⟩ := List.map_eq_cons_iff.mp hheadings
      obtain ⟨e3, rfl, h3⟩ := List.map_eq_singleton_iff.mp hheadings
      refine ⟨["hash21", "value_noise_at", "value_noise"], ?_,
        fun _ => List.Perm.mem_iff (by decide)⟩
      refine pastes_step hdefined hnodup (by simp) h3 (by simp) [e1, e2] ?_ .nil
      refine pastes_step hdefined hnodup (by simp) h2 (by decide) [e1] ?_ .nil
      exact pastes_step hdefined hnodup (by simp) h1 (by decide) [] .nil .nil
    | _ => exact absurd rfl hhelpers

/-- The function of an operator, when nothing of its library has been pasted. -/
theorem pastes_operator (hoperators : operators.Nodup) (hsingle : heightGradient ∉ operators)
    (hnodes : nodes.Nodup) {b : Builtin} (hb : b ∈ operators) {pasted : List String}
    (hfresh : ∀ name ∈ b.names, name ∉ pasted) {d : Nat} (hd : b.names.length ≤ d) :
    ∃ now, Pastes (Entry.find? (table operators nodes)) d pasted [b.operator.function] b.entriesOf
      now ∧ ∀ name, name ∈ now ↔ name ∈ b.names ∨ name ∈ pasted := by
  obtain ⟨own, hwalk, hown⟩ := b.pastes_own
  have hlook := fun {name} (h : name ∈ b.mentions) =>
    find?_table_operator hoperators hsingle hnodes hb h
  refine ⟨own ++ pasted, ?_, fun name => by rw [List.mem_append, hown]⟩
  refine (hwalk.frame (fun _ _ => Entry.name_of_find?) ?_ ?_ ?_).mono hd
  · intro name hname
    rw [List.mem_singleton.mp hname]
    exact hlook (names_subset_mentions b _ b.function_mem_names)
  · intro e he name hname
    refine hlook (List.mem_flatMap.mpr ⟨e.toHeading, ?_, List.mem_cons_of_mem _ hname⟩)
    rw [← map_toHeading_entriesOf]
    exact List.mem_map_of_mem he
  · intro e he
    refine hfresh e.name ?_
    rw [← map_name_entriesOf]
    exact List.mem_map_of_mem he

/-- The function of a multi-pass node. -/
theorem pastes_specialised (hoperators : operators.Nodup) (hsingle : heightGradient ∉ operators)
    (hnodes : nodes.Nodup) {n : Nat} (hn : n ∈ nodes) {pasted : List String}
    (hfresh : specialisedName gradient n ∉ pasted) {d : Nat} (hd : 1 ≤ d) :
    Pastes (Entry.find? (table operators nodes)) d pasted [specialisedName gradient n]
      [gradientEntry n] (specialisedName gradient n :: pasted) := by
  have hcalls : ((gradientEntry n).calls.filter fun called =>
      (Entry.find? (table operators nodes) called).isSome) = [] := by
    rw [List.filter_eq_nil_iff]
    intro called hcalled
    rw [find?_table_call hsingle hcalled]
    simp
  have hwalk : Pastes (Entry.find? (table operators nodes)) 1 pasted [specialisedName gradient n]
      ([] ++ [gradientEntry n]) (specialisedName gradient n :: pasted) := by
    refine .paste hfresh (find?_table_specialised hoperators hsingle hnodes hn) ?_ .nil
    rw [hcalls]
    exact .nil
  exact hwalk.mono hd

end Texel.Builtin
