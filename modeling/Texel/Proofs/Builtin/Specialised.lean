import Texel.Program.Generate
import Texel.Proofs.Builtin.Library
import Texel.Proofs.Glsl.Pieces
import Texel.Proofs.Program.Names

/-!
# Texel — the height gradient, specialised

The library of the height gradient is written once more for every node, with the placeholder and the
name of the function replaced. All these texts are respellings of one text, in which the placeholder
is the plain word `subtree`; that text is read here, and what is found in it carries over.

* **`spelling n`** — from the plain text to the text for node `n`.
* **`specialised_eq`** — renaming the library gives the respelled text.
* **`specialised_holds`**, **`entries_specialised`** — the one function of a specialised library.
-/

namespace Texel.Glsl

/-- The heading of a corresponding function whose parameters are spelled alike. -/
theorem Correspondence.FunctionMeets.heading {ρ : Correspondence} {f f' : Function}
    (h : ρ.FunctionMeets f f') (hgroups : ∀ ws ∈ f.groups, ∀ w ∈ ws, ρ.name w = w) :
    f'.heading = ⟨ρ.name f.name, f.callParameters, f.calls.map ρ.name⟩ := by
  have hsame : f'.groups = f.groups := by
    rw [h.groups]
    refine (List.map_congr_left fun ws hws => ?_).trans (List.map_id _)
    exact (List.map_congr_left (hgroups ws hws)).trans (List.map_id _)
  rw [Function.heading, h.name, callParameters_congr hsame, h.calls]

end Texel.Glsl

namespace Texel.Builtin

open Glsl Text Program

/-! ## Two words respelled -/

def plainSubtree : List Char := ['s', 'u', 'b', 't', 'r', 'e', 'e']

def plainGradient : List Char :=
  ['h', 'e', 'i', 'g', 'h', 't', '_', 'g', 'r', 'a', 'd', 'i', 'e', 'n', 't']

/-- The function of the height gradient. -/
def gradient : String := heightGradient.operator.function

theorem toList_gradient : gradient.toList = plainGradient := by decide

/-- A word that no node respells. -/
def isPlain (w : List Char) : Bool := !plainSubtree.isPrefixOf w && !plainGradient.isPrefixOf w

theorem notMem_notCalls {v w : List Char} (hv : v <+: w)
    (hnone : ∀ name ∈ notCalls, ¬ v <+: name.toList) : String.ofList w ∉ notCalls := by
  intro hmem
  refine hnone _ hmem ?_
  rwa [String.toList_ofList]

theorem prefix_subtreeName (n : Nat) : plainSubtree <+: (subtreeName n).toList :=
  ⟨'_' :: Nat.toDigits 10 n, by rw [toList_subtreeName]; rfl⟩

theorem prefix_specialisedName (n : Nat) :
    plainGradient <+: (specialisedName gradient n).toList :=
  ⟨'_' :: Nat.toDigits 10 n, by rw [toList_specialisedName, toList_gradient]⟩

/-- From the plain text to the text for a node. -/
def spelling (n : Nat) : Spelling :=
  Spelling.comp
    (.swap plainGradient (specialisedName gradient n).toList (by decide)
      (isIdentifier_specialisedName (by rw [toList_gradient]; decide) n)
      (notMem_notCalls (List.prefix_refl _) (by decide))
      (notMem_notCalls (prefix_specialisedName n) (by decide)))
    (.swap plainSubtree (subtreeName n).toList (by decide) (isIdentifier_subtreeName n)
      (notMem_notCalls (List.prefix_refl _) (by decide))
      (notMem_notCalls (prefix_subtreeName n) (by decide)))

theorem spell_subtree (n : Nat) : (spelling n).spell plainSubtree = (subtreeName n).toList := by
  show Equiv.swap _ _ (Equiv.swap _ _ plainSubtree) = _
  rw [Equiv.swap_apply_left, Equiv.swap_apply_of_ne_of_ne]
  · rw [toList_subtreeName, plainGradient]
    simp
  · rw [toList_subtreeName, toList_specialisedName, toList_gradient, plainGradient]
    simp

theorem spell_gradient (n : Nat) :
    (spelling n).spell plainGradient = (specialisedName gradient n).toList := by
  show Equiv.swap _ _ (Equiv.swap _ _ plainGradient) = _
  rw [Equiv.swap_apply_of_ne_of_ne (a := plainSubtree), Equiv.swap_apply_left]
  · decide
  · rw [toList_subtreeName, plainGradient]
    simp

theorem spell_plain {w : List Char} (h : isPlain w = true) (n : Nat) :
    (spelling n).spell w = w := by
  simp only [isPlain, Bool.and_eq_true, Bool.not_eq_true', ← Bool.not_eq_true,
    List.isPrefixOf_iff_prefix] at h
  have hne : ∀ {v x : List Char}, ¬ v <+: w → v <+: x → w ≠ x := by
    rintro v x hw hx rfl
    exact hw hx
  show Equiv.swap _ _ (Equiv.swap _ _ w) = w
  rw [Equiv.swap_apply_of_ne_of_ne (hne h.1 (List.prefix_refl _)) (hne h.1 (prefix_subtreeName n)),
    Equiv.swap_apply_of_ne_of_ne (hne h.2 (List.prefix_refl _))
      (hne h.2 (prefix_specialisedName n))]

/-! ## The plain text -/

/-- A piece as words and characters, with the plain word for the placeholder. -/
def units (p : List Char) : List (List Char) :=
  if p = placeholder.toList then [plainSubtree]
  else if isIdentifier p then [p]
  else p.map ([·])

/-- Does every node give the piece its own form, or leave it as it is? -/
def isSettledPiece (p : List Char) : Bool :=
  p = placeholder.toList || p = plainGradient ||
    isPlain p && (isIdentifier p || p.all fun c => !Identifier.isStart c)

/-- The definition that the text between its first and its last character holds. -/
def innerPart (cs : List Char) : List Char := (cs.drop 1).dropLast

/-- The words and characters of a definition. -/
def unitsOf (cs : List Char) : List (List Char) := (pieces cs).flatMap units

/-- The words and characters of a definition between two ends of line. -/
def framed (us : List (List Char)) : List (List Char) := ['\n'] :: us ++ [['\n']]

/-- What has to be computed about the library: it is a definition between two ends of line, of which
the pieces are cut and read. -/
structure Readable (cs : List Char) : Prop where
  framed : cs = '\n' :: innerPart cs ++ ['\n']
  pieces : pieces cs = ['\n'] :: Glsl.pieces (innerPart cs) ++ [['\n']]
  free : standsFree placeholder.toList (Glsl.pieces cs) = true
  innerFree : standsFree placeholder.toList (Glsl.pieces (innerPart cs)) = true
  settled : ∀ p ∈ Glsl.pieces (innerPart cs), isSettledPiece p = true
  spaced : spaced (Builtin.framed (unitsOf (innerPart cs))) = true
  reads : reads (Builtin.framed (unitsOf (innerPart cs))).flatten heightGradient.headings = true
  rawDefinition : (functionsOf cs).map (·.definition) = [⟨1, 1 + byteSize (innerPart cs)⟩]
  definition : (functionsOf (Builtin.framed (unitsOf (innerPart cs))).flatten).map (·.definition) =
    [⟨1, 1 + byteSize (unitsOf (innerPart cs)).flatten⟩]
  groups : ∀ f ∈ functionsOf (Builtin.framed (unitsOf (innerPart cs))).flatten, ∀ ws ∈ f.groups,
    ∀ w ∈ ws, isPlain w.toList = true

instance (cs : List Char) : Decidable (Readable cs) :=
  decidable_of_iff (_ ∧ _ ∧ _ ∧ _ ∧ _ ∧ _ ∧ _ ∧ _ ∧ _ ∧ _)
    ⟨fun ⟨a, b, c, d, e, f, g, h, i, j⟩ => ⟨a, b, c, d, e, f, g, h, i, j⟩,
      fun ⟨a, b, c, d, e, f, g, h, i, j⟩ => ⟨a, b, c, d, e, f, g, h, i, j⟩⟩

/-! ## The text for a node -/

/-- A text with the placeholder and the name of the function replaced for a node. -/
def specialised (text : String) (n : Nat) : String :=
  rename (rename text placeholder (subtreeName n)) gradient (specialisedName gradient n)

/-- A piece renamed for a node is made of the respelled words and characters. -/
theorem flatMap_respell_units {p : List Char} (h : isSettledPiece p = true) (n : Nat) :
    (units p).flatMap (respell (spelling n).spell) =
      renamePiece plainGradient (specialisedName gradient n).toList
        (renamePiece placeholder.toList (subtreeName n).toList p) := by
  have hgradient : placeholder.toList ≠ plainGradient := by decide
  by_cases hp : p = placeholder.toList
  · have hne : (subtreeName n).toList ≠ plainGradient := by
      rw [toList_subtreeName, plainGradient]
      simp
    rw [hp, units, if_pos rfl, List.flatMap_singleton, respell, if_pos (by decide), spell_subtree,
      renamePiece_self (by decide), renamePiece_of_ne hne]
  by_cases hp' : p = plainGradient
  · have hidentifier : isIdentifier plainGradient = true := by decide
    rw [hp', units, if_neg hgradient.symm, if_pos hidentifier, List.flatMap_singleton, respell,
      if_pos hidentifier, spell_gradient, renamePiece_of_ne hgradient.symm,
      renamePiece_self (by decide)]
  · simp only [isSettledPiece, Bool.or_eq_true, Bool.and_eq_true, decide_eq_true_eq, hp, hp',
      false_or] at h
    obtain ⟨hplain, hother⟩ := h
    rw [renamePiece_of_ne hp, renamePiece_of_ne hp', units, if_neg hp]
    by_cases hidentifier : isIdentifier p = true
    · rw [if_pos hidentifier, List.flatMap_singleton, respell, if_pos hidentifier,
        spell_plain hplain]
    · have hlone : ∀ c ∈ p, respell (spelling n).spell [c] = [c] := by
        intro c hc
        have := List.all_eq_true.mp (hother.resolve_left hidentifier) c hc
        rw [respell, if_neg]
        simp_all [isIdentifier]
      rw [if_neg hidentifier, List.flatMap_map]
      exact (List.flatMap_congr hlone).trans (List.flatMap_singleton' p)

/-- Specialising leaves the ends of line around a text in place. -/
theorem specialised_framed {text inner : String}
    (hpieces : pieces text.toList = ['\n'] :: pieces inner.toList ++ [['\n']])
    (hfree : standsFree placeholder.toList (pieces text.toList) = true)
    (hinner : standsFree placeholder.toList (pieces inner.toList) = true) (n : Nat) :
    specialised text n = "\n" ++ (specialised inner n ++ "\n") := by
  have hnewline : ∀ old new : List Char, renamePiece old new ['\n'] = ['\n'] := by
    intro old new
    rw [renamePiece, show isWord ['\n'] = false from rfl]
    rfl
  rw [specialised, rename_rename (isIdentifier_subtreeName n) hfree, hpieces, specialised,
    rename_rename (isIdentifier_subtreeName n) hinner, ← String.toList_inj]
  simp [hnewline]

/-! ## What the text for a node holds -/

/-- The function of a node. -/
def specialisedHeading (n : Nat) : Heading :=
  ⟨specialisedName gradient n, heightGradient.signature, ["max", "rgb_to_float", subtreeName n]⟩

theorem name_plain {w : String} (h : isPlain w.toList = true) (n : Nat) {us : List (List Char)}
    (hus : Spaced us) : (respelling (spelling n) hus).name w = w := by
  show String.ofList ((spelling n).spell w.toList) = w
  rw [spell_plain h, String.ofList_toList]

/-- A function with the heading of the plain one gets the heading of the node. -/
theorem heading_respelled (n : Nat) {us : List (List Char)} (hus : Spaced us) {f f' : Function}
    (h : (respelling (spelling n) hus).FunctionMeets f f')
    (hf : [f.heading] = heightGradient.headings)
    (hplain : ∀ ws ∈ f.groups, ∀ w ∈ ws, isPlain w.toList = true) :
    f'.heading = specialisedHeading n := by
  have hheading : f.heading = ⟨gradient, heightGradient.signature, heightGradient.calls⟩ := by
    simpa [headings, helpers, gradient] using hf
  have hname : f.name = gradient := congrArg Heading.name hheading
  have hparameters : f.callParameters = heightGradient.signature :=
    congrArg Heading.parameters hheading
  have hcalls : f.calls = ["max", "rgb_to_float", "subtree"] := congrArg Heading.calls hheading
  have hgradient : (respelling (spelling n) hus).name gradient = specialisedName gradient n := by
    show String.ofList ((spelling n).spell gradient.toList) = _
    rw [toList_gradient, spell_gradient, String.ofList_toList]
  have hsubtree : (respelling (spelling n) hus).name "subtree" = subtreeName n := by
    show String.ofList ((spelling n).spell plainSubtree) = _
    rw [spell_subtree, String.ofList_toList]
  rw [h.heading fun ws hws w hw => name_plain (hplain ws hws w hw) n hus, hname, hparameters,
    hcalls, hgradient]
  simp only [List.map_cons, List.map_nil, hsubtree, specialisedHeading,
    name_plain (show isPlain "max".toList = true by decide),
    name_plain (show isPlain "rgb_to_float".toList = true by decide)]

/-- A text with one function corresponds to a text with one function. -/
theorem exists_of_forall₂_singleton {α γ : Type} {R : α → γ → Prop} {x : α} {ys : List γ}
    (h : List.Forall₂ R [x] ys) : ∃ y, ys = [y] ∧ R x y := by
  cases h with
  | cons hxy hnil =>
    cases hnil
    exact ⟨_, rfl, hxy⟩

theorem respell_newline (n : Nat) : respell (spelling n).spell ['\n'] = ['\n'] := by
  rw [respell, if_neg (by decide)]

/-- A definition between two ends of line is respelled between them. -/
theorem span_framed (n : Nat) {us : List (List Char)} (hus : Spaced (framed us)) {f f' : Function}
    (h : (respelling (spelling n) hus).FunctionMeets f f')
    (hf : f.definition = ⟨1, 1 + byteSize us.flatten⟩) :
    f'.definition = ⟨1, 1 + byteSize (us.map (respell (spelling n).spell)).flatten⟩ := by
  have hnewline : byteSize ['\n'] = 1 := rfl
  have hstart := h.start
  have hstop := h.stop
  have hbefore : 1 = byteSize [['\n']].flatten := rfl
  have hbehind : 1 + byteSize us.flatten = byteSize (['\n'] :: us).flatten := by
    rw [List.flatten_cons, byteSize_append, hnewline]
  rw [hf] at hstart hstop
  have hstart' := meets_respell (spelling n) hus (b := us ++ [['\n']]) rfl (hbefore ▸ hstart)
  have hstop' := meets_respell (spelling n) hus (b := [['\n']]) rfl (hbehind ▸ hstop)
  simp only [List.map_cons, List.map_nil, respell_newline, List.flatten_cons, List.flatten_nil,
    List.append_nil, byteSize_append, hnewline] at hstart' hstop'
  rw [← hstop', ← hstart']

/-- The text of a definition that stands between two ends of line. -/
theorem definitionText?_framed {f : Function} {inner : String}
    (hf : f.definition = ⟨1, 1 + byteSize inner.toList⟩) :
    f.definitionText? ("\n" ++ (inner ++ "\n")) = some inner := by
  have hshift := slice?_shift "\n" (inner ++ "\n") ⟨0, byteSize inner.toList⟩
  have hsize : byteSize "\n".toList = 1 := by decide
  rw [hsize, Nat.zero_add, Nat.add_comm] at hshift
  rw [Function.definitionText?, hf, hshift]
  exact slice?_append_right "\n" (slice?_whole _)

section Reading

-- The text stays a variable here, so that nothing computes with its characters.
variable {text inner : String} (h : Readable text.toList)
  (hinner : inner.toList = innerPart text.toList)

include h hinner

theorem spaced_framed : Spaced (framed (unitsOf inner.toList)) := by
  rw [hinner]
  exact .of_spaced h.spaced

/-- **Specialising** a definition respells it. -/
theorem specialised_inner (n : Nat) :
    specialised inner n = textOf ((unitsOf inner.toList).map (respell (spelling n).spell)) := by
  have hfree := h.innerFree
  rw [← hinner] at hfree
  rw [specialised, rename_rename (isIdentifier_subtreeName n) hfree, textOf, unitsOf,
    ← List.flatMap_def, List.flatMap_assoc, toList_gradient]
  refine congrArg String.ofList (List.flatMap_congr fun p hp => ?_)
  rw [hinner] at hp
  exact (flatMap_respell_units (h.settled p hp) n).symm

theorem specialised_text (n : Nat) :
    specialised text n = "\n" ++ (specialised inner n ++ "\n") := by
  refine specialised_framed ?_ h.free ?_ n
  · rw [hinner]
    exact h.pieces
  · rw [hinner]
    exact h.innerFree

/-- The whole text for a node, as words and characters. -/
theorem specialised_eq (n : Nat) :
    specialised text n =
      textOf ((framed (unitsOf inner.toList)).map (respell (spelling n).spell)) := by
  rw [specialised_text h hinner, specialised_inner h hinner, ← String.toList_inj]
  simp [framed, textOf, respell_newline]

theorem plain_holds : Holds (textOf (framed (unitsOf inner.toList))) heightGradient.headings := by
  refine .of_reads ?_
  rw [textOf, String.toList_ofList, hinner]
  exact h.reads

/-- The function in the text for a node, and where it stands. -/
theorem functionsIn_specialised (n : Nat) :
    ∃ f, functionsIn (specialised text n) = [f] ∧ f.heading = specialisedHeading n ∧
      f.definition = ⟨1, 1 + byteSize (specialised inner n).toList⟩ := by
  have hbase : functionsIn (textOf (framed (unitsOf inner.toList))) =
      functionsOf (framed (unitsOf (innerPart text.toList))).flatten := by
    rw [functionsIn, tokens, textOf, String.toList_ofList, hinner, functionsOf]
  obtain ⟨f, hf, hspan⟩ := List.map_eq_singleton_iff.mp h.definition
  have hheading : [f.heading] = heightGradient.headings := by
    have hread := h.reads
    simp only [reads, Bool.and_eq_true, decide_eq_true_eq] at hread
    rw [← hread.1.2, ← functionsOf, hf]
    rfl
  have hplain := h.groups f (by rw [hf]; exact List.mem_singleton_self f)
  have hmeets := functionsIn_respell (spelling n) (spaced_framed h hinner)
  rw [hbase, hf, ← specialised_eq h hinner] at hmeets
  obtain ⟨f', hf', hmeet⟩ := exists_of_forall₂_singleton hmeets
  refine ⟨f', hf', heading_respelled n _ hmeet hheading hplain, ?_⟩
  rw [specialised_inner h hinner, textOf, String.toList_ofList]
  rw [← hinner] at hspan
  exact span_framed n (spaced_framed h hinner) hmeet hspan

theorem definitionText?_specialised {n : Nat} {f : Function}
    (hf : f.definition = ⟨1, 1 + byteSize (specialised inner n).toList⟩) :
    f.definitionText? (specialised text n) = some (specialised inner n) := by
  rw [specialised_text h hinner]
  exact definitionText?_framed hf

/-- The definition as the library has it. -/
theorem definitionText?_inner : ∀ f ∈ functionsIn text, f.definitionText? text = some inner := by
  intro f hf
  have htext : text = "\n" ++ (inner ++ "\n") := by
    rw [← String.toList_inj, h.framed, ← hinner]
    simp
  obtain ⟨f', hf', hspan⟩ := List.map_eq_singleton_iff.mp h.rawDefinition
  rw [functionsIn, tokens, ← functionsOf, hf', List.mem_singleton] at hf
  rw [← hinner, ← hf] at hspan
  rw [htext]
  exact definitionText?_framed hspan

theorem entries_specialised (n : Nat) :
    entries (specialised text n) = [⟨specialisedHeading n, specialised inner n⟩] := by
  obtain ⟨f, hf, hheading, hspan⟩ := functionsIn_specialised h hinner n
  rw [entries, hf, List.filterMap_cons, Function.entryIn?,
    definitionText?_specialised h hinner hspan, hheading]
  rfl

/-- **The text for a node** can be put behind others and holds the one function of the node. -/
theorem specialised_holds (n : Nat) : Holds (specialised text n) [specialisedHeading n] := by
  obtain ⟨f, hf, hheading, hspan⟩ := functionsIn_specialised h hinner n
  refine ⟨⟨?_, ?_⟩, ?_⟩
  · rw [specialised_eq h hinner]
    exact settled_respell _ (spaced_framed h hinner) (plain_holds h hinner).toSettled
  · intro f' hf'
    rw [hf, List.mem_singleton] at hf'
    rw [hf', definitionText?_specialised h hinner hspan]
    rfl
  · rw [entries_specialised h hinner]
    rfl

end Reading

/-! ## The height gradient -/

/-- The definition in the library of the height gradient. -/
def gradientText : String := String.ofList (innerPart Source.heightGradient.toList)

theorem gradient_readable : Readable Source.heightGradient.toList := by
  rw [Source.heightGradient, toList_ofLines]
  simp only [List.flatMap_cons, List.flatMap_nil]
  repeat rw [String.toList_ofList]
  decide +kernel

theorem toList_gradientText : gradientText.toList = innerPart Source.heightGradient.toList :=
  String.toList_ofList

/-- The text of the function of the height gradient. -/
theorem definitionText?_gradient : ∀ f ∈ functionsIn Source.heightGradient,
    f.definitionText? Source.heightGradient = some gradientText :=
  definitionText?_inner gradient_readable toList_gradientText

/-- The library that a node adds. -/
def gradientLibrary (n : Nat) : String := specialised Source.heightGradient n

/-- The function that a node adds. -/
def gradientEntry (n : Nat) : Entry := ⟨specialisedHeading n, specialised gradientText n⟩

theorem gradientLibrary_holds (n : Nat) : Holds (gradientLibrary n) [specialisedHeading n] :=
  specialised_holds gradient_readable toList_gradientText n

theorem entries_gradientLibrary (n : Nat) : entries (gradientLibrary n) = [gradientEntry n] :=
  entries_specialised gradient_readable toList_gradientText n

end Texel.Builtin
