import Texel.Proofs.Glsl.Extraction
import Texel.Proofs.Glsl.Pieces

/-!
# Texel — renaming a word and scanning

Renaming and scanning cut a text into words by different rules: a renamed text is cut into pieces,
in which a number takes the letters behind it along, and comments are text like any other. The two
rules agree on a text without placeholders in which the word to be renamed stands behind no digit.
There, renaming is a respelling, so what is scanned is renamed along with the text.

* **`atoms`** — the words of a text as scanning sees them, and its other characters.
* **`respells`** — renaming the pieces of a text respells its words.
* **`notMem_words`** — a word that does not occur in a text occurs in none of its functions.
* **`functionsIn_rename`** — the result.
-/

namespace Texel.Glsl

open Text Correspondence

/-! ## Words and other characters -/

/-- The words of `run ++ cs` and its other characters, where `run` is the word being read. -/
def atomsFrom : List Char → List Char → List (List Char)
  | [], [] => []
  | run, [] => [run]
  | [], c :: cs => if Identifier.isStart c then atomsFrom [c] cs else [c] :: atomsFrom [] cs
  | run, c :: cs =>
    if Identifier.isPart c then atomsFrom (run ++ [c]) cs else run :: [c] :: atomsFrom [] cs

/-- The words of a text and its other characters, in order. Digits in front of a word do not belong
to it. -/
def atoms (cs : List Char) : List (List Char) := atomsFrom [] cs

theorem atomsFrom_nil_cons (c : Char) (cs : List Char) :
    atomsFrom [] (c :: cs) =
      if Identifier.isStart c then atomsFrom [c] cs else [c] :: atomsFrom [] cs := by
  rw [atomsFrom]

theorem atomsFrom_cons_nil (d : Char) (ds : List Char) : atomsFrom (d :: ds) [] = [d :: ds] := by
  rw [atomsFrom]
  simp

theorem atomsFrom_cons_cons (d : Char) (ds : List Char) (c : Char) (cs : List Char) :
    atomsFrom (d :: ds) (c :: cs) =
      if Identifier.isPart c then atomsFrom (d :: ds ++ [c]) cs
      else (d :: ds) :: [c] :: atomsFrom [] cs := by
  rw [atomsFrom]
  simp

theorem isIdentifier_concat {w : List Char} {c : Char} (hw : isIdentifier w = true)
    (hc : Identifier.isPart c = true) : isIdentifier (w ++ [c]) = true := by
  cases w with
  | nil => cases hw
  | cons d ds => simp_all [isIdentifier]

theorem spaced_atomsFrom (cs : List Char) :
    (Spaced (atomsFrom [] cs) ∧ (atomsFrom [] cs).flatten = cs) ∧
      ∀ run, isIdentifier run = true →
        Spaced (atomsFrom run cs) ∧ (atomsFrom run cs).flatten = run ++ cs := by
  induction cs with
  | nil =>
    refine ⟨⟨.nil, rfl⟩, fun run hrun => ?_⟩
    cases run with
    | nil => cases hrun
    | cons d ds =>
      rw [atomsFrom_cons_nil]
      exact ⟨.word hrun trivial .nil, by simp⟩
  | cons c cs ih =>
    obtain ⟨⟨hspaced, hflatten⟩, hword⟩ := ih
    refine ⟨?_, fun run hrun => ?_⟩
    · rw [atomsFrom_nil_cons]
      split_ifs with hc
      · exact hword [c] (by simp [isIdentifier, hc])
      · exact ⟨.lone (by simpa using hc) hspaced, by simp [hflatten]⟩
    · cases run with
      | nil => cases hrun
      | cons d ds =>
        rw [atomsFrom_cons_cons]
        split_ifs with hc
        · have hlonger := hword _ (isIdentifier_concat hrun hc)
          exact ⟨hlonger.1, hlonger.2.trans (List.append_assoc _ [c] cs)⟩
        · -- what cannot go on with a word begins none either
          have hpart : Identifier.isPart c = false := by simpa using hc
          have hstart : Identifier.isStart c = false :=
            Bool.eq_false_iff.mpr fun h => hc (isPart_of_isStart h)
          exact ⟨.word hrun ⟨c, rfl, hpart⟩ (.lone hstart hspaced), by simp [hflatten]⟩

theorem spaced_atoms (cs : List Char) : Spaced (atoms cs) := (spaced_atomsFrom cs).1.1

theorem flatten_atoms (cs : List Char) : (atoms cs).flatten = cs := (spaced_atomsFrom cs).1.2

/-- Part of a spaced list. -/
theorem Spaced.of_append {us vs : List (List Char)} (h : Spaced (us ++ vs)) :
    Spaced us ∧ Spaced vs := by
  induction us with
  | nil => exact ⟨.nil, h⟩
  | cons u us ih =>
    cases h with
    | lone hc hus => exact ⟨.lone hc (ih hus).1, (ih hus).2⟩
    | word hw hbreak hus =>
      refine ⟨.word hw ?_ (ih hus).1, (ih hus).2⟩
      cases us with
      | nil => trivial
      | cons v us => exact hbreak

/-! ## Renaming is a respelling -/

/-- A digit begins a number and no word. -/
theorem isDigit_spec {c : Char} (h : c.isDigit = true) :
    startsWord c = false ∧ startsRun c = true := by
  have hne : ∀ d : Char, d.isDigit = false → c ≠ d := by
    rintro d hd rfl
    rw [h] at hd
    cases hd
  have hletter : c.isAlpha = false := by
    simp only [Char.isDigit, Bool.and_eq_true, decide_eq_true_eq, UInt32.le_iff_toNat_le] at h
    simp only [Char.isAlpha, Char.isUpper, Char.isLower, Bool.or_eq_false_iff,
      Bool.and_eq_false_iff, decide_eq_false_iff_not, ge_iff_le, UInt32.le_iff_toNat_le]
    simp at h ⊢
    omega
  constructor
  · simp [startsWord, Identifier.isStart, hletter, hne '_' rfl, hne '$' rfl]
  · simp [startsRun, h]

/-- A character that is part of a word but begins none is a digit. -/
theorem isDigit_of_isPart {c : Char} (hpart : Identifier.isPart c = true)
    (hstart : Identifier.isStart c = false) : c.isDigit = true := by
  simp only [Identifier.isPart, Identifier.isStart, Char.isAlphanum, Bool.or_eq_true,
    Bool.or_eq_false_iff] at hpart hstart
  simp_all

theorem piecesFrom_of_breaks (d : Char) (ds : List Char) {us : List (List Char)} (h : Breaks us) :
    piecesFrom (d :: ds) us.flatten = (d :: ds) :: pieces us.flatten := by
  cases us with
  | nil => exact piecesFrom_cons_nil d ds
  | cons u us =>
    obtain ⟨c, rfl, hc⟩ := h
    rw [List.flatten_cons, List.singleton_append, piecesFrom_cons_cons, hc]
    rfl

section Pieces

variable {old new : List Char}

theorem respell_lone (spell : List Char → List Char) {c : Char}
    (hc : Identifier.isStart c = false) :
    respell spell [c] = [c] := by
  simp [respell, isIdentifier_lone hc]

/-- A word that is not the new one is renamed as it is exchanged. -/
theorem respell_swap {w : List Char} (hw : isIdentifier w = true) (hne : w ≠ new) :
    respell (Equiv.swap old new) w = renamePiece old new w := by
  have hword : isWord w = true := by
    cases w with
    | nil => cases hw
    | cons c cs =>
      rw [isIdentifier, Bool.and_eq_true] at hw
      simp [isWord, startsWord, hw.1]
  rw [respell, if_pos hw, renamePiece, hword, Bool.true_and, Equiv.swap_apply_def, if_neg hne]
  simp only [beq_iff_eq]

/-- Where the two ways to cut a text agree: without placeholders, and with no word `old` behind a
digit. -/
structure Alike (old new : List Char) (us : List (List Char)) : Prop where
  placeholder : ['$'] ∉ us
  fresh : new ∉ us
  digit : ∀ d : Char, d.isDigit = true → ¬[[d], old] <:+: us

theorem Alike.of_infix {us vs : List (List Char)} (h : Alike old new us) (hvs : vs <:+: us) :
    Alike old new vs where
  placeholder hmem := h.placeholder (hvs.subset hmem)
  fresh hmem := h.fresh (hvs.subset hmem)
  digit d hd hin := h.digit d hd (hin.trans hvs)

theorem Alike.tail {u : List Char} {us : List (List Char)} (h : Alike old new (u :: us)) :
    Alike old new us := h.of_infix (List.infix_cons_iff.mpr (Or.inr (List.infix_refl us)))

theorem Alike.head?_ne {d : Char} {us : List (List Char)} (h : Alike old new ([d] :: us))
    (hd : d.isDigit = true) : us.head? ≠ some old := by
  intro hhead
  obtain ⟨rest, rfl⟩ := List.head?_eq_some_iff.mp hhead
  exact h.digit d hd ⟨[], rest, rfl⟩

theorem renamePiece_number {d : Char} (hd : d.isDigit = true) (ds : List Char) :
    renamePiece old new (d :: ds) = d :: ds := by
  simp [renamePiece, isWord, (isDigit_spec hd).1]

/-- Pieces are renamed as words are exchanged. Behind a number that is being read, a word is no
piece of its own: it is kept, and must not be the one to be renamed. -/
structure Respells (old new : List Char) (us : List (List Char)) : Prop where
  pieces : (pieces us.flatten).flatMap (renamePiece old new) =
    (us.map (respell (Equiv.swap old new))).flatten
  number : ∀ (d : Char) (ds : List Char), d.isDigit = true → us.head? ≠ some old →
    (piecesFrom (d :: ds) us.flatten).flatMap (renamePiece old new) =
      d :: ds ++ (us.map (respell (Equiv.swap old new))).flatten

theorem Respells.lone {c : Char} {us : List (List Char)} (hc : Identifier.isStart c = false)
    (h : Alike old new ([c] :: us)) (ih : Respells old new us) :
    Respells old new ([c] :: us) := by
  have hpieces : (Glsl.pieces ([c] :: us).flatten).flatMap (renamePiece old new) =
      (([c] :: us).map (respell (Equiv.swap old new))).flatten := by
    rw [List.map_cons, respell_lone _ hc, List.flatten_cons, List.flatten_cons,
      List.singleton_append, Glsl.pieces, piecesFrom_nil_cons]
    by_cases hd : c.isDigit = true
    · rw [if_pos (isDigit_spec hd).2]
      exact ih.number c [] hd (h.head?_ne hd)
    · have hdollar : c ≠ '$' := by
        rintro rfl
        exact h.placeholder List.mem_cons_self
      have hword : startsWord c = false := by simp [startsWord, hc, hdollar]
      have hrun : startsRun c = false := by simp [startsRun, hword, hd]
      have hsame : renamePiece old new [c] = [c] := by simp [renamePiece, isWord, hword]
      rw [hrun]
      exact congrArg₂ (· ++ ·) hsame ih.pieces
  refine ⟨hpieces, fun d ds hd _ => ?_⟩
  rw [List.flatten_cons, List.singleton_append, piecesFrom_cons_cons]
  split_ifs with hpart
  · -- only a digit goes on with a number without beginning a word
    have hdigit := isDigit_of_isPart hpart hc
    rw [List.cons_append, ih.number d _ hd (h.head?_ne hdigit), List.map_cons, respell_lone _ hc]
    simp
  · rw [List.flatMap_cons, renamePiece_number hd]
    exact congrArg (d :: ds ++ ·) hpieces

theorem Respells.word {w : List Char} {us : List (List Char)} (hw : isIdentifier w = true)
    (hbreak : Breaks us) (h : Alike old new (w :: us)) (ih : Respells old new us) :
    Respells old new (w :: us) := by
  have hne : w ≠ new := fun hnew => h.fresh (hnew ▸ List.mem_cons_self)
  have hrespelled : ((w :: us).map (respell (Equiv.swap old new))).flatten =
      renamePiece old new w ++ (us.map (respell (Equiv.swap old new))).flatten := by
    rw [List.map_cons, respell_swap hw hne, List.flatten_cons]
  cases w with
  | nil => cases hw
  | cons c cs =>
    rw [isIdentifier, Bool.and_eq_true] at hw
    constructor
    · have hrun : startsRun c = true := by simp [startsRun, startsWord, hw.1]
      rw [hrespelled, List.flatten_cons, List.cons_append, Glsl.pieces, piecesFrom_nil_cons,
        if_pos hrun, piecesFrom_append c [] cs _ hw.2, List.cons_append, List.nil_append,
        piecesFrom_of_breaks c cs hbreak, List.flatMap_cons, ih.pieces]
    · intro d ds hd hold
      have hparts : (c :: cs).all Identifier.isPart = true := by
        rw [List.all_cons, isPart_of_isStart hw.1, hw.2]
        rfl
      have hkept : renamePiece old new (c :: cs) = c :: cs :=
        renamePiece_of_ne (fun heq => hold (congrArg some heq)) new
      rw [hrespelled, hkept, List.flatten_cons, piecesFrom_append d ds _ _ hparts, List.cons_append,
        piecesFrom_of_breaks d _ hbreak, List.flatMap_cons, renamePiece_number hd, ih.pieces]
      simp

theorem respells {us : List (List Char)} (hus : Spaced us) (h : Alike old new us) :
    Respells old new us := by
  induction hus with
  | nil =>
    refine ⟨rfl, fun d ds hd _ => ?_⟩
    simp [piecesFrom_cons_nil, renamePiece_number hd]
  | lone hc _ ih => exact .lone hc h (ih h.tail)
  | word hw hbreak _ ih => exact .word hw hbreak h (ih h.tail)

end Pieces

/-- Renaming a word exchanges it, in a text cut into words. -/
theorem rename_textOf {old new : String} {us : List (List Char)} (hus : Spaced us)
    (h : Alike old.toList new.toList us) :
    rename (textOf us) old new =
      textOf (us.map (respell (Equiv.swap old.toList new.toList))) := by
  rw [rename, textOf, String.toList_ofList, (respells hus h).pieces]
  rfl

/-! ## The same span in a respelled text -/

/-- What stands between two positions is what stands between the corresponding ones, respelled. -/
theorem exists_slice?_respell (σ : Spelling) {us : List (List Char)} (hus : Spaced us)
    {span span' : Span} (hle : span.start ≤ span.stop)
    (hstart : (respelling σ hus).meets span.start span'.start)
    (hstop : (respelling σ hus).meets span.stop span'.stop) :
    ∃ m, m <:+: us ∧ Spaced m ∧ slice? (textOf us) span = some (textOf m) ∧
      slice? (textOf (us.map (respell σ.spell))) span' =
        some (textOf (m.map (respell σ.spell))) := by
  obtain ⟨a, r, har, hstart, hstart'⟩ := hstart
  obtain ⟨c, d, hcd, hstop, hstop'⟩ := hstop
  -- the words before the end begin with those before the start
  obtain ⟨m, rfl⟩ : ∃ m, c = a ++ m := by
    rcases List.append_eq_append_iff.mp (har.symm.trans hcd) with ⟨m, hc, -⟩ | ⟨e, ha, -⟩
    · exact ⟨m, hc⟩
    · refine ⟨[], ?_⟩
      rw [List.append_nil]
      refine take_eq_of_byteSize_eq hus.ne_nil hcd har (le_antisymm ?_ (hstart ▸ hstop ▸ hle))
      rw [ha, List.flatten_append, byteSize_append]
      exact Nat.le_add_right _ _
  have hsplit : us = a ++ m ++ d := hcd
  have hm : Spaced m := (Spaced.of_append (Spaced.of_append (hsplit ▸ hus)).1).2
  refine ⟨m, ⟨a, d, hsplit.symm⟩, hm, ?_, ?_⟩
  · have hspan : span = ⟨byteSize a.flatten, byteSize (a.flatten ++ m.flatten)⟩ := by
      rw [← List.flatten_append, ← hstart, ← hstop]
    rw [hspan, hsplit, textOf, List.flatten_append, List.flatten_append]
    exact slice?_middle _ _ _
  · have hspan : span' = ⟨byteSize (a.map (respell σ.spell)).flatten,
        byteSize ((a.map (respell σ.spell)).flatten ++ (m.map (respell σ.spell)).flatten)⟩ := by
      rw [← List.flatten_append, ← List.map_append, ← hstart', ← hstop']
    rw [hspan, hsplit, textOf, List.map_append, List.map_append, List.flatten_append,
      List.flatten_append]
    exact slice?_middle _ _ _

/-! ## Words that do not occur -/

/-- The words that scanning notes of a function. -/
def Function.words (f : Function) : List String :=
  f.name :: f.returnType :: (f.groups.flatten ++ f.calls)

theorem Correspondence.FunctionMeets.words {ρ : Correspondence} {f f' : Function}
    (h : ρ.FunctionMeets f f') : f'.words = f.words.map ρ.name := by
  simp [Function.words, h.name, h.returnType, h.groups, h.calls, List.map_flatten]

/-- There is always another word. -/
theorem exists_fresh (us : List (List Char)) :
    ∃ z, isIdentifier z = true ∧ String.ofList z ∉ notCalls ∧ z ∉ us := by
  refine ⟨'_' :: List.replicate us.flatten.length '_', ?_, ?_, ?_⟩
  · simp [isIdentifier, Identifier.isStart, Identifier.isPart]
  · have hplain : ∀ s ∈ notCalls, '_' ∉ s.toList := by decide +kernel
    intro hmem
    refine hplain _ hmem ?_
    rw [String.toList_ofList]
    exact List.mem_cons_self
  · intro hmem
    have hlong := (List.sublist_flatten_of_mem hmem).length_le
    simp at hlong

theorem map_respell_swap {v w : List Char} {us : List (List Char)} (hv : v ∉ us) (hw : w ∉ us) :
    us.map (respell (Equiv.swap v w)) = us := by
  refine (List.map_congr_left fun u hu => ?_).trans (List.map_id us)
  have hsame : Equiv.swap v w u = u :=
    Equiv.swap_apply_of_ne_of_ne (fun h => hv (h ▸ hu)) fun h => hw (h ▸ hu)
  rw [respell, hsame, ite_self, id]

/-- **No word out of nothing.** A word that a text does not hold is noted of none of its functions:
exchanging it for another one that the text does not hold changes nothing. -/
theorem notMem_words {us : List (List Char)} (hus : Spaced us) {w : String}
    (hw : isIdentifier w.toList = true) (hcall : w ∉ notCalls) (hfresh : w.toList ∉ us)
    {f : Function} (hf : f ∈ functionsIn (textOf us)) : w ∉ f.words := by
  obtain ⟨z, hz, hcall', hfresh'⟩ := exists_fresh (w.toList :: us)
  rw [List.mem_cons, not_or] at hfresh'
  rw [← String.ofList_toList (s := w)] at hcall
  have hmeets := functionsIn_respell (.swap w.toList z hw hz hcall hcall') hus
  rw [show us.map (respell (Spelling.swap w.toList z hw hz hcall hcall').spell) = us from
    map_respell_swap hfresh hfresh'.2, List.forall₂_same] at hmeets
  intro hmem
  have hname := List.map_inj_left.mp ((hmeets f hf).words.symm.trans (List.map_id _).symm) w hmem
  refine hfresh'.1 ?_
  calc z = Equiv.swap w.toList z w.toList := (Equiv.swap_apply_left _ _).symm
    _ = w.toList := String.ofList_inj.mp (hname.trans String.ofList_toList.symm)

/-- Everything that is no word is marked. -/
def Spelling.marking : Spelling where
  spell w := if isIdentifier w then w else '!' :: w
  injective v w h := by
    have hmark : ∀ u : List Char, isIdentifier ('!' :: u) = false := fun _ => rfl
    dsimp only at h
    split_ifs at h with hv hw hw
    · exact h
    · rw [h, hmark] at hv
      cases hv
    · rw [← h, hmark] at hw
      cases hw
    · exact (List.cons.inj h).2
  notCalls w := by
    have hwords : ∀ s ∈ Glsl.notCalls, isIdentifier s.toList = true := by decide +kernel
    split_ifs with hw
    · rfl
    · refine iff_of_false (fun hmem => ?_) fun hmem => hw ?_
      · have hmarked := hwords _ hmem
        rw [String.toList_ofList] at hmarked
        cases hmarked
      · have hword := hwords _ hmem
        rwa [String.toList_ofList] at hword
  identifier w hw := by rwa [if_pos hw]

/-- **Only words** are noted of functions: marking everything else changes nothing. -/
theorem isIdentifier_of_mem_words {text : String} {f : Function} (hf : f ∈ functionsIn text)
    {w : String} (hw : w ∈ f.words) : isIdentifier w.toList = true := by
  have htext : text = textOf (atoms text.toList) := by
    rw [textOf, flatten_atoms, String.ofList_toList]
  have hmeets := functionsIn_respell .marking (spaced_atoms text.toList)
  have hsame : (atoms text.toList).map (respell Spelling.marking.spell) = atoms text.toList := by
    refine (List.map_congr_left fun u _ => ?_).trans (List.map_id _)
    rw [respell]
    split_ifs with hu
    · exact if_pos hu
    · rfl
  rw [hsame, ← htext, List.forall₂_same] at hmeets
  have hname := List.map_inj_left.mp ((hmeets f hf).words.symm.trans (List.map_id _).symm) w hw
  by_contra hnot
  have hmarked : '!' :: w.toList = w.toList := by
    calc '!' :: w.toList = Spelling.marking.spell w.toList := (if_neg hnot).symm
      _ = w.toList := String.ofList_inj.mp (hname.trans String.ofList_toList.symm)
  exact List.cons_ne_self _ _ hmarked

/-! ## Functions renamed -/

/-- A word that may name a function, a variable or a structure: it is no qualifier, names no type of
a value and looks like a call where an argument list follows. -/
structure IsPlain (s : String) : Prop where
  identifier : isIdentifier s.toList = true
  in_ne : s ≠ "in"
  out_ne : s ≠ "out"
  void_ne : s ≠ "void"
  kind : Kind.ofTypeName? s = none
  call : s ∉ notCalls

def renameWord (old new s : String) : String := if s = old then new else s

/-- The kind and the qualifier stay. -/
def Parameter.renameType (old new : String) (p : Parameter) : Parameter :=
  { p with typeName := renameWord old new p.typeName }

/-- What a text and the renamed text have to say of one function. -/
structure Renamed (old new text : String) (f f' : Function) : Prop where
  name : f'.name = renameWord old new f.name
  returnType : f'.returnType = renameWord old new f.returnType
  parameters : f'.parameters =
    f.parameters.map (Prod.map (renameWord old new) (Parameter.renameType old new))
  parameter? : ∀ name ≠ new, f'.parameter? (renameWord old new name) =
    (f.parameter? name).map (Parameter.renameType old new)
  calls : f'.calls = f.calls.map (renameWord old new)
  definition : ∃ d, f.definitionText? text = some d ∧
    f'.definitionText? (rename text old new) = some (rename d old new)

section Plain

variable {old new : String}

theorem renameWord_eq_iff {s k : String} (hold : old ≠ k) (hnew : new ≠ k) :
    renameWord old new s = k ↔ s = k := by
  unfold renameWord
  split_ifs with hs
  · exact iff_of_false hnew (hs ▸ hold)
  · rfl

theorem renameWord_inj {s t : String} (hs : s ≠ new) (ht : t ≠ new) :
    renameWord old new s = renameWord old new t ↔ s = t := by
  unfold renameWord
  split_ifs with hs' ht' ht'
  · simp [hs', ht']
  · exact iff_of_false ht.symm fun h => ht' (h ▸ hs')
  · exact iff_of_false hs fun h => hs' (h ▸ ht')
  · rfl

theorem contains_map_renameWord {k : String} (hold : old ≠ k) (hnew : new ≠ k) (ws : List String) :
    (ws.map (renameWord old new)).contains k = ws.contains k := by
  rw [Bool.eq_iff_iff, List.contains_iff_mem, List.contains_iff_mem, List.mem_map]
  constructor
  · rintro ⟨s, hs, hk⟩
    rwa [← (renameWord_eq_iff hold hnew).mp hk]
  · intro hk
    exact ⟨k, hk, (renameWord_eq_iff hold hnew).mpr rfl⟩

variable (hold : IsPlain old) (hnew : IsPlain new)
include hold hnew

theorem ofTypeName?_renameWord (s : String) :
    Kind.ofTypeName? (renameWord old new s) = Kind.ofTypeName? s := by
  unfold renameWord
  split_ifs with hs
  · rw [hs, hold.kind, hnew.kind]
  · rfl

theorem ofWords?_map_renameWord (ws : List String) :
    Parameter.ofWords? (ws.map (renameWord old new)) =
      (Parameter.ofWords? ws).map
        (Prod.map (renameWord old new) (Parameter.renameType old new)) := by
  unfold Parameter.ofWords?
  rw [← List.map_reverse]
  cases ws.reverse with
  | nil => rfl
  | cons name ws =>
    cases ws with
    | nil => rfl
    | cons typeName qualifiers =>
      simp only [List.map_cons, contains_map_renameWord hold.out_ne hnew.out_ne,
        contains_map_renameWord hold.in_ne hnew.in_ne, ofTypeName?_renameWord hold hnew,
        Option.map_some, Prod.map_apply, Parameter.renameType]

theorem declared_renameWord {f f' : Function}
    (h : f'.groups = f.groups.map (·.map (renameWord old new))) :
    f'.declared = f.declared.map (·.map (renameWord old new)) := by
  have hvoid : f'.groups = [["void"]] ↔ f.groups = [["void"]] := by
    rw [h]
    simp only [List.map_eq_singleton_iff, renameWord_eq_iff hold.void_ne hnew.void_ne]
    grind
  unfold Function.declared
  simp only [hvoid]
  split_ifs
  · rfl
  · exact h

theorem parameters_renameWord {f f' : Function}
    (h : f'.groups = f.groups.map (·.map (renameWord old new))) :
    f'.parameters =
      f.parameters.map (Prod.map (renameWord old new) (Parameter.renameType old new)) := by
  rw [Function.parameters, Function.parameters, declared_renameWord hold hnew h, List.filterMap_map,
    List.map_filterMap]
  exact List.filterMap_congr fun ws _ => ofWords?_map_renameWord hold hnew ws

omit hold hnew in
/-- The name of a parameter is one of the words noted of the function. -/
theorem fst_mem_words {f : Function} {q : String × Parameter} (hq : q ∈ f.parameters) :
    q.1 ∈ f.words := by
  obtain ⟨ws, hws, hq⟩ := List.mem_filterMap.mp hq
  have hgroup : ws ∈ f.groups := by
    unfold Function.declared at hws
    split_ifs at hws
    · cases hws
    · exact hws
  have hname : q.1 ∈ ws := by
    unfold Parameter.ofWords? at hq
    split at hq
    · next name typeName qualifiers hreverse =>
      cases hq
      exact List.mem_reverse.mp (hreverse ▸ List.mem_cons_self)
    · cases hq
  have hflatten : q.1 ∈ f.groups.flatten := List.mem_flatten.mpr ⟨ws, hgroup, hname⟩
  simp [Function.words, hflatten]

theorem parameter?_renameWord {f f' : Function}
    (h : f'.groups = f.groups.map (·.map (renameWord old new))) (hfresh : new ∉ f.words)
    {name : String} (hname : name ≠ new) :
    f'.parameter? (renameWord old new name) =
      (f.parameter? name).map (Parameter.renameType old new) := by
  -- no parameter has the new name, so renaming keeps different names apart
  have hfind : f.parameters.reverse.find? ((·.1 = renameWord old new name) ∘
        Prod.map (renameWord old new) (Parameter.renameType old new)) =
      f.parameters.reverse.find? (·.1 = name) := by
    refine List.find?_congr fun q hq => ?_
    have hne : q.1 ≠ new := fun heq => hfresh (heq ▸ fst_mem_words (List.mem_reverse.mp hq))
    exact decide_eq_decide.mpr (renameWord_inj hne hname)
  rw [Function.parameter?, Function.parameter?, parameters_renameWord hold hnew h,
    ← List.map_reverse, List.find?_map, hfind, Option.map_map, Option.map_map]
  rfl

/-- The exchange of two plain words. -/
def IsPlain.exchange : Spelling :=
  .swap old.toList new.toList hold.identifier hnew.identifier
    (by rw [String.ofList_toList]; exact hold.call) (by rw [String.ofList_toList]; exact hnew.call)

theorem name_exchange {us : List (List Char)} (hus : Spaced us) {s : String} (hs : s ≠ new) :
    (respelling (hold.exchange hnew) hus).name s = renameWord old new s := by
  show String.ofList (Equiv.swap old.toList new.toList s.toList) = renameWord old new s
  rw [Equiv.swap_apply_def, renameWord]
  simp only [String.toList_inj, if_neg hs]
  split_ifs <;> exact String.ofList_toList

theorem renamed_of_meets {us : List (List Char)} (hus : Spaced us)
    (halike : Alike old.toList new.toList us) {f f' : Function} (hf : f ∈ functionsIn (textOf us))
    (h : (respelling (hold.exchange hnew) hus).FunctionMeets f f') :
    Renamed old new (textOf us) f f' := by
  have hfresh : new ∉ f.words := notMem_words hus hnew.identifier hnew.call halike.fresh hf
  have hname : ∀ s ∈ f.words, (respelling (hold.exchange hnew) hus).name s = renameWord old new s :=
    fun s hs => name_exchange hold hnew hus fun heq => hfresh (heq ▸ hs)
  have hgroups : f'.groups = f.groups.map (·.map (renameWord old new)) := by
    rw [h.groups]
    refine List.map_congr_left fun ws hws => List.map_congr_left fun s hs => hname s ?_
    have hflatten : s ∈ f.groups.flatten := List.mem_flatten.mpr ⟨ws, hws, hs⟩
    simp [Function.words, hflatten]
  have hcalls : f'.calls = f.calls.map (renameWord old new) := by
    rw [h.calls]
    exact List.map_congr_left fun s hs => hname s (by simp [Function.words, hs])
  obtain ⟨d, -, hd, -, -⟩ := exists_definitionText? hf
  have hle : f.definition.start ≤ f.definition.stop := by
    have := byteSize_slice? hd
    omega
  obtain ⟨m, hm, hspaced, hslice, hslice'⟩ :=
    exists_slice?_respell (hold.exchange hnew) hus hle h.start h.stop
  exact {
    name := h.name.trans (hname _ (by simp [Function.words]))
    returnType := h.returnType.trans (hname _ (by simp [Function.words]))
    parameters := parameters_renameWord hold hnew hgroups
    parameter? := fun name hne => parameter?_renameWord hold hnew hgroups hfresh hne
    calls := hcalls
    definition := by
      refine ⟨textOf m, hslice, ?_⟩
      rw [rename_textOf hus halike, rename_textOf hspaced (halike.of_infix hm)]
      exact hslice' }

end Plain

/-- **Renaming and scanning.** In a text without placeholders that does not hold the new word, and
where the old one stands behind no digit, both plain words, renaming the text renames what is
scanned of it, function by function. -/
theorem functionsIn_rename {old new text : String} (hold : IsPlain old) (hnew : IsPlain new)
    (hplaceholder : '$' ∉ text.toList) (hfresh : new.toList ∉ atoms text.toList)
    (hdigit : ∀ d ∈ text.toList, d.isDigit = true → ¬[[d], old.toList] <:+: atoms text.toList) :
    List.Forall₂ (Renamed old new text) (functionsIn text) (functionsIn (rename text old new)) := by
  have hus := spaced_atoms text.toList
  have htext : textOf (atoms text.toList) = text := by
    rw [textOf, flatten_atoms, String.ofList_toList]
  have hmem : ∀ c : Char, [c] ∈ atoms text.toList → c ∈ text.toList := by
    intro c hc
    rw [← flatten_atoms text.toList]
    exact List.mem_flatten.mpr ⟨[c], hc, List.mem_singleton_self c⟩
  have halike : Alike old.toList new.toList (atoms text.toList) := {
    placeholder := fun h => hplaceholder (hmem '$' h)
    fresh := hfresh
    digit := fun d hd h => hdigit d (hmem d (h.subset List.mem_cons_self)) hd h }
  have hmeets := (List.forall₂_and_left _ _).mpr
    ⟨fun f hf => hf, functionsIn_respell (hold.exchange hnew) hus⟩
  have hrename := rename_textOf hus halike
  -- what the text is does not matter from here on, only that it falls into these words
  generalize atoms text.toList = us at *
  subst htext
  rw [hrename]
  exact hmeets.imp fun f f' h => renamed_of_meets hold hnew hus halike h.1 h.2

/-- A word as a type, as a name, in a comment, as a parameter, as a call and as part of another
word. -/
def swirling : String :=
  "noise noise(noise a)\x7b\x7d//noise\nint f(vec2 noise)\x7bnoise(2.*a1noise(noise));\x7d"

theorem swirling_renamed :
    (functionsIn swirling).map (·.words) =
        [["noise", "noise", "noise", "a"], ["f", "int", "vec2", "noise", "noise", "a1noise"]] ∧
      List.Forall₂ (Renamed "noise" "swirl" swirling) (functionsIn swirling)
        (functionsIn (rename swirling "noise" "swirl")) := by
  have hold : IsPlain "noise" :=
    ⟨by decide +kernel, by decide, by decide, by decide, by decide +kernel, by decide +kernel⟩
  have hnew : IsPlain "swirl" :=
    ⟨by decide +kernel, by decide, by decide, by decide, by decide +kernel, by decide +kernel⟩
  have hdigits : swirling.toList.filter Char.isDigit = ['2', '2', '1'] := by decide +kernel
  have hbehind : ¬[['2'], "noise".toList] <:+: atoms swirling.toList ∧
      ¬[['1'], "noise".toList] <:+: atoms swirling.toList := by decide +kernel
  refine ⟨by decide +kernel,
    functionsIn_rename hold hnew (by decide +kernel) (by decide +kernel) fun d hd hdigit => ?_⟩
  have hmem : d ∈ ['2', '2', '1'] := hdigits ▸ List.mem_filter.mpr ⟨hd, hdigit⟩
  simp only [List.mem_cons, List.not_mem_nil, or_false, or_self_left] at hmem
  rcases hmem with rfl | rfl
  · exact hbehind.1
  · exact hbehind.2

end Texel.Glsl
