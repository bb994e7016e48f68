import Texel.Glsl.Rename
import Texel.Proofs.Glsl.Respelling

/-!
# Texel — renaming, piece by piece

Renaming cuts a text into pieces and replaces some of them. The pieces of the new text are the
replaced ones, as long as a word is put in place of a word and no placeholder stands right behind
another word; so renaming twice can be read off the pieces of the first text.

* **`Cut`** — lists of pieces that stay apart when they are put together.
* **`cut_pieces`**, **`pieces_flatten`** — they are exactly the lists that `pieces` returns.
* **`pieces_rename`** — the pieces of a renamed text.
* **`rename_rename`** — two renamings in one pass.
-/

namespace Texel.Glsl

/-- A word or a number. -/
def isRun : List Char → Bool
  | [] => false
  | c :: cs => startsRun c && cs.all Identifier.isPart

/-- The next piece does not go on with the one before it. -/
def Ends : List (List Char) → Prop
  | [] => True
  | q :: _ => ∀ c ∈ q.head?, Identifier.isPart c = false

/-- Words, numbers and single other characters, each ended by what comes next. -/
inductive Cut : List (List Char) → Prop
  | nil : Cut []
  | lone {c : Char} {ps : List (List Char)} (hc : startsRun c = false) (hps : Cut ps) :
    Cut ([c] :: ps)
  | run {p : List Char} {ps : List (List Char)} (hp : isRun p = true) (hends : Ends ps)
    (hps : Cut ps) : Cut (p :: ps)

/-! ## Pieces are cut -/

theorem piecesFrom_nil_cons (c : Char) (cs : List Char) :
    piecesFrom [] (c :: cs) =
      if startsRun c then piecesFrom [c] cs else [c] :: piecesFrom [] cs := by
  rw [piecesFrom]

/-- A character either prolongs the piece that is being read or ends it. -/
theorem piecesFrom_cons_cons (d : Char) (ds : List Char) (c : Char) (cs : List Char) :
    piecesFrom (d :: ds) (c :: cs) =
      if Identifier.isPart c then piecesFrom (d :: ds ++ [c]) cs
      else (d :: ds) :: piecesFrom [] (c :: cs) := by
  rw [piecesFrom_nil_cons, piecesFrom]
  simp

theorem piecesFrom_cons_nil (d : Char) (ds : List Char) :
    piecesFrom (d :: ds) [] = [d :: ds] := by
  rw [piecesFrom]
  simp

theorem flatten_piecesFrom (run cs : List Char) : (piecesFrom run cs).flatten = run ++ cs := by
  induction cs generalizing run with
  | nil =>
    cases run with
    | nil => rfl
    | cons d ds => simp [piecesFrom_cons_nil]
  | cons c cs ih =>
    have hnil : (piecesFrom [] (c :: cs)).flatten = c :: cs := by
      rw [piecesFrom_nil_cons]
      split_ifs <;> simp [ih]
    cases run with
    | nil => exact hnil
    | cons d ds =>
      rw [piecesFrom_cons_cons]
      split_ifs
      · simp [ih]
      · rw [List.flatten_cons, hnil]

theorem flatten_pieces (cs : List Char) : (pieces cs).flatten = cs := flatten_piecesFrom [] cs

/-- The piece that is being read comes first. -/
theorem exists_piecesFrom (d : Char) (ds cs : List Char) :
    ∃ t rest, piecesFrom (d :: ds) cs = (d :: t) :: rest := by
  induction cs generalizing ds with
  | nil => exact ⟨ds, [], piecesFrom_cons_nil d ds⟩
  | cons c cs ih =>
    rw [piecesFrom_cons_cons]
    split_ifs
    · exact ih (ds ++ [c])
    · exact ⟨ds, _, rfl⟩

theorem ends_piecesFrom {c : Char} (hc : Identifier.isPart c = false) (cs : List Char) :
    Ends (piecesFrom [] (c :: cs)) := by
  rw [piecesFrom_nil_cons]
  split_ifs
  · obtain ⟨t, rest, h⟩ := exists_piecesFrom c [] cs
    rw [h]
    simpa [Ends] using hc
  · simpa [Ends] using hc

theorem isRun_append {run : List Char} {c : Char} (hrun : isRun run = true)
    (hc : Identifier.isPart c = true) : isRun (run ++ [c]) = true := by
  cases run with
  | nil => cases hrun
  | cons d ds => simp_all [isRun]

theorem cut_piecesFrom (cs : List Char) :
    Cut (piecesFrom [] cs) ∧ ∀ run, isRun run = true → Cut (piecesFrom run cs) := by
  induction cs with
  | nil =>
    refine ⟨.nil, fun run hrun => ?_⟩
    cases run with
    | nil => cases hrun
    | cons d ds =>
      rw [piecesFrom_cons_nil]
      exact .run hrun trivial .nil
  | cons c cs ih =>
    have hnil : Cut (piecesFrom [] (c :: cs)) := by
      rw [piecesFrom_nil_cons]
      split_ifs with hc
      · exact ih.2 [c] (by simp [isRun, hc])
      · exact .lone (by simpa using hc) ih.1
    refine ⟨hnil, fun run hrun => ?_⟩
    cases run with
    | nil => cases hrun
    | cons d ds =>
      rw [piecesFrom_cons_cons]
      split_ifs with hc
      · exact ih.2 _ (isRun_append hrun hc)
      · exact .run hrun (ends_piecesFrom (by simpa using hc) cs) hnil

/-- The pieces of a text are cut. -/
theorem cut_pieces (cs : List Char) : Cut (pieces cs) := (cut_piecesFrom cs).1

/-! ## Cut lists are the pieces of their text -/

theorem piecesFrom_append (d : Char) (ds cs rest : List Char)
    (hcs : cs.all Identifier.isPart = true) :
    piecesFrom (d :: ds) (cs ++ rest) = piecesFrom (d :: ds ++ cs) rest := by
  induction cs generalizing ds with
  | nil => simp
  | cons c cs ih =>
    rw [List.all_cons, Bool.and_eq_true] at hcs
    rw [List.cons_append, piecesFrom_cons_cons, if_pos hcs.1, List.cons_append, ih _ hcs.2]
    simp

theorem Cut.ne_nil {ps : List (List Char)} (h : Cut ps) : ∀ p ∈ ps, p ≠ [] := by
  induction h with
  | nil => simp
  | lone _ _ ih => simpa using ih
  | run hp _ _ ih =>
    rw [List.forall_mem_cons]
    refine ⟨?_, ih⟩
    rintro rfl
    cases hp

/-- A list of pieces that stay apart is the list of pieces of its text. -/
theorem pieces_flatten {ps : List (List Char)} (h : Cut ps) : pieces ps.flatten = ps := by
  induction h with
  | nil => rfl
  | @lone c ps hc _ ih =>
    rw [List.flatten_cons, List.singleton_append, pieces, piecesFrom_nil_cons, hc]
    exact congrArg ([c] :: ·) ih
  | @run p ps hp hends hps ih =>
    cases p with
    | nil => cases hp
    | cons d ds =>
      rw [isRun, Bool.and_eq_true] at hp
      rw [List.flatten_cons, List.cons_append, pieces, piecesFrom_nil_cons, if_pos hp.1,
        piecesFrom_append d [] ds _ hp.2]
      cases hps with
      | nil => rw [List.flatten_nil, List.cons_append, List.nil_append, piecesFrom_cons_nil]
      | @lone c ps hc _ =>
        have hpart : Identifier.isPart c = false := hends c rfl
        rw [List.flatten_cons, List.singleton_append] at ih ⊢
        rw [List.cons_append, List.nil_append, piecesFrom_cons_cons, hpart]
        exact congrArg ((d :: ds) :: ·) ih
      | @run q ps hq _ _ =>
        cases q with
        | nil => cases hq
        | cons c cs =>
          have hpart : Identifier.isPart c = false := hends c rfl
          rw [List.flatten_cons, List.cons_append] at ih ⊢
          rw [List.cons_append, List.nil_append, piecesFrom_cons_cons, hpart]
          exact congrArg ((d :: ds) :: ·) ih

/-! ## Renaming -/

theorem renamePiece_self {old : List Char} (hold : isWord old = true) (new : List Char) :
    renamePiece old new old = new := by
  simp [renamePiece, hold]

theorem renamePiece_of_ne {old piece : List Char} (h : piece ≠ old) (new : List Char) :
    renamePiece old new piece = piece := by
  simp [renamePiece, h]

/-- No word or number stands right before a piece equal to `old`. -/
def standsFree (old : List Char) : List (List Char) → Bool
  | p :: q :: ps => !(isRun p && q == old) && standsFree old (q :: ps)
  | _ => true

/-- A word goes on with whatever letter stands before it, so in a cut list it stands free. -/
theorem Cut.standsFree {old : List Char} (hold : isIdentifier old = true) {ps : List (List Char)}
    (h : Cut ps) : standsFree old ps = true := by
  have hpart : ∀ c ∈ old.head?, Identifier.isPart c = true := by
    cases old with
    | nil => cases hold
    | cons c cs =>
      rw [isIdentifier, Bool.and_eq_true] at hold
      simpa using isPart_of_isStart hold.1
  have hnext : ∀ p q : List Char, ∀ ps : List (List Char), Cut (p :: q :: ps) →
      (isRun p && q == old) = false := by
    intro p q ps hcut
    rw [Bool.and_eq_false_iff, beq_eq_false_iff_ne]
    cases hcut with
    | lone hc _ => exact Or.inl (by simp [isRun, hc])
    | run hp hends hps =>
      refine Or.inr ?_
      rintro rfl
      cases hq : q with
      | nil => exact hps.ne_nil q List.mem_cons_self hq
      | cons c cs =>
        have htrue := hpart c (by simp [hq])
        rw [hends c (by simp [hq])] at htrue
        cases htrue
  induction h with
  | nil => rfl
  | @lone c ps hc hps ih =>
    cases ps with
    | nil => rfl
    | cons q ps =>
      rw [Glsl.standsFree, ih, hnext _ _ _ (.lone hc hps)]
      rfl
  | @run p ps hp hends hps ih =>
    cases ps with
    | nil => rfl
    | cons q ps =>
      rw [Glsl.standsFree, ih, hnext _ _ _ (.run hp hends hps)]
      rfl

theorem isRun_of_isIdentifier {w : List Char} (h : isIdentifier w = true) : isRun w = true := by
  cases w with
  | nil => cases h
  | cons c cs =>
    rw [isIdentifier, Bool.and_eq_true] at h
    simp [isRun, startsRun, startsWord, h.1, h.2]

/-- A word in place of a piece that stands free. -/
theorem Cut.rename {old new : List Char} (hnew : isIdentifier new = true)
    {ps : List (List Char)} (h : Cut ps) (hfree : Glsl.standsFree old ps = true) :
    Cut (ps.map (renamePiece old new)) := by
  induction h with
  | nil => exact .nil
  | @lone c ps hc hps ih =>
    have hsame : renamePiece old new [c] = [c] := by
      simp only [startsRun, Bool.or_eq_false_iff] at hc
      simp [renamePiece, isWord, hc.1]
    rw [List.map_cons, hsame]
    refine .lone hc (ih ?_)
    cases ps with
    | nil => rfl
    | cons q ps =>
      rw [Glsl.standsFree, Bool.and_eq_true] at hfree
      exact hfree.2
  | @run p ps hp hends hps ih =>
    have hrun : isRun (renamePiece old new p) = true := by
      unfold renamePiece
      split_ifs
      · exact isRun_of_isIdentifier hnew
      · exact hp
    cases ps with
    | nil => exact .run hrun trivial (ih rfl)
    | cons q ps =>
      rw [Glsl.standsFree, Bool.and_eq_true, Bool.not_eq_true', hp, Bool.true_and] at hfree
      have hsame : renamePiece old new q = q := by simp [renamePiece, hfree.1]
      refine .run hrun ?_ (ih hfree.2)
      rw [List.map_cons, hsame]
      exact hends

/-- **Renaming.** The pieces of a renamed text are the renamed pieces. -/
theorem pieces_rename {text old new : String} (hnew : isIdentifier new.toList = true)
    (hfree : standsFree old.toList (pieces text.toList) = true) :
    pieces (rename text old new).toList =
      (pieces text.toList).map (renamePiece old.toList new.toList) := by
  rw [rename, String.toList_ofList, List.flatMap_def]
  exact pieces_flatten ((cut_pieces text.toList).rename hnew hfree)

theorem rename_rename {text a b c d : String} (hb : isIdentifier b.toList = true)
    (hfree : standsFree a.toList (pieces text.toList) = true) :
    rename (rename text a b) c d =
      String.ofList ((pieces text.toList).flatMap fun p =>
        renamePiece c.toList d.toList (renamePiece a.toList b.toList p)) := by
  rw [rename, pieces_rename hb hfree, List.flatMap_map]

end Texel.Glsl
