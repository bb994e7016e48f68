import Texel.Proofs.Glsl.Pieces

/-!
# Texel — renaming is substitution of tokens

A name stands for a whole token wherever it stands: it is part of no longer word, and of no number.
So renaming replaces tokens and nothing else, and it can be undone. The one thing that could go
wrong is a name with a dollar sign right behind a word, a number or another dollar sign, since the
word that takes its place would melt into what stands before it.

* **`IsTokens`** — the tokens of a text, of which every text has one list.
* **`DollarsApart`** — texts in which nothing melts; **`Cut.standsFree_of_dollarsApart`** says why.
* **`rename_tokenwise`** — the tokens of the renamed text, and what follows from them.
-/

namespace Texel.Glsl

/-- Words, numbers and single other characters that make up the text, none of which goes on in the
next. -/
def IsTokens (text : String) (ts : List (List Char)) : Prop := Cut ts ∧ ts.flatten = text.toList

/-- Every text has its tokens, and they are its pieces. -/
theorem isTokens_iff {text : String} {ts : List (List Char)} :
    IsTokens text ts ↔ ts = pieces text.toList := by
  constructor
  · rintro ⟨hcut, hflatten⟩
    rw [← hflatten, pieces_flatten hcut]
  · rintro rfl
    exact ⟨cut_pieces _, flatten_pieces _⟩

/-- An identifier, or a dollar sign with an identifier behind it. -/
def isRenamable (w : List Char) : Bool :=
  isIdentifier w || (w.head? == some '$' && isIdentifier w.tail)

/-- No dollar sign stands right behind a character of identifiers or another dollar sign. -/
def DollarsApart (cs : List Char) : Prop :=
  cs.IsChain fun a b => b = '$' → Identifier.isPart a = false ∧ a ≠ '$'

instance (cs : List Char) : Decidable (DollarsApart cs) :=
  inferInstanceAs (Decidable (List.IsChain _ cs))

theorem isWord_of_isRenamable {w : List Char} (h : isRenamable w = true) : isWord w = true := by
  cases w with
  | nil => simp [isRenamable, isIdentifier] at h
  | cons c cs =>
    simp only [isRenamable, isIdentifier, List.head?_cons, Bool.or_eq_true, Bool.and_eq_true,
      beq_iff_eq, Option.some.injEq] at h
    rcases h with h | h
    · simp [isWord, startsWord, h.1]
    · simp [isWord, startsWord, h.1]

/-! ## What stands before a name -/

/-- A word or a number ends with a character of identifiers, unless it is a lone dollar sign. -/
theorem getLast?_of_isRun {p : List Char} (h : isRun p = true) {a : Char} (ha : a ∈ p.getLast?) :
    Identifier.isPart a = true ∨ a = '$' := by
  cases p with
  | nil => cases h
  | cons d ds =>
    rw [isRun, Bool.and_eq_true, List.all_eq_true] at h
    cases ds with
    | nil =>
      obtain rfl : d = a := by simpa using ha
      have hstart := h.1
      simp only [startsRun, startsWord, Bool.or_eq_true, beq_iff_eq] at hstart
      rcases hstart with (hstart | hdollar) | hdigit
      · exact Or.inl (isPart_of_isStart hstart)
      · exact Or.inr hdollar
      · exact Or.inl (by simp [Identifier.isPart, Char.isAlphanum, hdigit])
    | cons e es =>
      rw [List.getLast?_cons_cons] at ha
      exact Or.inl (h.2 a (List.mem_of_mem_getLast? ha))

/-- **Names stand free.** An identifier goes on with whatever stands before it; before a dollar sign
no word and no number can stand. -/
theorem Cut.standsFree_of_dollarsApart {old : List Char} (hold : isRenamable old = true)
    {ps : List (List Char)} (h : Cut ps) (hapart : DollarsApart ps.flatten) :
    Glsl.standsFree old ps = true := by
  rw [isRenamable, Bool.or_eq_true] at hold
  rcases hold with hword | hdollar
  · exact h.standsFree hword
  · have hhead : old.head? = some '$' := by
      rw [Bool.and_eq_true, beq_iff_eq] at hdollar
      exact hdollar.1
    clear h hdollar
    induction ps with
    | nil => rfl
    | cons p ps ih =>
      rw [DollarsApart, List.flatten_cons, List.isChain_append] at hapart
      obtain ⟨-, hrest, hmeet⟩ := hapart
      cases ps with
      | nil => rfl
      | cons q ps =>
        rw [Glsl.standsFree, ih hrest, Bool.and_true, Bool.not_eq_true', Bool.and_eq_false_iff,
          beq_eq_false_iff_ne]
        refine or_iff_not_imp_left.mpr fun hp => ?_
        rintro rfl
        rw [Bool.not_eq_false] at hp
        -- the last character of the word meets the dollar sign
        cases hlast : p.getLast? with
        | none =>
          rw [List.getLast?_eq_none_iff.mp hlast] at hp
          cases hp
        | some a =>
          have hq : '$' ∈ (q :: ps).flatten.head? := by
            rw [List.flatten_cons, List.head?_append, hhead]
            rfl
          obtain ⟨hpart, hne⟩ := hmeet a hlast '$' hq rfl
          rcases getLast?_of_isRun hp hlast with hpart' | heq
          · rw [hpart] at hpart'
            cases hpart'
          · exact hne heq

/-! ## Substitution -/

def replaceToken (old new t : List Char) : List Char := if t = old then new else t

theorem renamePiece_eq_replaceToken {old : List Char} (hold : isRenamable old = true)
    (new : List Char) :
    renamePiece old new = replaceToken old new := by
  funext t
  by_cases ht : t = old
  · subst ht
    rw [renamePiece_self (isWord_of_isRenamable hold), replaceToken, if_pos rfl]
  · rw [renamePiece_of_ne ht, replaceToken, if_neg ht]

theorem replaceToken_self (old t : List Char) : replaceToken old old t = t := by
  rw [replaceToken]
  split_ifs with h
  · exact h.symm
  · rfl

/-- What has been replaced is gone. -/
theorem notMem_map_replaceToken {old new : List Char} (hne : new ≠ old) (ts : List (List Char)) :
    old ∉ ts.map (replaceToken old new) := by
  rw [List.mem_map]
  rintro ⟨t, -, ht⟩
  rw [replaceToken] at ht
  split_ifs at ht with heq
  · exact hne ht
  · exact heq ht

/-- A token that was not there before can only stand for the one it has replaced. -/
theorem replaceToken_back {old new t : List Char} (h : t ≠ new) :
    replaceToken new old (replaceToken old new t) = t := by
  by_cases ht : t = old
  · rw [replaceToken, replaceToken, if_pos ht, if_pos rfl, ht]
  · rw [replaceToken, replaceToken, if_neg ht, if_neg h]

/-- **Renaming is substitution.** The tokens of the renamed text are those of the text with every
token equal to the old name replaced. So nothing of the old name is left, a name may be renamed to
itself, and a renaming to a name that is not in use can be taken back. -/
theorem rename_tokenwise {text old new : String} (htext : DollarsApart text.toList)
    (hold : isRenamable old.toList = true) (hnew : isIdentifier new.toList = true) :
    ∃ ts, (∀ us, IsTokens text us ↔ us = ts) ∧
      (∀ us, IsTokens (rename text old new) us ↔
        us = ts.map (replaceToken old.toList new.toList)) ∧
      (new ≠ old → ∀ us, IsTokens (rename text old new) us → old.toList ∉ us) ∧
      rename text old old = text ∧
      (isIdentifier old.toList = true → new.toList ∉ ts →
        rename (rename text old new) new old = text) := by
  have hfree : standsFree old.toList (pieces text.toList) = true := by
    refine (cut_pieces text.toList).standsFree_of_dollarsApart hold ?_
    rwa [flatten_pieces]
  have hpieces : pieces (rename text old new).toList =
      (pieces text.toList).map (replaceToken old.toList new.toList) := by
    rw [pieces_rename hnew hfree, renamePiece_eq_replaceToken hold]
  have htokens : ∀ us, IsTokens (rename text old new) us ↔
      us = (pieces text.toList).map (replaceToken old.toList new.toList) := by
    intro us
    rw [isTokens_iff, hpieces]
  refine ⟨pieces text.toList, fun us => isTokens_iff, htokens, fun hne us hus => ?_, ?_,
    fun hword hfresh => ?_⟩
  · rw [(htokens us).mp hus]
    exact notMem_map_replaceToken (fun heq => hne (String.toList_inj.mp heq)) _
  · have hsame :
        (pieces text.toList).map (replaceToken old.toList old.toList) = pieces text.toList :=
      (List.map_congr_left fun t _ => replaceToken_self _ t).trans (List.map_id _)
    rw [rename, renamePiece_eq_replaceToken hold, List.flatMap_def, hsame, flatten_pieces,
      String.ofList_toList]
  · have hname : isRenamable new.toList = true := by rw [isRenamable, hnew, Bool.true_or]
    have hback : ((pieces text.toList).map (replaceToken old.toList new.toList)).map
        (replaceToken new.toList old.toList) = pieces text.toList := by
      rw [List.map_map]
      refine (List.map_congr_left fun t ht => ?_).trans (List.map_id _)
      exact replaceToken_back fun heq => hfresh (heq ▸ ht)
    rw [rename, hpieces, renamePiece_eq_replaceToken hname, List.flatMap_def, hback, flatten_pieces,
      String.ofList_toList]

/-- The name in words, behind a dollar sign and in the suffix of a number, and once by itself. -/
def crowded : String := "$f(f_1,1.0f)*é f"

theorem rename_crowded :
    DollarsApart crowded.toList ∧ isRenamable "f".toList = true ∧ isIdentifier "g".toList = true ∧
      rename crowded "f" "g" = "$f(f_1,1.0f)*é g" ∧
      rename (rename crowded "f" "g") "g" "f" = crowded := by
  have htext : DollarsApart crowded.toList := by decide +kernel
  have hold : isRenamable "f".toList = true := by decide +kernel
  have hnew : isIdentifier "g".toList = true := by decide +kernel
  have hfresh : "g".toList ∉ pieces crowded.toList := by decide +kernel
  obtain ⟨ts, hts, -, -, -, hback⟩ := rename_tokenwise htext hold hnew
  obtain rfl : pieces crowded.toList = ts := (hts _).mp (isTokens_iff.mpr rfl)
  exact ⟨htext, hold, hnew, by decide +kernel, hback hold hfresh⟩

end Texel.Glsl
