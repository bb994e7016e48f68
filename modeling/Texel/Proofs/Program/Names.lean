import Texel.Glsl.Expr
import Texel.Program.Names
import Texel.Proofs.Glsl.Respelling

/-!
# Texel — generated names do not collide

Names are words of letters and digits with single underscores between them, so a name says what it
was made of: split at its underscores, it tells its family by the first word and by the number of
words, and the words in between are numbers and camel-case forms.

* **`camelCase_camelCase`** — a camel-case form is its own camel-case form.
* **`Label`** — what a name can be for, and **`Label.words`**, the words of the name.
* **`Label.text_eq_iff`** — labels share a name only through camel case. What is needed of single
  families follows: **`uniformName_inj`**, **`outputName_inj`**, **`flagName_ne_uniformName`** and
  others.
* **`Label.spelled`** — how names are spelled.
-/

namespace Texel

/-! ## Numbers in names -/

theorem toDigits_inj {n m : Nat} : Nat.toDigits 10 n = Nat.toDigits 10 m ↔ n = m := by
  constructor
  · intro h
    rw [← Nat.ofDigitChars_ten_toDigits (n := n), h, Nat.ofDigitChars_ten_toDigits]
  · rintro rfl
    rfl

theorem isPart_of_mem_toDigits {n : Nat} {c : Char} (h : c ∈ Nat.toDigits 10 n) :
    Identifier.isPart c = true := by
  have hdigit := Nat.isDigit_of_mem_toDigits (by decide) (by decide) h
  simp [Identifier.isPart, Char.isAlphanum, hdigit]

/-! ## Camel case -/

namespace Identifier

/-- Raising or lowering keeps letters and digits. -/
theorem isAlphanum_case {c : Char} (h : c.isAlphanum = true) :
    c.toUpper.isAlphanum = true ∧ c.toLower.isAlphanum = true := by
  have hsmall : ∀ n < 128, (Char.ofNat n).isAlphanum = true →
      (Char.ofNat n).toUpper.isAlphanum = true ∧ (Char.ofNat n).toLower.isAlphanum = true := by
    decide
  have hlt : c.toNat < 128 := by
    simp only [Char.isAlphanum, Char.isAlpha, Char.isUpper, Char.isLower, Char.isDigit,
      Bool.or_eq_true, Bool.and_eq_true, decide_eq_true_eq, UInt32.le_iff_toNat_le] at h
    have hval : c.toNat = c.val.toNat := rfl
    have hz : 'z'.val.toNat = 122 := rfl
    have hZ : 'Z'.val.toNat = 90 := rfl
    have h9 : '9'.val.toNat = 57 := rfl
    omega
  have := hsmall c.toNat hlt
  rw [Char.ofNat_toNat] at this
  exact this h

theorem isAlphanum_camelTail (raised : Bool) (cs : List Char) :
    ∀ c ∈ camelTail raised cs, c.isAlphanum = true := by
  induction cs generalizing raised with
  | nil => simp [camelTail]
  | cons d cs ih =>
    rw [camelTail]
    split_ifs with hd hraised
    · rw [List.forall_mem_cons]
      exact ⟨(isAlphanum_case hd).1, ih false⟩
    · rw [List.forall_mem_cons]
      exact ⟨hd, ih false⟩
    · exact ih true

theorem isAlphanum_camelChars (cs : List Char) : ∀ c ∈ camelChars cs, c.isAlphanum = true := by
  unfold camelChars
  split
  · simp
  · next d rest hdrop =>
    rw [List.forall_mem_cons]
    have hd : d.isAlphanum = true := by
      have := List.head?_dropWhile_not (fun c : Char => !c.isAlphanum) cs
      rw [hdrop] at this
      simpa using this
    exact ⟨(isAlphanum_case hd).2, isAlphanum_camelTail false rest⟩

theorem isAlphanum_camelCase (s : String) : ∀ c ∈ (camelCase s).toList, c.isAlphanum = true := by
  rw [camelCase, String.toList_ofList]
  exact isAlphanum_camelChars s.toList

theorem camelChars_ne_nil (cs : List Char) : camelChars cs ≠ [] := by
  unfold camelChars
  split <;> exact List.cons_ne_nil _ _

/-- Without separators, nothing is raised and nothing vanishes. -/
theorem camelTail_of_isAlphanum {cs : List Char} (h : ∀ c ∈ cs, c.isAlphanum = true) :
    camelTail false cs = cs := by
  induction cs with
  | nil => rfl
  | cons c cs ih =>
    rw [List.forall_mem_cons] at h
    rw [camelTail, if_pos h.1, ih h.2]
    rfl

/-- The first character is small, and the others stay as they are. -/
theorem camelChars_of_isAlphanum {c : Char} {cs : List Char}
    (h : ∀ d ∈ c :: cs, d.isAlphanum = true) : camelChars (c :: cs) = c.toLower :: cs := by
  rw [List.forall_mem_cons] at h
  unfold camelChars
  rw [List.dropWhile_cons_of_neg (by simp [h.1])]
  simp only
  rw [camelTail_of_isAlphanum h.2]

theorem camelCase_camelCase (s : String) : camelCase (camelCase s) = camelCase s := by
  have hall := isAlphanum_camelChars s.toList
  rw [camelCase, camelCase, String.toList_ofList]
  congr 1
  unfold camelChars at hall ⊢
  -- both forms begin with a small character already
  split at hall
  · exact camelChars_of_isAlphanum hall
  · next d rest _ =>
    refine (camelChars_of_isAlphanum hall).trans ?_
    rw [Char.toLower_toLower_eq_toLower]

end Identifier

namespace Program

/-! ## Families -/

theorem toList_outputName (n k : Nat) :
    (outputName n k).toList =
      'o' :: 'u' :: 't' :: '_' :: (Nat.toDigits 10 n ++ '_' :: Nat.toDigits 10 k) := by
  simp [outputName, toString]

theorem toList_uniformName (n : Nat) (p : String) :
    (uniformName n p).toList = 'p' :: 'a' :: 'r' :: 'a' :: 'm' :: '_' ::
      (Nat.toDigits 10 n ++ '_' :: (Identifier.camelCase p).toList) := by
  simp [uniformName, toString]

theorem toList_subtreeName (n : Nat) :
    (subtreeName n).toList =
      's' :: 'u' :: 'b' :: 't' :: 'r' :: 'e' :: 'e' :: '_' :: Nat.toDigits 10 n := by
  simp [subtreeName, toString]

theorem toList_specialisedName (f : String) (n : Nat) :
    (specialisedName f n).toList = f.toList ++ '_' :: Nat.toDigits 10 n := by
  simp [specialisedName, toString]

theorem toList_flagName (image : String) :
    (Glsl.flagName image).toList = image.toList ++ ['_', 'c', 'o', 'n', 'n'] := by
  simp [Glsl.flagName]

theorem specialisedName_inj {f : String} {n m : Nat} :
    specialisedName f n = specialisedName f m ↔ n = m := by
  rw [← String.toList_inj, toList_specialisedName, toList_specialisedName]
  simp [toDigits_inj]

/-- What a generated name is for. -/
inductive Label
  | uniform (node : Nat) (param : String)
  /-- Tells whether the image of a parameter is there. -/
  | flag (node : Nat) (param : String)
  | output (node index : Nat)
  | subtree (node : Nat)
deriving DecidableEq, Repr

namespace Label

def text : Label → String
  | .uniform node param => uniformName node param
  | .flag node param => Glsl.flagName (uniformName node param)
  | .output node index => outputName node index
  | .subtree node => subtreeName node

/-- The label with the camel-case form of its parameter. -/
def cased : Label → Label
  | .uniform node param => .uniform node (Identifier.camelCase param)
  | .flag node param => .flag node (Identifier.camelCase param)
  | .output node index => .output node index
  | .subtree node => .subtree node

/-- The words between the underscores of the name. -/
def words : Label → List (List Char)
  | .uniform node param =>
    [['p', 'a', 'r', 'a', 'm'], Nat.toDigits 10 node, (Identifier.camelCase param).toList]
  | .flag node param =>
    [['p', 'a', 'r', 'a', 'm'], Nat.toDigits 10 node, (Identifier.camelCase param).toList,
      ['c', 'o', 'n', 'n']]
  | .output node index => [['o', 'u', 't'], Nat.toDigits 10 node, Nat.toDigits 10 index]
  | .subtree node => [['s', 'u', 'b', 't', 'r', 'e', 'e'], Nat.toDigits 10 node]

theorem toList_text (a : Label) : a.text.toList = ['_'].intercalate a.words := by
  cases a with
  | uniform => simp [text, words, toList_uniformName, List.intercalate_cons_cons]
  | flag => simp [text, words, toList_flagName, toList_uniformName, List.intercalate_cons_cons]
  | output => simp [text, words, toList_outputName, List.intercalate_cons_cons]
  | subtree => simp [text, words, toList_subtreeName, List.intercalate_cons_cons]

/-- A word of a name: letters and digits. -/
def IsPlainWord (w : List Char) : Prop := w ≠ [] ∧ ∀ c ∈ w, c.isAlphanum = true

theorem isPlainWord_digits (n : Nat) : IsPlainWord (Nat.toDigits 10 n) := by
  refine ⟨Nat.toDigits_ne_nil, fun c hc => ?_⟩
  have hdigit := Nat.isDigit_of_mem_toDigits (by decide) (by decide) hc
  simp [Char.isAlphanum, hdigit]

theorem isPlainWord_camelCase (s : String) : IsPlainWord (Identifier.camelCase s).toList := by
  refine ⟨?_, Identifier.isAlphanum_camelCase s⟩
  rw [Identifier.camelCase, String.toList_ofList]
  exact Identifier.camelChars_ne_nil s.toList

theorem isPlainWord_of_mem_words (a : Label) : ∀ w ∈ a.words, IsPlainWord w := by
  have hparam : IsPlainWord ['p', 'a', 'r', 'a', 'm'] := ⟨by decide, List.all_eq_true.mp rfl⟩
  have hconn : IsPlainWord ['c', 'o', 'n', 'n'] := ⟨by decide, List.all_eq_true.mp rfl⟩
  have hout : IsPlainWord ['o', 'u', 't'] := ⟨by decide, List.all_eq_true.mp rfl⟩
  have hsubtree : IsPlainWord ['s', 'u', 'b', 't', 'r', 'e', 'e'] :=
    ⟨by decide, List.all_eq_true.mp rfl⟩
  cases a <;>
    simp only [words, List.forall_mem_cons, List.not_mem_nil, false_imp_iff, implies_true, and_true,
      isPlainWord_digits, isPlainWord_camelCase, hparam, hconn, hout, hsubtree]

theorem IsPlainWord.underscore_notMem {w : List Char} (h : IsPlainWord w) : '_' ∉ w := by
  intro hmem
  have := h.2 '_' hmem
  revert this
  decide

/-- **Names can be taken apart.** -/
theorem splitOn_text (a : Label) : a.text.toList.splitOn '_' = a.words := by
  rw [toList_text]
  refine List.splitOn_intercalate '_' (fun w hw =>
    (a.isPlainWord_of_mem_words w hw).underscore_notMem) ?_
  cases a <;> exact List.cons_ne_nil _ _

theorem words_eq_iff {a b : Label} : a.words = b.words ↔ a.cased = b.cased := by
  cases a <;> cases b <;> simp [words, cased, toDigits_inj, String.toList_inj]

/-- **Collisions.** Labels have the same name only if they are the same up to camel case. -/
theorem text_eq_iff {a b : Label} : a.text = b.text ↔ a.cased = b.cased := by
  rw [← words_eq_iff]
  constructor
  · intro h
    rw [← splitOn_text, h, splitOn_text]
  · intro h
    rw [← String.toList_inj, toList_text, toList_text, h]

end Label

theorem outputName_inj {n k m j : Nat} : outputName n k = outputName m j ↔ n = m ∧ k = j := by
  have h := Label.text_eq_iff (a := .output n k) (b := .output m j)
  rwa [Label.cased, Label.cased, Label.output.injEq] at h

theorem uniformName_inj {n m : Nat} {p q : String} :
    uniformName n p = uniformName m q ↔ n = m ∧
    Identifier.camelCase p = Identifier.camelCase q := by
  have h := Label.text_eq_iff (a := .uniform n p) (b := .uniform m q)
  rwa [Label.cased, Label.cased, Label.uniform.injEq] at h

theorem subtreeName_inj {n m : Nat} : subtreeName n = subtreeName m ↔ n = m := by
  have h := Label.text_eq_iff (a := .subtree n) (b := .subtree m)
  rwa [Label.cased, Label.cased, Label.subtree.injEq] at h

theorem flagName_inj {a b : String} : Glsl.flagName a = Glsl.flagName b ↔ a = b := by
  rw [← String.toList_inj, toList_flagName, toList_flagName]
  simp [String.toList_inj]

theorem flagName_ne_uniformName (n m : Nat) (p q : String) :
    Glsl.flagName (uniformName n p) ≠ uniformName m q := fun h =>
  Label.noConfusion ((Label.text_eq_iff (a := .flag n p) (b := .uniform m q)).mp h)

theorem outputName_ne_uniformName (n k m : Nat) (p : String) : outputName n k ≠ uniformName m p :=
  fun h =>
  Label.noConfusion ((Label.text_eq_iff (a := .output n k) (b := .uniform m p)).mp h)

theorem outputName_ne_flagName (n k m : Nat) (p : String) :
    outputName n k ≠ Glsl.flagName (uniformName m p) := fun h =>
  Label.noConfusion ((Label.text_eq_iff (a := .output n k) (b := .flag m p)).mp h)

/-! ## Spelling -/

/-- A letter and then letters, digits and underscores, of which no two stand side by side. -/
structure Spelled (s : String) : Prop where
  start : ∃ c ∈ s.toList.head?, c.isAlpha = true
  parts : ∀ c ∈ s.toList, Identifier.isPart c = true
  single : s.toList.IsChain fun a b => a = '_' → b ≠ '_'

theorem mem_intercalate {ws : List (List Char)} {c : Char} (h : c ∈ ['_'].intercalate ws) :
    c = '_' ∨ ∃ w ∈ ws, c ∈ w := by
  induction ws with
  | nil => cases h
  | cons w ws ih =>
    cases ws with
    | nil => exact Or.inr ⟨w, List.mem_cons_self, by rwa [List.intercalate_singleton] at h⟩
    | cons v ws =>
      rw [List.intercalate_cons_cons, List.mem_append, List.mem_append, List.mem_singleton] at h
      rcases h with (hw | hunderscore) | hrest
      · exact Or.inr ⟨w, List.mem_cons_self, hw⟩
      · exact Or.inl hunderscore
      · refine (ih hrest).imp id ?_
        rintro ⟨u, hu, hc⟩
        exact ⟨u, List.mem_cons_of_mem _ hu, hc⟩

theorem isChain_intercalate {ws : List (List Char)} (h : ∀ w ∈ ws, Label.IsPlainWord w) :
    (['_'].intercalate ws).IsChain fun a b => a = '_' → b ≠ '_' := by
  have hword : ∀ w, Label.IsPlainWord w → w.IsChain fun a b => a = '_' → b ≠ '_' := by
    intro w hw
    refine (List.pairwise_of_forall_mem_list ?_).isChain
    rintro a ha b - rfl
    exact absurd ha hw.underscore_notMem
  induction ws with
  | nil => exact .nil
  | cons w ws ih =>
    rw [List.forall_mem_cons] at h
    cases ws with
    | nil =>
      rw [List.intercalate_singleton]
      exact hword w h.1
    | cons v ws =>
      rw [List.intercalate_cons_cons, List.append_assoc, List.isChain_append]
      refine ⟨hword w h.1, ?_, fun a ha b _ heq => ?_⟩
      · rw [List.singleton_append, List.isChain_cons]
        refine ⟨fun b hb _ => ?_, ih h.2⟩
        -- the next word is not empty, and it does not begin with an underscore
        have hv := h.2 v List.mem_cons_self
        have hhead : (['_'].intercalate (v :: ws)).head? = v.head? := by
          cases ws with
          | nil => rw [List.intercalate_singleton]
          | cons u ws =>
            rw [List.intercalate_cons_cons, List.append_assoc, List.head?_append_of_ne_nil _ hv.1]
        rw [hhead] at hb
        rintro rfl
        exact hv.underscore_notMem (List.mem_of_mem_head? hb)
      · exact absurd (heq ▸ List.mem_of_mem_getLast? ha) h.1.underscore_notMem

theorem Label.spelled (a : Label) : Spelled a.text where
  start := by
    cases a with
    | uniform => exact ⟨'p', by simp [text, toList_uniformName], by decide⟩
    | flag => exact ⟨'p', by simp [text, toList_flagName, toList_uniformName], by decide⟩
    | output => exact ⟨'o', by simp [text, toList_outputName], by decide⟩
    | subtree => exact ⟨'s', by simp [text, toList_subtreeName], by decide⟩
  parts c hc := by
    rw [toList_text] at hc
    rcases mem_intercalate hc with rfl | ⟨w, hw, hcw⟩
    · decide
    · rw [Identifier.isPart, (a.isPlainWord_of_mem_words w hw).2 c hcw, Bool.true_or]
  single := by
    rw [toList_text]
    exact isChain_intercalate a.isPlainWord_of_mem_words

theorem Spelled.isIdentifier {s : String} (h : Spelled s) : Glsl.isIdentifier s.toList = true := by
  obtain ⟨c, hc, halpha⟩ := h.start
  obtain ⟨cs, hs⟩ := List.head?_eq_some_iff.mp hc
  have hparts := h.parts
  rw [hs] at hparts ⊢
  rw [Glsl.isIdentifier, Identifier.isStart, halpha, Bool.true_or, Bool.true_and, List.all_eq_true]
  exact fun d hd => hparts d (List.mem_cons_of_mem _ hd)

theorem isIdentifier_subtreeName (n : Nat) : Glsl.isIdentifier (subtreeName n).toList = true :=
  (Label.spelled (.subtree n)).isIdentifier

theorem isIdentifier_specialisedName {f : String} (hf : Glsl.isIdentifier f.toList = true)
    (n : Nat) : Glsl.isIdentifier (specialisedName f n).toList = true := by
  have hdigits : (Nat.toDigits 10 n).all Identifier.isPart = true :=
    List.all_eq_true.mpr fun _ => isPart_of_mem_toDigits
  rw [toList_specialisedName]
  cases hcs : f.toList with
  | nil =>
    rw [hcs] at hf
    cases hf
  | cons c cs =>
    rw [hcs, Glsl.isIdentifier, Bool.and_eq_true] at hf
    simp only [List.cons_append, Glsl.isIdentifier, List.all_append, List.all_cons, hf.1, hf.2,
      hdigits]
    decide

end Program
end Texel
