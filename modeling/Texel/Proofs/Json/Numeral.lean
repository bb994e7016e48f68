import Texel.Json.Printer
import Texel.Json.Reader
import Texel.Proofs.Number.Range

/-!
# Texel — numerals as they are written

What is printed for a number is a numeral, its digits are the digits of the number, and a finite
number stays within the range of the 64-bit format while it is read.

* **`Spelling`** — the form in which numbers are written, with its numeral.
* **`Spelling.parse?_text`** — what is written is read as that numeral.
* **`toNat?_ofNat`** — natural numbers come back.
* **`isSome_toSingle?_ofSingle`** — of a single-precision number something comes back exactly if it
  is finite.
-/

namespace Texel.Numeral

/-! ## Spellings -/

/-- A number in the form in which numbers are written: an exponent has a sign, and a fraction that
is not written is empty. -/
structure Spelling where
  negative : Bool
  integer : List Char
  fraction : List Char
  exponent : Option (Bool × List Char)
  integer_digits : ∀ c ∈ integer, c.isDigit = true
  integer_ne_nil : integer ≠ []
  integer_head : integer.head? = some '0' → integer.length = 1
  fraction_digits : ∀ c ∈ fraction, c.isDigit = true
  exponent_digits : ∀ e ∈ exponent, e.2 ≠ [] ∧ ∀ c ∈ e.2, c.isDigit = true

namespace Spelling

def exponentText (s : Spelling) : List Char :=
  match s.exponent with
  | none => []
  | some (negative, digits) => 'e' :: (if negative then '-' else '+') :: digits

def fractionText (s : Spelling) : List Char :=
  if s.fraction = [] then [] else '.' :: s.fraction

/-- The text without its sign. -/
def body (s : Spelling) : List Char := s.integer ++ (s.fractionText ++ s.exponentText)

def text (s : Spelling) : List Char := (if s.negative then ['-'] else []) ++ s.body

/-- What the spelling spells. -/
def numeral (s : Spelling) : Numeral :=
  ⟨s.negative, s.integer.map digitValue, s.fraction.map digitValue,
    s.exponent.map fun e => (e.1, e.2.map digitValue)⟩

variable (s : Spelling)

theorem exponentOf?_exponentText : exponentOf? s.exponentText = some s.numeral.exponent := by
  rw [exponentText, numeral]
  cases h : s.exponent with
  | none => rfl
  | some e =>
    obtain ⟨hne, hdigits⟩ := s.exponent_digits e h
    cases hsign : e.1 <;> simpa [exponentOf?, hsign, hne] using hdigits

theorem span_digits {ds rest : List Char} (hds : ∀ c ∈ ds, c.isDigit = true)
    (hrest : ∀ c ∈ rest.head?, c.isDigit = false) :
    (ds ++ rest).span Char.isDigit = (ds, rest) := by
  have hstop : rest.takeWhile Char.isDigit = [] ∧ rest.dropWhile Char.isDigit = rest := by
    cases rest with
    | nil => exact ⟨rfl, rfl⟩
    | cons c rest => simp [hrest c rfl]
  rw [List.span_eq_takeWhile_dropWhile, List.takeWhile_append_of_pos hds,
    List.dropWhile_append_of_pos hds, hstop.1, hstop.2, List.append_nil]

theorem head_exponentText : ∀ c ∈ s.exponentText.head?, c = 'e' := by
  rw [exponentText]
  cases s.exponent with
  | none => intro c hc; cases hc
  | some e => intro c hc; exact (Option.some.inj hc).symm

theorem head_fractionText :
    ∀ c ∈ (s.fractionText ++ s.exponentText).head?, c.isDigit = false := by
  intro c hc
  rw [fractionText] at hc
  split at hc
  · rw [s.head_exponentText c hc]; rfl
  · rw [← Option.some.inj hc]; rfl

theorem body_ne_minus (rest : List Char) : s.body ≠ '-' :: rest := by
  obtain ⟨first, others, hne⟩ := List.exists_cons_of_ne_nil s.integer_ne_nil
  intro h
  have hdigit := s.integer_digits first (by simp [hne])
  rw [body, hne, List.cons_append, List.cons.injEq] at h
  rw [h.1] at hdigit
  exact absurd hdigit (by decide)

theorem parse?_body : parse? s.body = some { s.numeral with negative := false } := by
  have hinteger := span_digits s.integer_digits s.head_fractionText
  have hfraction := span_digits s.fraction_digits fun c hc => by
    rw [s.head_exponentText c hc]; rfl
  have hvalid :
      ¬(s.integer.isEmpty || (s.integer.head? == some '0' && s.integer.length != 1)) = true := by
    simpa [s.integer_ne_nil] using s.integer_head
  rw [parse?.eq_2 _ s.body_ne_minus, body, hinteger]
  simp only [if_neg hvalid, fractionText]
  split_ifs with hempty
  · -- without a point the exponent follows the integer
    rw [List.nil_append]
    split
    · rename_i heq
      exact absurd (s.head_exponentText '.' (by rw [heq]; rfl)) (by decide)
    · simp [numeral, hempty, exponentOf?_exponentText]
  · simp only [List.cons_append, hfraction, exponentOf?_exponentText, List.isEmpty_iff,
      if_neg hempty]
    rfl

theorem parse?_minus {cs : List Char} (h : ∀ rest, cs ≠ '-' :: rest) :
    parse? ('-' :: cs) = (parse? cs).map fun n => { n with negative := true } := by
  rw [parse?, parse?.eq_2 _ h]
  split
  split_ifs
  · rfl
  · split
    · split
      split_ifs
      · rfl
      · rw [Option.map_map]; rfl
    · rw [Option.map_map]; rfl

theorem parse?_text : parse? s.text = some s.numeral := by
  rw [text]
  split_ifs with hsign
  · rw [List.singleton_append, parse?_minus s.body_ne_minus, parse?_body, Option.map_some, numeral,
      hsign]
  · rw [Bool.not_eq_true] at hsign
    rw [List.nil_append, parse?_body, numeral, hsign]

/-! ## The characters of a spelling -/

theorem isNumberChar_of_isDigit {c : Char} (h : c.isDigit = true) : Json.isNumberChar c = true := by
  simp [Json.isNumberChar, h]

theorem isNumberChar_of_mem {c : Char} (hc : c ∈ s.text) : Json.isNumberChar c = true := by
  simp only [text, body, fractionText, exponentText, List.mem_append] at hc
  rcases hc with hc | hc | hc | hc
  · split_ifs at hc
    · rw [List.mem_singleton.mp hc]; rfl
    · cases hc
  · exact isNumberChar_of_isDigit (s.integer_digits c hc)
  · split_ifs at hc
    · cases hc
    · rcases List.mem_cons.mp hc with rfl | hc
      · rfl
      · exact isNumberChar_of_isDigit (s.fraction_digits c hc)
  · split at hc
    · cases hc
    · rename_i negative digits hexponent
      rcases List.mem_cons.mp hc with rfl | hc
      · rfl
      · rcases List.mem_cons.mp hc with rfl | hc
        · cases negative <;> rfl
        · exact isNumberChar_of_isDigit ((s.exponent_digits _ hexponent).2 c hc)

theorem exists_first : ∃ c rest, s.text = c :: rest ∧ (c.isDigit || c == '-') = true := by
  obtain ⟨first, others, hne⟩ := List.exists_cons_of_ne_nil s.integer_ne_nil
  rw [text, body, hne]
  split_ifs
  · exact ⟨'-', _, rfl, rfl⟩
  · exact ⟨first, _, rfl, by simp [s.integer_digits first (by simp [hne])]⟩

end Spelling

/-! ## Natural numbers -/

theorem isDigit_toDigits (n : Nat) : ∀ c ∈ Nat.toDigits 10 n, c.isDigit = true :=
  fun _ hc => Nat.isDigit_of_mem_toDigits (by decide) (by decide) hc

/-- Only zero begins with a zero. -/
theorem eq_zero_of_head_toDigits {n : Nat} (h : (Nat.toDigits 10 n).head? = some '0') : n = 0 := by
  induction n using Nat.strongRecOn with
  | ind n ih =>
    by_cases hn : n < 10
    · rw [Nat.toDigits_of_lt_base hn] at h
      interval_cases n <;> first | rfl | cases h
    · rw [Nat.toDigits_of_base_le (by decide) (by omega),
        List.head?_append_of_ne_nil _ Nat.toDigits_ne_nil] at h
      have := ih (n / 10) (by omega) h
      omega

theorem natural_toDigits (n : Nat) : natural ((Nat.toDigits 10 n).map digitValue) = n := by
  conv_rhs => rw [← Nat.ofDigitChars_ten_toDigits (n := n)]
  rw [natural, Nat.ofDigitChars, List.foldl_map]
  congr 1
  funext m c
  rw [digitValue, Nat.mul_comm]

def Spelling.ofNat (n : Nat) : Spelling where
  negative := false
  integer := Nat.toDigits 10 n
  fraction := []
  exponent := none
  integer_digits := isDigit_toDigits n
  integer_ne_nil := Nat.toDigits_ne_nil
  integer_head h := by rw [eq_zero_of_head_toDigits h]; rfl
  fraction_digits _ h := by cases h
  exponent_digits _ h := by cases h

theorem Spelling.text_ofNat (n : Nat) : (ofNat n).text = Nat.toDigits 10 n := by
  simp [text, body, fractionText, exponentText, ofNat]

theorem amount?_ofNat {n : Nat} (h : n < limit) :
    (Spelling.ofNat n).numeral.amount? = some (.natural n) := by
  simp [amount?, Spelling.numeral, Spelling.ofNat, natural_toDigits, h]

/-! ## Range -/

/-- Numerals whose value is far from leaving the 64-bit format. -/
structure Short (n : Numeral) : Prop where
  integer : n.integer.length ≤ 100
  fraction : n.fraction.length ≤ 100
  exponent : ∀ e ∈ n.exponent, natural e.2 ≤ 100

structure Scaled.Within (low high : Int) (p : Scaled) : Prop where
  lt : p.significand < limit
  low_le : low ≤ p.exponent
  le_high : p.exponent ≤ high

theorem Scaled.Within.foldl_integerDigit {low high : Int} {p : Scaled} (h : p.Within low high)
    (ds : List Nat) : (ds.foldl integerDigit p).Within low (high + ds.length) := by
  induction ds generalizing p high with
  | nil => simpa using h
  | cons d ds ih =>
    have hstep : (p.integerDigit d).Within low (high + 1) := by
      rw [integerDigit]
      have hlow := h.low_le
      have hhigh := h.le_high
      split_ifs with hfull
      · exact ⟨h.lt, by simp only; omega, by simp only; omega⟩
      · simp only [Bool.or_eq_true, decide_eq_true_eq, not_or, not_le] at hfull
        exact ⟨hfull.2, hlow, by simp only; omega⟩
    have hrest := ih hstep
    rw [List.foldl_cons, List.length_cons, Nat.cast_succ, add_comm (ds.length : Int), ← add_assoc]
    exact hrest

theorem Scaled.Within.foldl_fractionDigit {low high : Int} {p : Scaled} (h : p.Within low high)
    (ds : List Nat) : (ds.foldl fractionDigit p).Within (low - ds.length) high := by
  induction ds generalizing p low with
  | nil => simpa using h
  | cons d ds ih =>
    have hstep : (p.fractionDigit d).Within (low - 1) high := by
      rw [fractionDigit]
      have hlow := h.low_le
      have hhigh := h.le_high
      split_ifs with hfull
      · exact ⟨h.lt, by simp only; omega, by simp only; omega⟩
      · simp only [Bool.or_eq_true, decide_eq_true_eq, not_or, not_le] at hfull
        exact ⟨hfull.2, by simp only; omega, by simp only; omega⟩
    have hrest := ih hstep
    rw [List.foldl_cons, List.length_cons, Nat.cast_succ, add_comm (ds.length : Int), ← sub_sub]
    exact hrest

/-- The significand of all digits, and the exponent without the one that is written. -/
def scaled (n : Numeral) : Scaled :=
  n.fraction.foldl Scaled.fractionDigit
    { n.integer.foldl Scaled.integerDigit {} with full := false }

theorem within_scaled (n : Numeral) :
    n.scaled.Within (-n.fraction.length) n.integer.length := by
  have hwhole := Scaled.Within.foldl_integerDigit (p := {}) ⟨by decide, le_refl 0, le_refl 0⟩
    n.integer
  have hall := Scaled.Within.foldl_fractionDigit
    (p := { n.integer.foldl Scaled.integerDigit {} with full := false })
    ⟨hwhole.lt, hwhole.low_le, hwhole.le_high⟩ n.fraction
  rwa [zero_add, zero_sub] at hall

theorem Short.isSome_magnitude? {n : Numeral} (h : n.Short) : n.magnitude?.isSome = true := by
  have hinteger := h.integer
  have hfraction := h.fraction
  -- a hundred digits on either side of the point and a hundred of exponent are at most 200 places
  obtain ⟨hlt, hlow, hhigh⟩ := n.within_scaled
  rw [magnitude?]
  split
  · show (scale? n.scaled.significand n.scaled.exponent).isSome = true
    exact isSome_scale? hlt (by omega) (by omega)
  · rename_i negative digits hexponent
    have hsmall : natural digits ≤ 100 := h.exponent _ hexponent
    show (if 0x80000000 ≤ natural digits then _ else scale? n.scaled.significand
      (if negative then n.scaled.exponent - natural digits
        else n.scaled.exponent + natural digits)).isSome = true
    rw [if_neg (by omega)]
    split_ifs
    · exact isSome_scale? hlt (by omega) (by omega)
    · exact isSome_scale? hlt (by omega) (by omega)

theorem Short.isSome_amount? {n : Numeral} (h : n.Short) : n.amount?.isSome = true := by
  rw [amount?]
  split_ifs
  · rfl
  · rfl
  · rw [Option.isSome_map]
    exact h.isSome_magnitude?

end Texel.Numeral

namespace Texel.Json

open Numeral

/-! ## Numbers as they are written -/

theorem toNat?_ofNat {n bound : Nat} (h : n < bound) (hbound : bound ≤ UInt64.size) :
    (ofNat n).toNat? bound = some n := by
  have hparse : Numeral.parse? (Nat.toDigits 10 n) = some (Spelling.ofNat n).numeral := by
    rw [← (Spelling.ofNat n).parse?_text, Spelling.text_ofNat]
  simp [ofNat, toNat?, hparse, amount?_ofNat (h.trans_le hbound), Amount.toNat?, h]

theorem isDigit_zeros (n : Nat) : ∀ c ∈ zeros n, c.isDigit = true := by
  intro c hc
  rw [List.eq_of_mem_replicate hc]
  rfl

theorem exists_positional {digits : List Char} {exponent : Int} (negative : Bool)
    (hdigits : ∀ c ∈ digits, c.isDigit = true) (hne : digits ≠ []) (hhead : digits.head? ≠ some '0')
    (hlength : digits.length ≤ 11) (hlow : -6 ≤ exponent) (hhigh : exponent ≤ 12) :
    ∃ s : Spelling, s.negative = negative ∧ s.body = positional digits exponent ∧
      s.numeral.Short := by
  rw [positional]
  split_ifs with hsign
  · -- the digits before the point are filled up with zeros, those behind it are never none
    obtain ⟨first, others, rfl⟩ := List.exists_cons_of_ne_nil hne
    set places := exponent.toNat + 1 with hplaces
    set rest := (first :: others).drop places with hrest
    have hrest_digits : ∀ c ∈ if rest.isEmpty then ['0'] else rest, c.isDigit = true := by
      split_ifs
      · intro c hc
        rw [List.mem_singleton.mp hc]
        rfl
      · exact fun c hc => hdigits c (List.mem_of_mem_drop hc)
    have hrest_length : (if rest.isEmpty then ['0'] else rest).length ≤ 11 := by
      split_ifs
      · decide
      · simp only [hrest, List.length_drop]
        omega
    refine ⟨⟨negative, (first :: others).take places ++ zeros (places - (first :: others).length),
      if rest.isEmpty then ['0'] else rest, none, ?_, ?_, ?_, hrest_digits, ?_⟩, rfl, ?_, ?_⟩
    · intro c hc
      rcases List.mem_append.mp hc with hc | hc
      · exact hdigits c (List.mem_of_mem_take hc)
      · exact isDigit_zeros _ c hc
    · simp [hplaces]
    · intro hzero
      rw [hplaces, List.take_succ_cons, List.cons_append, List.head?_cons] at hzero
      exact absurd hzero hhead
    · intro e he
      cases he
    · have hfraction : (if rest.isEmpty then ['0'] else rest) ≠ [] := by
        split_ifs with hempty
        · simp
        · simpa using hempty
      simp only [Spelling.body, Spelling.fractionText, Spelling.exponentText, if_neg hfraction,
        List.append_nil]
      rfl
    · refine ⟨?_, ?_, ?_⟩
      · simp only [Spelling.numeral, List.length_map, List.length_append, zeros, List.length_take,
          List.length_replicate]
        omega
      · rw [Spelling.numeral, List.length_map]
        exact hrest_length.trans (by decide)
      · intro e he
        cases he
  · refine ⟨⟨negative, ['0'], zeros ((-exponent).toNat - 1) ++ digits, none, ?_, ?_, ?_, ?_, ?_⟩,
      rfl, ?_, ?_⟩
    · simp
    · simp
    · simp
    · intro c hc
      rcases List.mem_append.mp hc with hc | hc
      · exact isDigit_zeros _ c hc
      · exact hdigits c hc
    · intro e he
      cases he
    · simp [Spelling.body, Spelling.fractionText, Spelling.exponentText, hne]
    · refine ⟨by simp [Spelling.numeral], ?_, ?_⟩
      · simp only [Spelling.numeral, List.length_map, List.length_append, zeros,
          List.length_replicate]
        omega
      · intro e he
        cases he

theorem exists_scientific {digits : List Char} {exponent : Int} (negative : Bool)
    (hdigits : ∀ c ∈ digits, c.isDigit = true) (hne : digits ≠ [])
    (hlength : digits.length ≤ 11) (hexponent : exponent.natAbs ≤ 100) :
    ∃ s : Spelling, s.negative = negative ∧ s.body = scientific digits exponent ∧
      s.numeral.Short := by
  obtain ⟨first, others, rfl⟩ := List.exists_cons_of_ne_nil hne
  simp only [List.mem_cons, forall_eq_or_imp] at hdigits
  refine ⟨⟨negative, [first], others, some (exponent < 0, Nat.toDigits 10 exponent.natAbs),
    ?_, ?_, ?_, ?_, ?_⟩, rfl, ?_, ?_⟩
  · simpa using hdigits.1
  · simp
  · simp
  · exact hdigits.2
  · intro e he
    cases he
    exact ⟨Nat.toDigits_ne_nil, isDigit_toDigits _⟩
  · simp [Spelling.body, Spelling.fractionText, Spelling.exponentText, scientific]
    cases others <;> simp
  · refine ⟨by simp [Spelling.numeral], ?_, ?_⟩
    · simp [Spelling.numeral] at hlength ⊢
      omega
    · intro e he
      simp [Spelling.numeral] at he
      rw [← he]
      simpa [natural_toDigits] using hexponent

theorem exists_decimal {d : Decimal} (h : d.Bounded (-60) 49) (negative : Bool) :
    ∃ s : Spelling, s.negative = negative ∧ s.body = decimalLiteral decimalStyle d ∧
      s.numeral.Short := by
  have hlength : (Nat.toDigits 10 d.digits).length ≤ 11 :=
    Nat.toDigits_length 10 d.digits 11 (by decide) (h.le.trans_lt (by norm_num))
  have hhead : (Nat.toDigits 10 d.digits).head? ≠ some '0' := fun hzero =>
    h.pos.ne' (eq_zero_of_head_toDigits hzero)
  have hexponent :
      (d.exponent + ((Nat.toDigits 10 d.digits).length - 1 : Nat)).natAbs ≤ 100 := by
    have hlow := h.low_le
    have hhigh := h.le_high
    omega
  rw [decimalLiteral]
  split_ifs with hstyle
  · exact exists_positional negative (isDigit_toDigits _) Nat.toDigits_ne_nil hhead hlength
      hstyle.1 hstyle.2
  · exact exists_scientific negative (isDigit_toDigits _) Nat.toDigits_ne_nil hlength hexponent

theorem exists_single {x : Single} (h : x.isFinite = true) :
    ∃ s : Spelling, s.text = singleLiteral x ∧ s.numeral.Short := by
  have hbody : ∃ s : Spelling, s.negative = x.isNegative ∧ s.body = (if x.magnitude.mantissa = 0
      then ['0', '.', '0'] else decimalLiteral decimalStyle (Decimal.shortest x.magnitude)) ∧
      s.numeral.Short := by
    split_ifs with hzero
    · refine ⟨⟨x.isNegative, ['0'], ['0'], none, ?_, ?_, ?_, ?_, ?_⟩, rfl, rfl, ?_, ?_, ?_⟩ <;>
        simp [Spelling.numeral]
    · exact exists_decimal (Single.bounded_shortest h (Nat.pos_of_ne_zero hzero)) _
  obtain ⟨s, hsign, hs, hshort⟩ := hbody
  refine ⟨s, ?_, hshort⟩
  rw [Spelling.text, singleLiteral, hsign, hs]
  cases x.isNegative with
  | true => simp only [if_true, List.singleton_append]
  | false => simp only [Bool.false_eq_true, if_false, List.nil_append]

/-- A number that has been written can be read if it is finite. -/
theorem isSome_toSingle?_ofSingle (x : Single) : (ofSingle x).toSingle?.isSome = x.isFinite := by
  rw [ofSingle]
  split_ifs with h
  · obtain ⟨s, htext, hshort⟩ := exists_single h
    obtain ⟨amount, hamount⟩ := Option.isSome_iff_exists.mp hshort.isSome_amount?
    rw [← htext, toSingle?, s.parse?_text]
    simp [hamount, h]
  · simpa [toSingle?] using h

end Texel.Json
