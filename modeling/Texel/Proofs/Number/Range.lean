import Texel.Json.Numeral
import Texel.Number.Shortest
import Mathlib

/-!
# Texel — how large rounded numbers get

Rounding is followed as exact arithmetic of rational numbers. The bounds are wide on purpose: a
rounded number is at most twice what was rounded, which is all that is needed to see that no finite
number of the 32-bit format leaves the 64-bit format on its way through decimal digits and back.

* **`Format.isSome_round?`**, **`Format.value_round?_le`** — rounding into the 64-bit format.
* **`Numeral.isSome_scale?`** — a significand times a power of ten.
* **`Decimal.bounded_shortest`** — digits and exponent of a shortest decimal.
-/

namespace Texel

/-! ## Rounding -/

namespace Binary

/-- The number itself. -/
def value (b : Binary) : ℚ := b.mantissa * 2 ^ b.exponent

theorem value_nonneg (b : Binary) : 0 ≤ b.value := by
  unfold value
  positivity

theorem ratio_pos (b : Binary) : 0 < b.ratio.2 := by
  unfold ratio
  split_ifs
  · exact one_pos
  · exact Nat.pow_pos two_pos

theorem ratio_eq (b : Binary) : (b.ratio.1 : ℚ) / b.ratio.2 = b.value := by
  unfold ratio value
  split_ifs with h
  · simp [← zpow_natCast, Int.toNat_of_nonneg h]
  · have hexponent : ((-b.exponent).toNat : ℤ) = -b.exponent := Int.toNat_of_nonneg (by omega)
    simp [← zpow_natCast, hexponent, div_eq_mul_inv]

theorem scaleDown_pos {n d : Nat} (hd : 0 < d) (e : Int) : 0 < (scaleDown n d e).2 := by
  unfold scaleDown
  split_ifs
  · exact Nat.mul_pos hd (Nat.pow_pos two_pos)
  · exact hd

theorem scaleDown_eq (n d : Nat) (e : Int) :
    ((scaleDown n d e).1 : ℚ) / (scaleDown n d e).2 = n / d / 2 ^ e := by
  unfold scaleDown
  split_ifs with h
  · rw [div_div]
    simp [← zpow_natCast, Int.toNat_of_nonneg h]
  · have hexponent : ((-e).toNat : ℤ) = -e := Int.toNat_of_nonneg (by omega)
    simp [← zpow_natCast, hexponent]
    ring

/-- A rounded quotient is at most twice as large. -/
theorem roundHalfEven_mul_le (n d : Nat) : roundHalfEven n d * d ≤ 2 * n := by
  have hparity : n / d % 2 ≤ 1 := Nat.le_of_lt_succ (Nat.mod_lt _ two_pos)
  have hn := Nat.div_add_mod n d
  simp only [roundHalfEven]
  generalize n / d = q at *
  generalize n % d = r at *
  split_ifs with hbelow habove
  · nlinarith
  · nlinarith
  · -- a half, where the quotient is raised by at most one
    have hraised : q % 2 * d ≤ 1 * d := Nat.mul_le_mul_right d hparity
    nlinarith

theorem floorLog_le {n d k : Nat} (hn : n ≠ 0) (h : n < d * 2 ^ k) : floorLog n d ≤ k := by
  have hlog : n.log2 < d.log2 + 1 + k := by
    refine (Nat.log2_lt hn).mpr (h.trans_le ?_)
    rw [Nat.pow_add]
    exact Nat.mul_le_mul_right _ Nat.lt_log2_self.le
  simp only [floorLog]
  split_ifs <;> omega

end Binary

namespace Format

open Binary

variable {n d : Nat}

/-- A mantissa that may have been rounded up to one bit too many. -/
def carried (f : Format) (q : Nat) (e : Int) : Binary :=
  if q = Nat.pow 2 f.precision then ⟨Nat.pow 2 (f.precision - 1), e + 1⟩ else ⟨q, e⟩

theorem value_carried {f : Format} (hf : 0 < f.precision) (q : Nat) (e : Int) :
    (f.carried q e).value = q * 2 ^ e := by
  unfold carried
  split_ifs with h
  · have hpow : (2 : ℚ) ^ f.precision = 2 ^ (f.precision - 1) * 2 := by
      rw [← pow_succ, Nat.sub_add_cancel hf]
    simp only [value, h, Nat.pow_eq, Nat.cast_pow, Nat.cast_ofNat, hpow,
      zpow_add_one₀ (by norm_num : (2 : ℚ) ≠ 0)]
    ring
  · rfl

theorem exponent_carried_le (f : Format) (q : Nat) (e : Int) :
    (f.carried q e).exponent ≤ e + 1 := by
  unfold carried
  split_ifs <;> simp

/-- The exponent that a quotient is rounded to. -/
def exponentOf (f : Format) (n d : Nat) : Int :=
  max f.minExp (floorLog n d - (f.precision - 1 : Nat))

theorem round?_of_ne_zero (f : Format) (hn : n ≠ 0) :
    f.round? n d =
      let scaled := scaleDown n d (f.exponentOf n d)
      let rounded := f.carried (roundHalfEven scaled.1 scaled.2) (f.exponentOf n d)
      if f.maxExp < rounded.exponent then none else some rounded := by
  rw [round?, if_neg hn]
  rfl

theorem isSome_round? {k : Nat} (hk : k ≤ 1022) (h : n < d * 2 ^ k) :
    (double.round? n d).isSome = true := by
  by_cases hn : n = 0
  · rw [round?, if_pos hn]
    rfl
  · have hlog := floorLog_le hn h
    have hexponent : double.exponentOf n d ≤ 970 := by
      simp only [exponentOf, double]
      omega
    rw [round?_of_ne_zero _ hn]
    have hcarried := double.exponent_carried_le
      (roundHalfEven (scaleDown n d (double.exponentOf n d)).1
        (scaleDown n d (double.exponentOf n d)).2) (double.exponentOf n d)
    have hmax : double.maxExp = 971 := rfl
    simp only
    rw [if_neg (by omega)]
    rfl

theorem value_round?_le {b : Binary} (hd : 0 < d) (h : double.round? n d = some b) :
    b.value ≤ 2 * (n / d) := by
  -- zero is rounded apart, as it has no first bit
  by_cases hn : n = 0
  · rw [round?, if_pos hn, Option.some.injEq] at h
    rw [← h, value]
    simp only [Nat.cast_zero, zero_mul]
    positivity
  · rw [round?_of_ne_zero _ hn] at h
    simp only at h
    split_ifs at h
    rw [← Option.some.inj h, value_carried (by decide)]
    set e := double.exponentOf n d
    have hscaled := scaleDown_eq n d e
    have hpos : (0 : ℚ) < (scaleDown n d e).2 := by exact_mod_cast scaleDown_pos hd e
    have hround : (roundHalfEven (scaleDown n d e).1 (scaleDown n d e).2 : ℚ) ≤
        2 * ((scaleDown n d e).1 / (scaleDown n d e).2) := by
      rw [← mul_div_assoc, le_div_iff₀ hpos]
      exact_mod_cast roundHalfEven_mul_le _ _
    calc (roundHalfEven (scaleDown n d e).1 (scaleDown n d e).2 : ℚ) * 2 ^ e
        ≤ 2 * ((scaleDown n d e).1 / (scaleDown n d e).2) * 2 ^ e := by gcongr
      _ = 2 * (n / d) := by
        rw [hscaled]
        field_simp

end Format

/-! ## Powers of ten -/

namespace Numeral

open Binary

theorem powerOfTen_le (n : Nat) : (powerOfTen n).value ≤ 2 * 10 ^ n := by
  unfold powerOfTen
  cases h : Format.double.round? (Nat.pow 10 n) 1 with
  | none =>
    simp only [Option.getD_none, value, Nat.cast_zero, zero_mul]
    positivity
  | some b => simpa using Format.value_round?_le one_pos h

theorem one_le_powerOfTen {n : Nat} (hn : n ≤ 308) : 1 ≤ (powerOfTen n).value := by
  have hratio : ∀ k < 309, (powerOfTen k).ratio.2 ≤ (powerOfTen k).ratio.1 := by decide +kernel
  rw [← ratio_eq, one_le_div (by exact_mod_cast ratio_pos _)]
  exact_mod_cast hratio n (Nat.lt_succ_of_le hn)

theorem isSome_times? {a b : Binary} {k : Nat} (hk : k ≤ 1022) (h : a.value * b.value < 2 ^ k) :
    (times? a b).isSome = true := by
  have ha := a.ratio_pos
  have hb := b.ratio_pos
  refine Format.isSome_round? hk ?_
  rw [← ratio_eq, ← ratio_eq, div_mul_div_comm, div_lt_iff₀ (by positivity)] at h
  rw [Nat.mul_comm _ (2 ^ k)]
  exact_mod_cast h

theorem isSome_over? {a b : Binary} {k : Nat} (hk : k ≤ 1022) (hb : 0 < b.value)
    (h : a.value / b.value < 2 ^ k) : (over? a b).isSome = true := by
  have ha := a.ratio_pos
  have hb' := b.ratio_pos
  refine Format.isSome_round? hk ?_
  rw [← ratio_eq] at hb
  have hnum : 0 < b.ratio.1 := by
    by_contra hzero
    simp [Nat.eq_zero_of_not_pos hzero] at hb
  rw [← ratio_eq, ← ratio_eq, div_div_div_eq, div_lt_iff₀ (by positivity)] at h
  rw [Nat.mul_comm _ (2 ^ k)]
  exact_mod_cast h

/-- A significand of 64 bits times a power of ten that is far from both ends of the 64-bit
format. -/
theorem isSome_scale? {significand : Nat} {exponent : Int} (hs : significand < limit)
    (hlow : -300 ≤ exponent) (hhigh : exponent ≤ 200) :
    (scale? significand exponent).isSome = true := by
  have hround : (Format.double.round? significand 1).isSome = true := by
    refine Format.isSome_round? (k := 64) (by omega) ?_
    rw [Nat.one_mul]
    exact hs
  obtain ⟨a, ha⟩ := Option.isSome_iff_exists.mp hround
  have hvalue : a.value < 2 ^ 65 := by
    have hle := Format.value_round?_le one_pos ha
    have hlt : (significand : ℚ) < 2 ^ 64 := by exact_mod_cast hs
    rw [Nat.cast_one, div_one] at hle
    linarith
  simp only [scale?, ha, Option.bind_eq_bind, Option.bind_some]
  split_ifs with hsign
  · have hten : (powerOfTen exponent.toNat).value ≤ 2 ^ 801 := by
      calc (powerOfTen exponent.toNat).value
          ≤ 2 * 10 ^ exponent.toNat := powerOfTen_le _
        _ ≤ 2 * (2 ^ 4) ^ exponent.toNat := by gcongr; norm_num
        _ = 2 ^ (1 + 4 * exponent.toNat) := by rw [← pow_mul, pow_add, pow_one]
        _ ≤ 2 ^ 801 := pow_le_pow_right₀ one_le_two (by omega)
    rw [scaleUp?, if_pos (by omega)]
    refine isSome_times? (k := 65 + 801) (by omega) ?_
    rw [pow_add]
    exact mul_lt_mul_of_lt_of_le_of_nonneg_of_pos hvalue hten a.value_nonneg (by positivity)
  · have hten := one_le_powerOfTen (n := (-exponent).toNat) (by omega)
    rw [scaleDown?, if_pos (by omega)]
    exact isSome_over? (k := 65) (by omega) (one_pos.trans_le hten)
      ((div_le_self a.value_nonneg hten).trans_lt hvalue)

end Numeral

/-! ## Shortest decimals -/

namespace Decimal

theorem scaled_pos (n : Nat) (e : Int) : 0 < (scaled n e).2 := by
  unfold scaled
  split_ifs
  · exact one_pos
  · exact Nat.pow_pos (by decide)

theorem scaled_eq (n : Nat) (e : Int) : ((scaled n e).1 : ℚ) / (scaled n e).2 = n * 10 ^ e := by
  unfold scaled
  split_ifs with h
  · simp [← zpow_natCast, Int.toNat_of_nonneg h]
  · have hexponent : ((-e).toNat : ℤ) = -e := Int.toNat_of_nonneg (by omega)
    simp [← zpow_natCast, hexponent, div_eq_mul_inv]

variable {n d : Nat}

theorem scaled_le_iff (hd : 0 < d) (e : Int) :
    d * (scaled 1 e).1 ≤ n * (scaled 1 e).2 ↔ (10 : ℚ) ^ e ≤ n / d := by
  have hunit := scaled_eq 1 e
  have hpos : (0 : ℚ) < (scaled 1 e).2 := by exact_mod_cast scaled_pos 1 e
  have hd' : (0 : ℚ) < d := by exact_mod_cast hd
  rw [Nat.cast_one, one_mul] at hunit
  rw [← hunit, div_le_div_iff₀ hpos hd', mul_comm d]
  norm_cast

theorem gridFloor_eq (n d : Nat) (e : Int) : gridFloor n d e = ⌊(n : ℚ) / d / 10 ^ e⌋₊ := by
  have hunit := scaled_eq 1 e
  rw [Nat.cast_one, one_mul] at hunit
  show n * (scaled 1 e).2 / (d * (scaled 1 e).1) = _
  rw [← Nat.floor_div_eq_div (K := ℚ), ← hunit, div_div_div_eq]
  push_cast
  rfl

/-- The first digit of a number stands at an exponent. -/
structure Leads (v : ℚ) (e : Int) : Prop where
  le : (10 : ℚ) ^ e ≤ v
  lt : v < 10 ^ (e + 1)

theorem leads_leadingExponent (hd : 0 < d) (fuel : Nat) (e : Int)
    (hlow : (10 : ℚ) ^ (e - fuel) ≤ n / d) (hhigh : (n / d : ℚ) < 10 ^ (e + 1)) :
    Leads (n / d) (leadingExponent n d fuel e) ∧
      e - fuel ≤ leadingExponent n d fuel e ∧ leadingExponent n d fuel e ≤ e := by
  induction fuel generalizing e with
  | zero =>
    rw [leadingExponent]
    simp only [Nat.cast_zero, sub_zero] at hlow ⊢
    exact ⟨⟨hlow, hhigh⟩, le_rfl, le_rfl⟩
  | succ fuel ih =>
    rw [leadingExponent]
    simp only [scaled_le_iff hd]
    split_ifs with h
    · exact ⟨⟨h, hhigh⟩, by omega, le_rfl⟩
    · -- the power that was too large bounds the number at the next place
      have hnext := ih (e - 1) (by rwa [sub_sub, add_comm, ← Nat.cast_succ])
        (by rwa [sub_add_cancel, ← not_le])
      refine ⟨hnext.1, ?_, ?_⟩ <;> omega

/-- Digits of a number that are not all zero and not too many, at an exponent in a range. -/
structure Bounded (low high : Int) (d : Decimal) : Prop where
  pos : 0 < d.digits
  le : d.digits ≤ 10 ^ 10
  low_le : low ≤ d.exponent
  le_high : d.exponent ≤ high

theorem hit?_mem {i : Interval} {e : Int} {k : Nat} (h : i.hit? e = some k) :
    gridFloor i.value i.unit e ≤ k ∧ k ≤ gridFloor i.value i.unit e + 1 := by
  have hparity : gridFloor i.value i.unit e % 2 ≤ 1 := Nat.le_of_lt_succ (Nat.mod_lt _ two_pos)
  rw [Interval.hit?] at h
  split at h
  · cases h; omega
  · cases h; omega
  · cases h
  · split at h <;> cases h <;> omega

theorem gridFloor_bounded {e r : Int} (hlead : Leads (n / d) r) (hle : e ≤ r) (hge : r - 9 ≤ e) :
    0 < gridFloor n d e ∧ gridFloor n d e + 1 ≤ 10 ^ 10 := by
  have hpos : (0 : ℚ) < 10 ^ e := by positivity
  rw [gridFloor_eq]
  constructor
  · rw [Nat.floor_pos, one_le_div hpos]
    exact (zpow_le_zpow_right₀ (by norm_num) hle).trans hlead.le
  · rw [Nat.add_one_le_iff, Nat.floor_lt (div_nonneg (by positivity) hpos.le), div_lt_iff₀ hpos]
    calc (n / d : ℚ) < 10 ^ (r + 1) := hlead.lt
      _ ≤ 10 ^ ((10 : Int) + e) := zpow_le_zpow_right₀ (by norm_num) (by omega)
      _ = _ := by rw [zpow_add₀ (by norm_num)]; norm_num

theorem bounded_search {i : Interval} {r : Int} (hlead : Leads (i.value / i.unit) r) (fuel : Nat)
    (e : Int) (hle : e ≤ r) (hge : r - 9 ≤ e - fuel) : (search i fuel e).Bounded (e - fuel) e := by
  induction fuel generalizing e with
  | zero =>
    have hgrid := gridFloor_bounded hlead hle (by omega)
    exact ⟨hgrid.1, by simp only [search]; omega, by simp [search], le_rfl⟩
  | succ fuel ih =>
    have hgrid := gridFloor_bounded hlead hle (by omega)
    rw [search]
    split
    · rename_i k hk
      have hmem := hit?_mem hk
      exact ⟨by simp only; omega, by simp only; omega, by simp only; omega, le_rfl⟩
    · have hnext := ih (e - 1) (by omega) (by omega)
      exact ⟨hnext.pos, hnext.le, by have := hnext.low_le; omega, by have := hnext.le_high; omega⟩

theorem Bounded.trim {low high : Int} {x : Decimal} (h : x.Bounded low high) (fuel : Nat) :
    (trim fuel x).Bounded low (high + fuel) := by
  induction fuel generalizing x high with
  | zero => simpa [Decimal.trim] using h
  | succ fuel ih =>
    rw [Decimal.trim]
    have hpos := h.pos
    have hle := h.le
    have hlow := h.low_le
    have hhigh := h.le_high
    split_ifs with hzero
    · have hcut : Bounded low (high + 1) ⟨x.digits / 10, x.exponent + 1⟩ :=
        ⟨by simp only; omega, by simp only; omega, by simp only; omega, by simp only; omega⟩
      have hnext := ih hcut
      rwa [add_assoc, add_comm 1, ← Nat.cast_succ] at hnext
    · exact ⟨hpos, hle, hlow, by omega⟩

theorem Interval.unit_pos (b : Binary) : 0 < (Interval.ofBinary b).unit := by
  simp only [Interval.ofBinary]
  split_ifs
  · exact one_pos
  · exact Nat.pow_pos two_pos

theorem Interval.value_ofBinary (b : Binary) :
    ((Interval.ofBinary b).value : ℚ) / (Interval.ofBinary b).unit = b.value := by
  have hquarter : (2 : ℚ) ^ b.exponent = 4 * 2 ^ (b.exponent - 2) := by
    rw [show (4 : ℚ) = 2 ^ (2 : ℤ) by norm_num, ← zpow_add₀ two_ne_zero, add_sub_cancel]
  rw [Binary.value, hquarter]
  simp only [Interval.ofBinary]
  split_ifs with h
  · have hexponent : ((b.exponent - 2).toNat : ℤ) = b.exponent - 2 := Int.toNat_of_nonneg h
    push_cast [Nat.pow_eq, ← zpow_natCast, hexponent]
    ring
  · have hexponent : ((-(b.exponent - 2)).toNat : ℤ) = -(b.exponent - 2) :=
      Int.toNat_of_nonneg (by omega)
    push_cast [Nat.pow_eq, ← zpow_natCast, hexponent, zpow_neg, div_inv_eq_mul]
    ring

/-- The shortest decimal of a number of the 32-bit format. -/
theorem bounded_shortest {b : Binary} (hpos : 0 < b.mantissa) (hlt : b.mantissa < 2 ^ 24)
    (hlow : -149 ≤ b.exponent) (hhigh : b.exponent ≤ 104) : (shortest b).Bounded (-60) 49 := by
  have hpower : (2 : ℚ) ^ (-149 : ℤ) ≤ 2 ^ b.exponent := zpow_le_zpow_right₀ one_le_two hlow
  have hsmall : (10 : ℚ) ^ ((39 : ℤ) - (90 : ℕ)) ≤ b.value := by
    have hone : (1 : ℚ) ≤ b.mantissa := by exact_mod_cast hpos
    calc (10 : ℚ) ^ ((39 : ℤ) - (90 : ℕ)) ≤ 1 * 2 ^ (-149 : ℤ) := by norm_num
      _ ≤ b.value := by unfold Binary.value; gcongr
  have hlarge : b.value < 10 ^ ((39 : ℤ) + 1) := by
    have hmantissa : (b.mantissa : ℚ) < 2 ^ 24 := by exact_mod_cast hlt
    calc b.value < 2 ^ 24 * 2 ^ b.exponent := by unfold Binary.value; gcongr
      _ ≤ 2 ^ 24 * 2 ^ (104 : ℤ) := by gcongr; exact one_le_two
      _ ≤ 10 ^ ((39 : ℤ) + 1) := by norm_num
  -- ninety places from `10 ^ 39` down are enough to meet the first digit
  rw [← Interval.value_ofBinary] at hsmall hlarge
  obtain ⟨hlead, hge, hle⟩ := leads_leadingExponent (Interval.unit_pos b) 90 39 hsmall hlarge
  have hsearch := (bounded_search hlead 9 _ le_rfl (by omega)).trim 10
  refine ⟨hsearch.pos, hsearch.le, le_trans ?_ hsearch.low_le, hsearch.le_high.trans ?_⟩ <;> omega

end Decimal

/-! ## Single-precision numbers -/

namespace Single

theorem fraction_lt (x : Single) : x.fraction < 2 ^ 23 := by
  rw [fraction, UInt32.toNat_and]
  exact Nat.and_lt_two_pow _ (by decide)

theorem biased_lt (x : Single) : x.biased < 2 ^ 8 := by
  rw [biased, UInt32.toNat_and]
  exact Nat.and_lt_two_pow _ (by decide)

theorem bounded_shortest {x : Single} (hfinite : x.isFinite = true)
    (hpos : 0 < x.magnitude.mantissa) : (Decimal.shortest x.magnitude).Bounded (-60) 49 := by
  have hfraction := x.fraction_lt
  have hbiased := x.biased_lt
  have hne : x.biased ≠ 255 := by simpa [isFinite] using hfinite
  refine Decimal.bounded_shortest hpos ?_ ?_ ?_ <;>
    (unfold magnitude; split_ifs <;> simp only <;> omega)

end Single
end Texel
