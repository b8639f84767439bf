import FilterChain.Number.Binary64
import Mathlib.Algebra.Order.Field.Power
import Mathlib.Data.Rat.Cast.Order
import Mathlib.Tactic.Linarith
import Mathlib.Tactic.Ring

/-!
# Which numbers are too large

A ratio or a decimal has a nearest binary number exactly if it lies below the point half a unit
beyond the largest one. The point itself is out, since the tie would go to the even significand.
-/

namespace FilterChain

theorem div_le_roundDiv (num den : Nat) : num / den ≤ roundDiv num den := by
  simp only [roundDiv]
  split
  · exact Nat.le_refl _
  · split
    · exact Nat.le_succ _
    · split
      · exact Nat.le_refl _
      · exact Nat.le_succ _

theorem roundDiv_le_div_add_one (num den : Nat) : roundDiv num den ≤ num / den + 1 := by
  simp only [roundDiv]
  split
  · exact Nat.le_succ _
  · split
    · exact Nat.le_refl _
    · split
      · exact Nat.le_succ _
      · exact Nat.le_refl _

/-- A quotient rounds to an odd number or less exactly if it lies below the tie above that. -/
theorem roundDiv_le_iff_of_odd {num den c : Nat} (hden : 0 < den) (hc : c % 2 = 1) :
    roundDiv num den ≤ c ↔ 2 * num < (2 * c + 1) * den := by
  have hsum := Nat.div_add_mod num den
  have hlt := Nat.mod_lt num hden
  have htie : (2 * c + 1) * den = 2 * (den * c) + den := by ring
  rcases Nat.lt_trichotomy (num / den) c with hq | hq | hq
  · have hround := roundDiv_le_div_add_one num den
    have hmul : den * (num / den) + den ≤ den * c := Nat.mul_le_mul_left den hq
    constructor
    · intro _
      omega
    · intro _
      omega
  · rw [hq] at hsum
    simp only [roundDiv, hq, hc, Nat.one_ne_zero, if_false]
    constructor
    · intro h
      by_contra hge
      rw [if_neg (by omega)] at h
      split at h <;> omega
    · intro h
      rw [if_pos (by omega)]
  · have hround := div_le_roundDiv num den
    have hmul : den * c + den ≤ den * (num / den) := Nat.mul_le_mul_left den hq
    constructor
    · intro _
      omega
    · intro _
      omega

theorem zpow_mul_pow_toNat_neg {b : ℚ} (hb : b ≠ 0) (e : ℤ) :
    b ^ e * b ^ (-e).toNat = b ^ e.toNat := by
  rw [← zpow_natCast, ← zpow_natCast, ← zpow_add₀ hb]
  congr 1
  omega

theorem cast_scaled_div {b : Nat} (hb : 0 < b) (num den : Nat) (e : ℤ) :
    ((num * Nat.pow b (-e).toNat : Nat) : ℚ) / (den * Nat.pow b e.toNat : Nat) =
      num / den / (b : ℚ) ^ e := by
  have hb' : (b : ℚ) ≠ 0 := Nat.cast_ne_zero.mpr hb.ne'
  push_cast [Nat.pow_eq]
  rw [← zpow_mul_pow_toNat_neg hb' e, div_div, ← mul_assoc,
    mul_div_mul_right _ _ (pow_ne_zero _ hb')]

theorem cast_decimal_div (digits : Nat) (e : ℤ) :
    ((digits * Nat.pow 10 e.toNat : Nat) : ℚ) / (Nat.pow 10 (-e).toNat : Nat) =
      digits * 10 ^ e := by
  have hscaled := cast_scaled_div (by decide : 0 < 10) digits 1 (-e)
  rw [neg_neg, Nat.one_mul, Nat.cast_one, div_one, zpow_neg, div_inv_eq_mul] at hscaled
  exact_mod_cast hscaled

theorem mul_le_scaled_iff {num den : Nat} (hden : 0 < den) (c : Nat) (e : ℤ) :
    c * (den * 2 ^ e.toNat) ≤ num * 2 ^ (-e).toNat ↔ (c : ℚ) * 2 ^ e ≤ num / den := by
  have hden' : (0 : ℚ) < den := Nat.cast_pos.mpr hden
  have hpow : (0 : ℚ) < 2 ^ (-e).toNat := by positivity
  have hscale := zpow_mul_pow_toNat_neg (two_ne_zero : (2 : ℚ) ≠ 0) e
  rw [le_div_iff₀ hden', ← mul_le_mul_iff_left₀ hpow, ← Nat.cast_le (α := ℚ)]
  push_cast
  rw [← hscale]
  constructor
  · intro h
    linarith
  · intro h
    linarith

namespace Binary64

theorem log2_spec {n : Nat} (h : 0 < n) :
    (2 : ℚ) ^ (n.log2 : ℤ) ≤ n ∧ (n : ℚ) < 2 ^ ((n.log2 : ℤ) + 1) := by
  have hle := Nat.log2_self_le (Nat.pos_iff_ne_zero.mp h)
  have hlt := Nat.lt_log2_self (n := n)
  constructor
  · rw [zpow_natCast]
    exact_mod_cast hle
  · rw [← Nat.cast_succ, zpow_natCast]
    exact_mod_cast hlt

theorem ratioLog2_spec {num den : Nat} (hnum : 0 < num) (hden : 0 < den) :
    (2 : ℚ) ^ ratioLog2 num den ≤ num / den ∧ (num : ℚ) / den < 2 ^ (ratioLog2 num den + 1) := by
  have hden' : (0 : ℚ) < den := Nat.cast_pos.mpr hden
  obtain ⟨hnumLow, hnumHigh⟩ := log2_spec hnum
  obtain ⟨hdenLow, hdenHigh⟩ := log2_spec hden
  -- The logarithms alone leave two candidates, and the test picks the right one.
  have hbelow : (2 : ℚ) ^ ((num.log2 : ℤ) - den.log2 - 1) ≤ num / den := by
    rw [le_div_iff₀ hden']
    calc (2 : ℚ) ^ ((num.log2 : ℤ) - den.log2 - 1) * den
        ≤ 2 ^ ((num.log2 : ℤ) - den.log2 - 1) * 2 ^ ((den.log2 : ℤ) + 1) := by gcongr
      _ = 2 ^ (num.log2 : ℤ) := by
        rw [← zpow_add₀ two_ne_zero]
        congr 1
        ring
      _ ≤ num := hnumLow
  have habove : (num : ℚ) / den < 2 ^ ((num.log2 : ℤ) - den.log2 + 1) := by
    rw [div_lt_iff₀ hden']
    calc (num : ℚ) < 2 ^ ((num.log2 : ℤ) + 1) := hnumHigh
      _ = 2 ^ ((num.log2 : ℤ) - den.log2 + 1) * 2 ^ (den.log2 : ℤ) := by
        rw [← zpow_add₀ two_ne_zero]
        congr 1
        ring
      _ ≤ 2 ^ ((num.log2 : ℤ) - den.log2 + 1) * den := by gcongr
  have htest : den * 2 ^ ((num.log2 : ℤ) - den.log2).toNat ≤
      num * 2 ^ (-((num.log2 : ℤ) - den.log2)).toNat ↔
        (2 : ℚ) ^ ((num.log2 : ℤ) - den.log2) ≤ num / den := by
    simpa using mul_le_scaled_iff hden 1 ((num.log2 : ℤ) - den.log2)
  simp only [ratioLog2, Nat.pow_eq]
  split
  · next h => exact ⟨htest.mp h, habove⟩
  · next h =>
    refine ⟨hbelow, ?_⟩
    rw [sub_add_cancel]
    exact not_le.mp (mt htest.mpr h)

/-- The exponent of a ratio before its significand is rounded. -/
def leastExponent (num den : Nat) : ℤ :=
  max (-1074) (ratioLog2 num den - 52)

def unitsOfRatio (num den : Nat) (e : ℤ) : Nat :=
  roundDiv (num * Nat.pow 2 (-e).toNat) (den * Nat.pow 2 e.toNat)

theorem unitsOfRatio_le {num den : Nat} (hnum : 0 < num) (hden : 0 < den) :
    unitsOfRatio num den (leastExponent num den) ≤ 0x20000000000000 := by
  have hexponent : ratioLog2 num den - 52 ≤ leastExponent num den := le_max_right _ _
  generalize leastExponent num den = e at hexponent
  have hratio : (num : ℚ) / den < (0x20000000000000 : Nat) * 2 ^ e := by
    calc (num : ℚ) / den < 2 ^ (ratioLog2 num den + 1) := (ratioLog2_spec hnum hden).2
      _ ≤ 2 ^ (53 + e) := zpow_le_zpow_right₀ one_le_two (by omega)
      _ = (0x20000000000000 : Nat) * 2 ^ e := by
        rw [zpow_add₀ two_ne_zero]
        norm_num
  have hlt := not_le.mp (mt (mul_le_scaled_iff hden _ e).mp (not_le.mpr hratio))
  have hpos : 0 < den * 2 ^ e.toNat := by positivity
  have hdiv := (Nat.div_lt_iff_lt_mul hpos).mpr hlt
  exact (roundDiv_le_div_add_one _ _).trans hdiv

theorem le_unitsOfRatio {num den : Nat} (hnum : 0 < num) (hden : 0 < den)
    (h : leastExponent num den ≠ -1074) :
    0x10000000000000 ≤ unitsOfRatio num den (leastExponent num den) := by
  have hexponent : leastExponent num den = ratioLog2 num den - 52 := by
    simp only [leastExponent] at h ⊢
    omega
  generalize leastExponent num den = e at hexponent
  have hratio : ((0x10000000000000 : Nat) : ℚ) * 2 ^ e ≤ num / den := by
    calc ((0x10000000000000 : Nat) : ℚ) * 2 ^ e = 2 ^ (52 + e) := by
          rw [zpow_add₀ two_ne_zero]
          norm_num
      _ = 2 ^ ratioLog2 num den := by rw [hexponent, add_sub_cancel]
      _ ≤ num / den := (ratioLog2_spec hnum hden).1
  have hle := (mul_le_scaled_iff hden _ e).mpr hratio
  have hpos : 0 < den * 2 ^ e.toNat := by positivity
  exact ((Nat.le_div_iff_mul_le hpos).mpr hle).trans (div_le_roundDiv _ _)

/-- A ratio has a nearest number if its exponent is not too large, also after rounding. -/
theorem isSome_ofRatio?_iff_exponent {num den : Nat} (hnum : 0 < num) (hden : 0 < den)
    (negative : Bool) :
    (ofRatio? negative num den).isSome = true ↔
      leastExponent num den < 971 ∨ leastExponent num den = 971 ∧
        unitsOfRatio num den (leastExponent num den) ≤ 0x1FFFFFFFFFFFFF := by
  have hle := unitsOfRatio_le hnum hden
  have hge := le_unitsOfRatio hnum hden
  have hmin : -1074 ≤ leastExponent num den := le_max_left _ _
  have hne : num ≠ 0 := Nat.pos_iff_ne_zero.mp hnum
  simp only [ofRatio?, if_neg hne]
  rw [← leastExponent, ← unitsOfRatio]
  generalize leastExponent num den = e at hle hge hmin
  generalize unitsOfRatio num den e = m at hle hge
  by_cases hm : m = 0x20000000000000
  · simp only [if_pos hm]
    split
    · next h =>
      simp only [Option.isSome_some, true_iff]
      omega
    · next h =>
      simp only [Option.isSome_none, Bool.false_eq_true, false_iff]
      omega
  · simp only [if_neg hm]
    split
    · next h =>
      simp only [Option.isSome_some, true_iff]
      omega
    · next h =>
      simp only [Option.isSome_none, Bool.false_eq_true, false_iff]
      omega

/-- The point half a unit beyond the largest number. -/
def overflow : Nat :=
  0x3FFFFFFFFFFFFF * 2 ^ 970

theorem two_zpow_le_overflow : (2 : ℚ) ^ (1023 : ℤ) ≤ overflow := by
  have h : 2 ^ 1023 ≤ overflow := by decide +kernel
  exact_mod_cast h

theorem overflow_le_two_zpow : (overflow : ℚ) ≤ 2 ^ (1024 : ℤ) := by
  have h : overflow ≤ 2 ^ 1024 := by decide +kernel
  exact_mod_cast h

theorem lt_overflow_mul_iff {den : Nat} (hden : 0 < den) (num : Nat) :
    num < overflow * den ↔ (num : ℚ) / den < overflow := by
  rw [div_lt_iff₀ (Nat.cast_pos.mpr hden)]
  exact_mod_cast Iff.rfl

theorem unitsOfRatio_natCast (num den k : Nat) :
    unitsOfRatio num den k = roundDiv num (den * 2 ^ k) := by
  simp [unitsOfRatio]

theorem unitsOfRatio_le_iff_lt_overflow {den : Nat} (hden : 0 < den) (num : Nat) :
    unitsOfRatio num den (971 : Nat) ≤ 0x1FFFFFFFFFFFFF ↔ num < overflow * den := by
  have hpos : 0 < den * 2 ^ 971 := by positivity
  have hpow : 2 ^ 971 = 2 * 2 ^ 970 := by decide +kernel
  have hunit : den * 2 ^ 971 = 2 * (2 ^ 970 * den) := by
    rw [hpow, Nat.mul_comm, Nat.mul_assoc]
  rw [unitsOfRatio_natCast, roundDiv_le_iff_of_odd hpos rfl, hunit, overflow, Nat.mul_assoc]
  generalize 2 ^ 970 * den = half
  omega

theorem isSome_ofRatio?_iff {den : Nat} (hden : 0 < den) (negative : Bool) (num : Nat) :
    (ofRatio? negative num den).isSome = true ↔ num < overflow * den := by
  rcases Nat.eq_zero_or_pos num with rfl | hnum
  · have hpos : 0 < overflow * den := Nat.mul_pos (by decide +kernel) hden
    simp [ofRatio?, hpos]
  obtain ⟨hlow, hhigh⟩ := ratioLog2_spec hnum hden
  have hexponent : leastExponent num den = max (-1074) (ratioLog2 num den - 52) := rfl
  rw [isSome_ofRatio?_iff_exponent hnum hden]
  rcases lt_trichotomy (leastExponent num den) 971 with hlt | heq | hgt
  · rw [lt_overflow_mul_iff hden]
    have hratio : (num : ℚ) / den < overflow := by
      calc (num : ℚ) / den < 2 ^ (ratioLog2 num den + 1) := hhigh
        _ ≤ 2 ^ (1023 : ℤ) := zpow_le_zpow_right₀ one_le_two (by omega)
        _ ≤ overflow := two_zpow_le_overflow
    exact iff_of_true (Or.inl hlt) hratio
  · have hunits := unitsOfRatio_le_iff_lt_overflow hden num
    rw [Nat.cast_ofNat] at hunits
    rw [heq, hunits]
    simp
  · rw [lt_overflow_mul_iff hden]
    have hratio : (overflow : ℚ) ≤ num / den := by
      calc (overflow : ℚ) ≤ 2 ^ (1024 : ℤ) := overflow_le_two_zpow
        _ ≤ 2 ^ ratioLog2 num den := zpow_le_zpow_right₀ one_le_two (by omega)
        _ ≤ num / den := hlow
    refine iff_of_false ?_ (not_lt.mpr hratio)
    rintro (hlt | ⟨heq, _⟩)
    · exact absurd hlt (by omega)
    · exact absurd heq (by omega)

theorem isSome_ofInt?_of_lt {n : ℤ} (h : n.natAbs < overflow) : (ofInt? n).isSome = true := by
  rw [ofInt?, isSome_ofRatio?_iff Nat.one_pos, Nat.mul_one]
  exact h

theorem lt_pow_digitCount (n : Nat) : n < 10 ^ digitCount n :=
  (Nat.length_toDigits_le_iff (by decide) Nat.length_toDigits_pos).mp (Nat.le_refl _)

theorem pow_pred_digitCount_le {n : Nat} (h : n ≠ 0) : 10 ^ (digitCount n - 1) ≤ n := by
  by_contra hlt
  rcases Nat.eq_zero_or_pos (digitCount n - 1) with hzero | hpos
  · rw [hzero] at hlt
    omega
  · have hle := (Nat.length_toDigits_le_iff (by decide) hpos).mpr (not_le.mp hlt)
    rw [← digitCount] at hle
    omega

theorem overflow_le_ten_zpow : (overflow : ℚ) ≤ 10 ^ (310 : ℤ) := by
  have h : overflow ≤ 10 ^ 310 := by decide +kernel
  exact_mod_cast h

theorem one_lt_overflow : (1 : ℚ) < overflow := by
  have h : 1 < overflow := by decide +kernel
  exact_mod_cast h

theorem decimal_bounds {digits : Nat} (h : digits ≠ 0) (exponent : ℤ) :
    (10 : ℚ) ^ (digitCount digits + exponent - 1) ≤ digits * 10 ^ exponent ∧
      (digits : ℚ) * 10 ^ exponent < 10 ^ (digitCount digits + exponent) := by
  have hcount : 0 < digitCount digits := Nat.length_toDigits_pos
  have hlow : (10 : ℚ) ^ ((digitCount digits : ℤ) - 1) ≤ digits := by
    rw [← Nat.cast_pred hcount, zpow_natCast]
    exact_mod_cast pow_pred_digitCount_le h
  have hhigh : (digits : ℚ) < 10 ^ (digitCount digits : ℤ) := by
    rw [zpow_natCast]
    exact_mod_cast lt_pow_digitCount digits
  constructor
  · rw [add_sub_right_comm, zpow_add₀ (by norm_num)]
    gcongr
  · rw [zpow_add₀ (by norm_num)]
    gcongr

/-- A decimal has a nearest number exactly if it lies below the point of overflow. -/
theorem isSome_ofDecimal?_iff (negative : Bool) (digits : Nat) (exponent : ℤ) :
    (ofDecimal? negative digits exponent).isSome = true ↔
      (digits : ℚ) * 10 ^ exponent < overflow := by
  unfold ofDecimal?
  dsimp only
  split
  · next hsmall =>
    refine iff_of_true rfl ?_
    by_cases hzero : digits = 0
    · rw [hzero, Nat.cast_zero, zero_mul]
      exact zero_lt_one.trans one_lt_overflow
    · have htop := hsmall.resolve_left hzero
      calc (digits : ℚ) * 10 ^ exponent < 10 ^ (digitCount digits + exponent) :=
            (decimal_bounds hzero exponent).2
        _ ≤ 10 ^ (0 : ℤ) := zpow_le_zpow_right₀ (by norm_num) (by omega)
        _ = 1 := zpow_zero _
        _ < overflow := one_lt_overflow
  · next hlarge =>
    obtain ⟨hzero, _⟩ := not_or.mp hlarge
    split
    · next htop =>
      refine iff_of_false (by simp) (not_lt.mpr ?_)
      calc (overflow : ℚ) ≤ 10 ^ (310 : ℤ) := overflow_le_ten_zpow
        _ ≤ 10 ^ (digitCount digits + exponent - 1) :=
          zpow_le_zpow_right₀ (by norm_num) (by omega)
        _ ≤ digits * 10 ^ exponent := (decimal_bounds hzero exponent).1
    · have hden : 0 < Nat.pow 10 (-exponent).toNat := Nat.pow_pos (by decide)
      rw [isSome_ofRatio?_iff hden, lt_overflow_mul_iff hden, cast_decimal_div]

end Binary64

end FilterChain
