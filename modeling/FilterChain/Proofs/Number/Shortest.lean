import FilterChain.Number.Shortest
import FilterChain.Proofs.Number.Conversion
import FilterChain.Proofs.Number.Digits

/-!
# The shortest decimal of a number

The search goes through ever finer grids of decimals. It stops at a decimal that the number
attracts, since no more than 17 digits are needed for that, and this decimal lies between the same
powers of ten as the number.
-/

namespace FilterChain.Binary64

variable {x : Binary64} {digits : Nat} {exponent power : ℤ}

theorem attracts_iff {r : ℚ} : x.Attracts r ↔
    if x.significand % 2 = 0 then x.size - x.gapBelow / 2 ≤ r ∧ r ≤ x.size + x.gapAbove / 2
    else x.size - x.gapBelow / 2 < r ∧ r < x.size + x.gapAbove / 2 := by
  constructor
  · intro h
    split
    · exact ⟨h.low, h.high⟩
    · next hodd =>
      exact ⟨lt_of_le_of_ne h.low fun heq => hodd (h.even_of_low heq.symm),
        lt_of_le_of_ne h.high fun heq => hodd (h.even_of_high heq)⟩
  · split
    · next heven =>
      rintro ⟨hlow, hhigh⟩
      exact ⟨hlow, hhigh, fun _ => heven, fun _ => heven⟩
    · rintro ⟨hlow, hhigh⟩
      exact ⟨hlow.le, hhigh.le, fun heq => absurd heq hlow.ne', fun heq => absurd heq hhigh.ne⟩

theorem cast_scaled (a digits : Nat) (q exponent : ℤ) :
    ∃ factor : ℚ, 0 < factor ∧
      ((a * (Nat.pow 10 (-exponent).toNat * Nat.pow 2 q.toNat) : Nat) : ℚ) =
        a * 2 ^ q * factor ∧
      ((digits * Nat.pow 10 exponent.toNat * Nat.pow 2 (-q).toNat : Nat) : ℚ) =
        digits * 10 ^ exponent * factor := by
  refine ⟨10 ^ (-exponent).toNat * 2 ^ (-q).toNat, by positivity, ?_, ?_⟩
  · push_cast [Nat.pow_eq]
    rw [← zpow_mul_pow_toNat_neg two_ne_zero q]
    ring
  · push_cast [Nat.pow_eq]
    rw [← zpow_mul_pow_toNat_neg (by norm_num : (10 : ℚ) ≠ 0) exponent]
    ring

theorem scaled_le_iff (a digits : Nat) (q exponent : ℤ) :
    (a * (Nat.pow 10 (-exponent).toNat * Nat.pow 2 q.toNat) ≤
        digits * Nat.pow 10 exponent.toNat * Nat.pow 2 (-q).toNat ↔
      (a : ℚ) * 2 ^ q ≤ digits * 10 ^ exponent) ∧
    (digits * Nat.pow 10 exponent.toNat * Nat.pow 2 (-q).toNat ≤
        a * (Nat.pow 10 (-exponent).toNat * Nat.pow 2 q.toNat) ↔
      (digits : ℚ) * 10 ^ exponent ≤ a * 2 ^ q) := by
  obtain ⟨factor, hfactor, ha, hdigits⟩ := cast_scaled a digits q exponent
  rw [← Nat.cast_le (α := ℚ), ← Nat.cast_le (α := ℚ), ha, hdigits, mul_le_mul_iff_left₀ hfactor,
    mul_le_mul_iff_left₀ hfactor]
  exact ⟨Iff.rfl, Iff.rfl⟩

/-- The two ends of what a number attracts, in quarters of its last place. -/
theorem ends_eq (hx : x.significand ≠ 0) :
    ((4 * x.significand -
          (if x.significand = 0x10000000000000 ∧ -1074 < x.exponent then 1 else 2) : Nat) : ℚ) *
        2 ^ (x.exponent - 2) = x.size - x.gapBelow / 2 ∧
      ((4 * x.significand + 2 : Nat) : ℚ) * 2 ^ (x.exponent - 2) = x.size + x.gapAbove / 2 := by
  have hunit : (2 : ℚ) ^ x.exponent = 2 ^ (x.exponent - 2) * 4 := by
    rw [← sub_add_cancel x.exponent 2, zpow_add₀ two_ne_zero, add_sub_cancel_right]
    norm_num
  have hhalf : (2 : ℚ) ^ (x.exponent - 1) = 2 ^ (x.exponent - 2) * 2 := by
    rw [← zpow_add_one₀ two_ne_zero]
    congr 1
    ring
  rw [size, gapAbove, gapBelow]
  constructor
  · split
    · rw [Nat.cast_sub (by omega), hhalf, hunit]
      push_cast
      ring
    · rw [Nat.cast_sub (by omega), hunit]
      push_cast
      ring
  · rw [hunit]
    push_cast
    ring

theorem covers_eq_true_iff (hx : x.significand ≠ 0) :
    x.covers digits exponent = true ↔ x.Attracts (digits * 10 ^ exponent) := by
  obtain ⟨hlow, hhigh⟩ := ends_eq hx
  rw [attracts_iff, ← hlow, ← hhigh, covers]
  generalize 4 * x.significand - _ = low
  obtain ⟨hlow, hlow'⟩ := scaled_le_iff low digits (x.exponent - 2) exponent
  obtain ⟨hhigh', hhigh⟩ :=
    scaled_le_iff (4 * x.significand + 2) digits (x.exponent - 2) exponent
  split
  · rw [Bool.and_eq_true, decide_eq_true_eq, decide_eq_true_eq, hlow, hhigh]
  · rw [Bool.and_eq_true, decide_eq_true_eq, decide_eq_true_eq, ← not_le, ← not_le, hlow', hhigh',
      not_le, not_le]

def gridPoint (x : Binary64) (exponent : ℤ) : Nat :=
  x.numerator * Nat.pow 10 (-exponent).toNat / (x.denominator * Nat.pow 10 exponent.toNat)

theorem gridPoint_bounds (x : Binary64) (exponent : ℤ) :
    x.gridPoint exponent * 10 ^ exponent ≤ x.size ∧
      x.size < (x.gridPoint exponent + 1) * 10 ^ exponent := by
  have hden : 0 < x.denominator * Nat.pow 10 exponent.toNat :=
    Nat.mul_pos x.denominator_pos (Nat.pow_pos (by decide))
  have hpow : (0 : ℚ) < 10 ^ exponent := by positivity
  have hratio := cast_scaled_div (by decide : 0 < 10) x.numerator x.denominator exponent
  rw [numerator_div_denominator, Nat.cast_ofNat] at hratio
  have hlow : (x.gridPoint exponent : ℚ) ≤ x.size / 10 ^ exponent := by
    rw [← hratio, le_div_iff₀ (Nat.cast_pos.mpr hden)]
    exact_mod_cast Nat.div_mul_le_self _ _
  have hhigh : x.size / 10 ^ exponent < x.gridPoint exponent + 1 := by
    rw [← hratio, div_lt_iff₀ (Nat.cast_pos.mpr hden)]
    exact_mod_cast (Nat.div_lt_iff_lt_mul hden).mp (Nat.lt_succ_self _)
  exact ⟨(le_div_iff₀ hpow).mp hlow, (div_lt_iff₀ hpow).mp hhigh⟩

theorem of_onGrid? (hx : x.significand ≠ 0) (h : x.onGrid? exponent = some (digits, power)) :
    power = exponent ∧ x.Attracts (digits * 10 ^ exponent) ∧
      (digits = x.gridPoint exponent ∨ digits = x.gridPoint exponent + 1) := by
  rw [onGrid?] at h
  rw [← gridPoint] at h
  split at h
  · next hpoint hnext =>
    obtain ⟨rfl, rfl⟩ := Prod.mk.inj (Option.some.inj h)
    have hle := div_le_roundDiv (x.numerator * Nat.pow 10 (-exponent).toNat)
      (x.denominator * Nat.pow 10 exponent.toNat)
    have hge := roundDiv_le_div_add_one (x.numerator * Nat.pow 10 (-exponent).toNat)
      (x.denominator * Nat.pow 10 exponent.toNat)
    rw [← gridPoint] at hle hge
    rcases Nat.le_or_eq_of_le_succ hge with hle' | heq
    · rw [Nat.le_antisymm hle' hle]
      exact ⟨rfl, (covers_eq_true_iff hx).mp hpoint, Or.inl rfl⟩
    · rw [heq]
      exact ⟨rfl, (covers_eq_true_iff hx).mp hnext, Or.inr rfl⟩
  · next hpoint _ =>
    obtain ⟨rfl, rfl⟩ := Prod.mk.inj (Option.some.inj h)
    exact ⟨rfl, (covers_eq_true_iff hx).mp hpoint, Or.inl rfl⟩
  · next _ hnext =>
    obtain ⟨rfl, rfl⟩ := Prod.mk.inj (Option.some.inj h)
    exact ⟨rfl, (covers_eq_true_iff hx).mp hnext, Or.inr rfl⟩
  · cases h

/-- A grid that is finer than what a number attracts has a point there. -/
theorem exists_onGrid? (hx : x.significand ≠ 0)
    (hfine : (10 : ℚ) ^ exponent < (x.gapBelow + x.gapAbove) / 2) :
    ∃ found, x.onGrid? exponent = some found := by
  obtain ⟨hlow, hhigh⟩ := x.gridPoint_bounds exponent
  have hbelow := x.gapBelow_pos
  have habove := x.gapAbove_pos
  rw [onGrid?]
  rw [← gridPoint]
  split
  · exact ⟨_, rfl⟩
  · exact ⟨_, rfl⟩
  · exact ⟨_, rfl⟩
  · next hpoint hnext =>
    exfalso
    rw [← Bool.not_eq_true, covers_eq_true_iff hx] at hpoint hnext
    push_cast at hnext
    -- The number is between the two points, so each of them lies beyond an end.
    have hpoint' : x.gridPoint exponent * 10 ^ exponent ≤ x.size - x.gapBelow / 2 := by
      by_contra hlt
      refine hpoint ⟨by linarith, by linarith, fun heq => ?_, fun heq => ?_⟩ <;> linarith
    have hnext' : x.size + x.gapAbove / 2 ≤ (x.gridPoint exponent + 1) * 10 ^ exponent := by
      by_contra hlt
      refine hnext ⟨by linarith, by linarith, fun heq => ?_, fun heq => ?_⟩ <;> linarith
    linarith

theorem digitCount_div_bounds {num den : Nat} (hden : 0 < den) (hle : den ≤ num) :
    0 < digitCount (num / den) ∧ 10 ^ (digitCount (num / den) - 1) * den ≤ num ∧
      num < 10 ^ digitCount (num / den) * den := by
  have hquotient : num / den ≠ 0 := (Nat.div_pos hle hden).ne'
  exact ⟨Nat.length_toDigits_pos,
    (Nat.le_div_iff_mul_le hden).mp (pow_pred_digitCount_le hquotient),
    (Nat.div_lt_iff_lt_mul hden).mp (lt_pow_digitCount (num / den))⟩

theorem leadingPower_bounds (hx : x.significand ≠ 0) :
    (10 : ℚ) ^ x.leadingPower ≤ x.size ∧ x.size < 10 ^ (x.leadingPower + 1) := by
  have hden := x.denominator_pos
  have hnum : 0 < x.numerator :=
    Nat.mul_pos (Nat.pos_iff_ne_zero.mpr hx) (Nat.pow_pos Nat.two_pos)
  have hden' : (0 : ℚ) < x.denominator := Nat.cast_pos.mpr hden
  rw [← numerator_div_denominator, le_div_iff₀ hden', div_lt_iff₀ hden', leadingPower]
  generalize x.numerator = num at hnum
  generalize x.denominator = den at hden
  split
  · next hle =>
    obtain ⟨hcount, hlow, hhigh⟩ := digitCount_div_bounds hden hle
    rw [sub_add_cancel, ← Nat.cast_pred hcount, zpow_natCast, zpow_natCast]
    exact ⟨by exact_mod_cast hlow, by exact_mod_cast hhigh⟩
  · next hlt =>
    -- Below one, the reciprocal decides; rounded up, less one, it is this quotient.
    have hquotient : (den + num - 1) / num - 1 = (den - 1) / num := by
      rw [show den + num - 1 = den - 1 + num by omega, Nat.add_div_right _ hnum]
      rfl
    have hle : num ≤ den - 1 := by omega
    obtain ⟨hcount, hlow, hhigh⟩ := digitCount_div_bounds hnum hle
    rw [hquotient]
    generalize digitCount ((den - 1) / num) = count at hcount hlow hhigh
    have hpow : (0 : ℚ) < 10 ^ (count : ℤ) := by positivity
    have hpow' : (0 : ℚ) < 10 ^ ((count - 1 : Nat) : ℤ) := by positivity
    have hexponent : -(count : ℤ) + 1 = -((count - 1 : Nat) : ℤ) := by omega
    rw [hexponent, zpow_neg, zpow_neg, inv_mul_le_iff₀ hpow, lt_inv_mul_iff₀ hpow', zpow_natCast,
      zpow_natCast]
    constructor
    · have hle : den ≤ 10 ^ count * num := by omega
      exact_mod_cast hle
    · have hlt : 10 ^ (count - 1) * num < den := by omega
      exact_mod_cast hlt

theorem le_leadingPower_iff (hx : x.significand ≠ 0) (k : ℤ) :
    k ≤ x.leadingPower ↔ 10 ^ k ≤ x.size := by
  obtain ⟨hlow, hhigh⟩ := leadingPower_bounds hx
  have hten : (1 : ℚ) < 10 := by norm_num
  constructor
  · intro hle
    exact (zpow_le_zpow_right₀ hten.le hle).trans hlow
  · intro hle
    exact Int.lt_add_one_iff.mp ((zpow_lt_zpow_iff_right₀ hten).mp (hle.trans_lt hhigh))

/-- A grid of seventeen digits is finer than what a number attracts. -/
theorem seventeen_digits_suffice (hx : x.significand ≠ 0) :
    (10 : ℚ) ^ (x.leadingPower - 16) < (x.gapBelow + x.gapAbove) / 2 := by
  have hlead := (leadingPower_bounds hx).1
  have hunit : (0 : ℚ) < 2 ^ x.exponent := by positivity
  rw [zpow_sub₀ (by norm_num), div_lt_iff₀ (by positivity)]
  refine hlead.trans_lt ?_
  rw [size, gapAbove, gapBelow]
  split
  · next hfoot =>
    rw [hfoot.1, zpow_sub_one₀ two_ne_zero]
    norm_num
    linarith
  · have hsig : (x.significand : ℚ) ≤ 0x1FFFFFFFFFFFFF := by
      exact_mod_cast Nat.le_of_lt_succ x.canonical.1
    calc x.significand * (2 : ℚ) ^ x.exponent ≤ 0x1FFFFFFFFFFFFF * 2 ^ x.exponent := by gcongr
      _ < (2 ^ x.exponent + 2 ^ x.exponent) / 2 * 10 ^ (16 : ℤ) := by
        norm_num
        linarith

theorem between_powers_of_grid (hx : x.significand ≠ 0) {n : Nat}
    (h : digits = x.gridPoint (x.leadingPower - n) ∨
      digits = x.gridPoint (x.leadingPower - n) + 1) :
    (10 : ℚ) ^ x.leadingPower ≤ digits * 10 ^ (x.leadingPower - n) ∧
      (digits : ℚ) * 10 ^ (x.leadingPower - n) ≤ 10 ^ (x.leadingPower + 1) := by
  obtain ⟨hlead, hlead'⟩ := leadingPower_bounds hx
  obtain ⟨hpoint, hpoint'⟩ := x.gridPoint_bounds (x.leadingPower - n)
  have hpow : (0 : ℚ) < 10 ^ (x.leadingPower - n) := by positivity
  have hlow : (10 : ℚ) ^ x.leadingPower = (10 ^ n : Nat) * 10 ^ (x.leadingPower - n) := by
    rw [Nat.cast_pow, Nat.cast_ofNat, ← zpow_natCast, ← zpow_add₀ (by norm_num), add_sub_cancel]
  have hhigh : (10 : ℚ) ^ (x.leadingPower + 1) =
      (10 ^ (n + 1) : Nat) * 10 ^ (x.leadingPower - n) := by
    rw [zpow_add_one₀ (by norm_num), hlow, Nat.pow_succ]
    push_cast
    ring
  rw [hlow] at hlead
  rw [hhigh] at hlead'
  have hle : 10 ^ n < x.gridPoint (x.leadingPower - n) + 1 := by
    exact_mod_cast lt_of_mul_lt_mul_right (hlead.trans_lt hpoint') hpow.le
  have hlt : x.gridPoint (x.leadingPower - n) < 10 ^ (n + 1) := by
    exact_mod_cast lt_of_mul_lt_mul_right (hpoint.trans_lt hlead') hpow.le
  rw [hlow, hhigh, mul_le_mul_iff_left₀ hpow, mul_le_mul_iff_left₀ hpow, Nat.cast_le, Nat.cast_le]
  omega

theorem dropZeros_value (fuel digits : Nat) (exponent : ℤ) :
    ((dropZeros fuel digits exponent).1 : ℚ) * 10 ^ (dropZeros fuel digits exponent).2 =
      digits * 10 ^ exponent := by
  induction fuel generalizing digits exponent with
  | zero => rfl
  | succ fuel ih =>
    rw [dropZeros]
    split
    · next hzero =>
      have hdigits : (digits : ℚ) = (digits / 10 : Nat) * 10 := by
        exact_mod_cast (Nat.div_mul_cancel (Nat.dvd_of_mod_eq_zero hzero)).symm
      rw [ih, zpow_add_one₀ (by norm_num), hdigits]
      ring
    · rfl

/-- The shortest decimal of a number other than zero: the number attracts it, and no power of ten
lies between the two. -/
theorem shortest_spec (hx : x.significand ≠ 0) :
    x.Attracts (x.shortest.1 * 10 ^ x.shortest.2) ∧
      (10 : ℚ) ^ x.leadingPower ≤ x.shortest.1 * 10 ^ x.shortest.2 ∧
      (x.shortest.1 : ℚ) * 10 ^ x.shortest.2 ≤ 10 ^ (x.leadingPower + 1) := by
  rw [shortest, if_neg hx]
  dsimp only
  split
  · next digits power hfound =>
    obtain ⟨n, -, hgrid⟩ := List.exists_of_findSome?_eq_some hfound
    obtain ⟨rfl, hattracts, hnear⟩ := of_onGrid? hx hgrid
    rw [dropZeros_value]
    exact ⟨hattracts, between_powers_of_grid hx hnear⟩
  · next hnone =>
    exfalso
    obtain ⟨found, hfound⟩ := exists_onGrid? hx (seventeen_digits_suffice hx)
    have hlast := List.findSome?_eq_none_iff.mp hnone 16 (by decide)
    rw [Nat.cast_ofNat, hfound] at hlast
    cases hlast

end FilterChain.Binary64
