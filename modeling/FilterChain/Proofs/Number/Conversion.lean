import FilterChain.Proofs.Number.Nearest

/-!
# Numbers from ratios and decimals

A ratio or a decimal becomes the number of its sign that attracts it, and nothing if there is none.
The reading of a decimal goes by its value alone, however it is split into digits and a power of
ten.
-/

namespace FilterChain.Binary64

variable {x : Binary64} {negative : Bool} {num den digits : Nat}

theorem isRounded_unitsOfRatio (hden : 0 < den) (num : Nat) (e : ℤ) :
    IsRounded (num / den / 2 ^ e) (unitsOfRatio num den e) := by
  have hpos : 0 < den * Nat.pow 2 e.toNat := Nat.mul_pos hden (Nat.pow_pos Nat.two_pos)
  have hrounded := @isRounded_roundDiv (num * Nat.pow 2 (-e).toNat) _ hpos
  rwa [cast_scaled_div Nat.two_pos, Nat.cast_ofNat] at hrounded

theorem unitsOfRatio_bounds (hden : 0 < den) (num : Nat) (e : ℤ) :
    (unitsOfRatio num den e * 2 ^ e - 2 ^ e / 2 ≤ (num : ℚ) / den ∧
      (num : ℚ) / den ≤ unitsOfRatio num den e * 2 ^ e + 2 ^ e / 2) ∧
    ((num : ℚ) / den = unitsOfRatio num den e * 2 ^ e - 2 ^ e / 2 ∨
        (num : ℚ) / den = unitsOfRatio num den e * 2 ^ e + 2 ^ e / 2 →
      unitsOfRatio num den e % 2 = 0) := by
  have hrounded := isRounded_unitsOfRatio hden num e
  have hunit : (0 : ℚ) < 2 ^ e := by positivity
  have hratio : (num : ℚ) / den = num / den / 2 ^ e * 2 ^ e := by
    rw [div_mul_cancel₀ _ hunit.ne']
  rw [hratio]
  generalize (num : ℚ) / den / 2 ^ e = q at hrounded
  generalize unitsOfRatio num den e = m at hrounded
  obtain ⟨hlow, hhigh⟩ := abs_le.mp hrounded.near
  refine ⟨⟨?_, ?_⟩, ?_⟩
  · have hmul := mul_le_mul_of_nonneg_right hlow hunit.le
    linarith
  · have hmul := mul_le_mul_of_nonneg_right hhigh hunit.le
    linarith
  · rintro (htie | htie)
    · have hq : q - m = -(1 / 2) := mul_right_cancel₀ hunit.ne' (by linarith)
      exact hrounded.tie (by rw [hq, abs_neg, abs_of_pos (by norm_num)])
    · have hq : q - m = 1 / 2 := mul_right_cancel₀ hunit.ne' (by linarith)
      exact hrounded.tie (by rw [hq, abs_of_pos (by norm_num)])

/-- A ratio lies below the foot of the next exponent, and not below that of its own. -/
theorem leastExponent_bounds (hnum : 0 < num) (hden : 0 < den) :
    (num : ℚ) / den < 0x20000000000000 * 2 ^ leastExponent num den ∧
      (-1074 < leastExponent num den →
        0x10000000000000 * 2 ^ leastExponent num den ≤ (num : ℚ) / den) := by
  obtain ⟨hlow, hhigh⟩ := ratioLog2_spec hnum hden
  have hleast : leastExponent num den = max (-1074) (ratioLog2 num den - 52) := rfl
  constructor
  · calc (num : ℚ) / den < 2 ^ (ratioLog2 num den + 1) := hhigh
      _ ≤ 2 ^ (53 + leastExponent num den) := zpow_le_zpow_right₀ one_le_two (by omega)
      _ = 0x20000000000000 * 2 ^ leastExponent num den := by
        rw [zpow_add₀ two_ne_zero]
        norm_num
  · intro hexponent
    have hlog : ratioLog2 num den = 52 + leastExponent num den := by omega
    calc (0x10000000000000 : ℚ) * 2 ^ leastExponent num den
        = 2 ^ (52 + leastExponent num den) := by
          rw [zpow_add₀ two_ne_zero]
          norm_num
      _ ≤ num / den := by rwa [← hlog]

theorem attracts_of_units (hnum : 0 < num) (hden : 0 < den)
    (hexponent : x.exponent = leastExponent num den)
    (hsignificand : x.significand = unitsOfRatio num den (leastExponent num den)) :
    x.Attracts (num / den) := by
  obtain ⟨⟨hlow, hhigh⟩, htie⟩ := unitsOfRatio_bounds hden num (leastExponent num den)
  have hfoot := (leastExponent_bounds hnum hden).2
  rw [← hsignificand, ← hexponent] at hlow hhigh htie
  rw [← hexponent] at hfoot
  have hsize : x.size = x.significand * 2 ^ x.exponent := rfl
  have habove : x.gapAbove = 2 ^ x.exponent := rfl
  by_cases hbelow : x.significand = 0x10000000000000 ∧ -1074 < x.exponent
  -- At the foot of an exponent the ratio is not below the size at all.
  · have hle := hfoot hbelow.2
    have hgap := x.gapBelow_pos
    have hsize' : x.size = 0x10000000000000 * 2 ^ x.exponent := by
      rw [hsize, hbelow.1]
      norm_num
    constructor
    · linarith
    · linarith
    · intro heq
      linarith
    · intro _
      rw [hbelow.1]
  · have hgap : x.gapBelow = 2 ^ x.exponent := if_neg hbelow
    constructor
    · linarith
    · linarith
    · intro heq
      exact htie (Or.inl (by linarith))
    · intro heq
      exact htie (Or.inr (by linarith))

theorem attracts_of_units_eq_foot (hnum : 0 < num) (hden : 0 < den)
    (hunits : unitsOfRatio num den (leastExponent num den) = 0x20000000000000)
    (hexponent : x.exponent = leastExponent num den + 1)
    (hsignificand : x.significand = 0x10000000000000) : x.Attracts (num / den) := by
  obtain ⟨⟨hlow, _⟩, _⟩ := unitsOfRatio_bounds hden num (leastExponent num den)
  have hbelow := (leastExponent_bounds hnum hden).1
  have hmin : -1074 ≤ leastExponent num den := le_max_left _ _
  rw [hunits] at hlow
  push_cast at hlow
  have hexponent' : x.exponent - 1 = leastExponent num den := by omega
  have hunit : (2 : ℚ) ^ x.exponent = 2 ^ leastExponent num den * 2 := by
    rw [hexponent, zpow_add_one₀ two_ne_zero]
  have hgap : x.gapBelow = 2 ^ leastExponent num den := by
    rw [gapBelow, if_pos ⟨hsignificand, by omega⟩, hexponent']
  have hsize : x.size = 0x10000000000000 * 2 ^ x.exponent := by
    rw [size, hsignificand]
    norm_num
  have habove := x.gapAbove_pos
  constructor
  · linarith
  · linarith
  · intro _
    rw [hsignificand]
  · intro _
    rw [hsignificand]

theorem attracts_zero (negative : Bool) : (zero negative).Attracts 0 := by
  have hsize : (zero negative).size = 0 := size_eq_zero_iff.mpr rfl
  exact hsize ▸ attracts_size _

theorem attracts_of_ofRatio? (hden : 0 < den) (h : ofRatio? negative num den = some x) :
    x.negative = negative ∧ x.Attracts (num / den) := by
  rcases Nat.eq_zero_or_pos num with rfl | hnum
  · obtain rfl : zero negative = x := by simpa [ofRatio?] using h
    rw [Nat.cast_zero, zero_div]
    exact ⟨rfl, attracts_zero negative⟩
  have hne : num ≠ 0 := Nat.pos_iff_ne_zero.mp hnum
  simp only [ofRatio?, if_neg hne] at h
  rw [← leastExponent, ← unitsOfRatio] at h
  by_cases hunits : unitsOfRatio num den (leastExponent num den) = 0x20000000000000
  · simp only [if_pos hunits] at h
    obtain ⟨_, hx⟩ := Option.dite_none_right_eq_some.mp h
    obtain rfl := Option.some.inj hx
    exact ⟨rfl, attracts_of_units_eq_foot hnum hden hunits rfl rfl⟩
  · simp only [if_neg hunits] at h
    obtain ⟨_, hx⟩ := Option.dite_none_right_eq_some.mp h
    obtain rfl := Option.some.inj hx
    exact ⟨rfl, attracts_of_units hnum hden rfl rfl⟩

def largest (negative : Bool) : Binary64 where
  negative := negative
  significand := 0x1FFFFFFFFFFFFF
  exponent := 971
  canonical := by decide

theorem size_le_largest (x : Binary64) (negative : Bool) : x.size ≤ (largest negative).size := by
  have hsig : (x.significand : ℚ) ≤ (largest negative).significand :=
    Nat.cast_le.mpr (Nat.le_of_lt_succ x.canonical.1)
  have hpow : (2 : ℚ) ^ x.exponent ≤ 2 ^ (largest negative).exponent :=
    zpow_le_zpow_right₀ one_le_two x.canonical.2.2.1
  exact mul_le_mul hsig hpow (zpow_nonneg zero_le_two _) (Nat.cast_nonneg _)

/-- The point of overflow is the midpoint behind the largest number. -/
theorem largest_size_add (negative : Bool) :
    (largest negative).size + (largest negative).gapAbove / 2 = overflow := by
  have hoverflow : (overflow : ℚ) = 0x3FFFFFFFFFFFFF * 2 ^ (970 : ℤ) := by
    rw [overflow, Nat.cast_mul, Nat.cast_pow, Nat.cast_ofNat, Nat.cast_ofNat, zpow_ofNat]
  have hunit : (2 : ℚ) ^ (971 : ℤ) = 2 ^ (970 : ℤ) * 2 := by
    rw [← zpow_add_one₀ two_ne_zero]
    rfl
  have hsize : (largest negative).size = 0x1FFFFFFFFFFFFF * 2 ^ (971 : ℤ) := by
    rw [size, largest, Nat.cast_ofNat]
  have hgap : (largest negative).gapAbove = 2 ^ (971 : ℤ) := rfl
  rw [hsize, hgap, hoverflow, hunit]
  generalize (2 : ℚ) ^ (970 : ℤ) = unit
  ring

/-- The largest number has an odd significand, so that nothing at the point of overflow is
attracted. -/
theorem Attracts.lt_overflow {r : ℚ} (h : x.Attracts r) : r < overflow := by
  have hhigh := h.high
  rw [← largest_size_add x.negative]
  rcases lt_or_eq_of_le (x.size_le_largest x.negative) with hlt | heq
  · have hgap := gapAbove_le_of_lt hlt
    have habove := x.gapAbove_pos
    have habove' := (largest x.negative).gapAbove_pos
    linarith
  · have hx : x = largest x.negative := eq_of_size_eq rfl heq
    rw [hx] at h hhigh
    have hodd : (largest x.negative).significand % 2 = 1 := by norm_num [largest]
    refine lt_of_le_of_ne hhigh fun hend => ?_
    have heven := h.even_of_high hend
    omega

theorem ofRatio?_eq_some_iff (hden : 0 < den) :
    ofRatio? negative num den = some x ↔ x.negative = negative ∧ x.Attracts (num / den) := by
  constructor
  · exact attracts_of_ofRatio? hden
  · rintro ⟨hsign, hx⟩
    have hsome := (isSome_ofRatio?_iff hden negative num).mpr
      ((lt_overflow_mul_iff hden num).mpr hx.lt_overflow)
    obtain ⟨y, hy⟩ := Option.isSome_iff_exists.mp hsome
    obtain ⟨hsign', hy'⟩ := attracts_of_ofRatio? hden hy
    rw [hy, hy'.unique hx (hsign'.trans hsign.symm)]

theorem ofInt?_eq_some_iff {n : ℤ} :
    ofInt? n = some x ↔ x.negative = decide (n < 0) ∧ x.Attracts n.natAbs := by
  rw [ofInt?, ofRatio?_eq_some_iff Nat.one_pos, Nat.cast_one, div_one]

/-- With units smaller than one, only a whole number is attracted that is the size itself. -/
theorem Attracts.size_eq_natCast {n : Nat} (h : x.Attracts n) (hexponent : x.exponent ≤ 0) :
    x.size = n := by
  obtain ⟨k, hk⟩ : ∃ k : ℕ, x.exponent = -(k : ℤ) := ⟨(-x.exponent).toNat, by omega⟩
  have hunit : (0 : ℚ) < 2 ^ x.exponent := by positivity
  have hn : (n : ℚ) = (n * 2 ^ k : ℕ) * 2 ^ x.exponent := by
    rw [hk, zpow_neg, zpow_natCast]
    push_cast
    rw [mul_inv_cancel_right₀ (by positivity)]
  have hlow := h.low
  have hhigh := h.high
  have hgap := x.gapBelow_le_gapAbove
  rw [size, gapAbove] at *
  rw [hn] at hlow hhigh ⊢
  have hle : ((n * 2 ^ k : ℕ) : ℚ) < x.significand + 1 :=
    lt_of_mul_lt_mul_right (by linarith) hunit.le
  have hge : (x.significand : ℚ) < (n * 2 ^ k : ℕ) + 1 :=
    lt_of_mul_lt_mul_right (by linarith) hunit.le
  have hle' : n * 2 ^ k < x.significand + 1 := by exact_mod_cast hle
  have hge' : x.significand < n * 2 ^ k + 1 := by exact_mod_cast hge
  rw [show x.significand = n * 2 ^ k by omega]

theorem Attracts.exists_size_eq_natCast {n : Nat} (h : x.Attracts n) :
    ∃ m : ℕ, x.size = m := by
  rcases le_total x.exponent 0 with hexponent | hexponent
  · exact ⟨n, h.size_eq_natCast hexponent⟩
  · obtain ⟨k, hk⟩ := Int.eq_ofNat_of_zero_le hexponent
    refine ⟨x.significand * 2 ^ k, ?_⟩
    rw [size, hk, zpow_natCast]
    push_cast
    rfl

theorem Attracts.size_eq_iff {r : ℚ} (h : x.Attracts r) :
    x.size = r ↔ ∃ y : Binary64, y.size = r := by
  refine ⟨fun heq => ⟨x, heq⟩, ?_⟩
  rintro ⟨y, rfl⟩
  exact h.size_eq y.attracts_size

theorem exists_size_eq_of_le {n : Nat} (h : n ≤ 2 ^ 53) : ∃ y : Binary64, y.size = n := by
  rcases Nat.eq_zero_or_pos n with rfl | hpos
  · exact ⟨zero false, by simpa using size_eq_zero_iff.mpr rfl⟩
  rcases h.lt_or_eq with hlt | rfl
  · have hlog : n.log2 < 53 := (Nat.log2_lt hpos.ne').mpr hlt
    -- The significand is brought into the range of canonical ones.
    obtain ⟨k, hk⟩ : ∃ k, n.log2 + k = 52 := ⟨52 - n.log2, by omega⟩
    have hpow : 2 ^ n.log2 * 2 ^ k = 0x10000000000000 := by
      rw [← pow_add, hk]
      rfl
    have hlow := Nat.mul_le_mul_right (2 ^ k) (Nat.log2_self_le hpos.ne')
    have hhigh := Nat.mul_lt_mul_of_pos_right (Nat.lt_log2_self (n := n)) (Nat.two_pow_pos k)
    rw [hpow] at hlow
    rw [pow_succ, mul_right_comm, hpow] at hhigh
    refine ⟨⟨false, n * 2 ^ k, -k, hhigh, by omega, by omega, Or.inl hlow⟩, ?_⟩
    rw [size, zpow_neg, zpow_natCast]
    push_cast
    rw [mul_inv_cancel_right₀ (by positivity)]
  · refine ⟨⟨false, 0x10000000000000, 1, by decide⟩, ?_⟩
    rw [size]
    norm_num

theorem attracts_zero_of_lt {r : ℚ} (hr : 0 ≤ r) (h : r < 10 ^ (-330 : ℤ)) (negative : Bool) :
    (zero negative).Attracts r := by
  have hsize : (zero negative).size = 0 := size_eq_zero_iff.mpr rfl
  have habove : (zero negative).gapAbove = 2 ^ (-1074 : ℤ) := rfl
  have hbelow := (zero negative).gapBelow_pos
  have hhalf : (10 : ℚ) ^ (-330 : ℤ) ≤ 2 ^ (-1074 : ℤ) / 2 := by
    have hpow : 2 ^ 1074 * 2 ≤ 10 ^ 330 := by decide +kernel
    have hpow' : (2 : ℚ) ^ 1074 * 2 ≤ 10 ^ 330 := by exact_mod_cast hpow
    rw [zpow_neg, zpow_neg, zpow_ofNat, zpow_ofNat, div_eq_mul_inv, ← mul_inv]
    exact inv_anti₀ (by positivity) hpow'
  constructor
  · linarith
  · linarith
  · intro _
    rfl
  · intro _
    rfl

theorem attracts_of_ofDecimal? {exponent : ℤ}
    (h : ofDecimal? negative digits exponent = some x) :
    x.negative = negative ∧ x.Attracts (digits * 10 ^ exponent) := by
  unfold ofDecimal? at h
  dsimp only at h
  split at h
  · next hsmall =>
    obtain rfl := Option.some.inj h
    refine ⟨rfl, ?_⟩
    by_cases hzero : digits = 0
    · rw [hzero, Nat.cast_zero, zero_mul]
      exact attracts_zero negative
    · have htop := hsmall.resolve_left hzero
      refine attracts_zero_of_lt (by positivity) ?_ negative
      calc (digits : ℚ) * 10 ^ exponent < 10 ^ (digitCount digits + exponent) :=
            (decimal_bounds hzero exponent).2
        _ ≤ 10 ^ (-330 : ℤ) := zpow_le_zpow_right₀ (by norm_num) (by omega)
  · split at h
    · cases h
    · have hden : 0 < Nat.pow 10 (-exponent).toNat := Nat.pow_pos (by decide)
      obtain ⟨hsign, hx⟩ := attracts_of_ofRatio? hden h
      rw [cast_decimal_div] at hx
      exact ⟨hsign, hx⟩

theorem ofDecimal?_eq_some_iff {exponent : ℤ} :
    ofDecimal? negative digits exponent = some x ↔
      x.negative = negative ∧ x.Attracts (digits * 10 ^ exponent) := by
  constructor
  · exact attracts_of_ofDecimal?
  · rintro ⟨hsign, hx⟩
    have hsome := (isSome_ofDecimal?_iff negative digits exponent).mpr hx.lt_overflow
    obtain ⟨y, hy⟩ := Option.isSome_iff_exists.mp hsome
    obtain ⟨hsign', hy'⟩ := attracts_of_ofDecimal? hy
    rw [hy, hy'.unique hx (hsign'.trans hsign.symm)]

end FilterChain.Binary64
