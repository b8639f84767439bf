import FilterChain.Proofs.Number.Rounding
import Mathlib.Algebra.Order.Group.Abs
import Mathlib.Tactic.NormNum

/-!
# The nearest number

The size of a binary number is a rational, and the sizes near to it are known: the next one above is
one unit of its last place away, and so is the next one below, except at the foot of a range of
exponents, where it is half as far. A number attracts what lies within half of these distances, and
the midpoints only if its significand is even. No two sizes attract the same rational, and what a
number attracts is nearest to it.
-/

namespace FilterChain

/-- A whole number nearest to a ratio, the even one of two. -/
structure IsRounded (r : ℚ) (n : Nat) : Prop where
  near : |r - n| ≤ 1 / 2
  tie : |r - n| = 1 / 2 → n % 2 = 0

theorem roundDiv_even_of_tie {num den : Nat} (h : 0 < den)
    (htie : 2 * num = 2 * (den * roundDiv num den) + den ∨
      2 * (den * roundDiv num den) = 2 * num + den) : roundDiv num den % 2 = 0 := by
  have hsum := Nat.div_add_mod num den
  have hlt := Nat.mod_lt num h
  have hsucc := Nat.mul_succ den (num / den)
  simp only [roundDiv] at htie ⊢
  split at htie
  · omega
  · split at htie
    · simp only [Nat.add_one, hsucc] at htie
      omega
    · next hlow hhigh =>
      rw [if_neg hlow, if_neg hhigh]
      split
      · assumption
      · omega

theorem isRounded_roundDiv {num den : Nat} (h : 0 < den) :
    IsRounded (num / den) (roundDiv num den) := by
  obtain ⟨hlow, hhigh⟩ := @roundDiv_within_half num den h
  have htie := @roundDiv_even_of_tie num den h
  have hden : (0 : ℚ) < den := Nat.cast_pos.mpr h
  obtain ⟨r, hr⟩ : ∃ r : ℚ, (num : ℚ) / den = r := ⟨_, rfl⟩
  have hnum : (num : ℚ) = r * den := (div_eq_iff hden.ne').mp hr
  rw [hr]
  generalize roundDiv num den = n at *
  constructor
  · have hlow' : 2 * (r * den) ≤ 2 * (den * n) + den := by
      rw [← hnum]
      exact_mod_cast hlow
    have hhigh' : 2 * (den * n) ≤ 2 * (r * den) + den := by
      rw [← hnum]
      exact_mod_cast hhigh
    rw [abs_le]
    constructor
    · refine le_of_mul_le_mul_right ?_ hden
      linarith
    · refine le_of_mul_le_mul_right ?_ hden
      linarith
  · intro hhalf
    apply htie
    rcases (abs_eq (by norm_num)).mp hhalf with hr | hr
    · left
      have htwice : (2 : ℚ) * num = 2 * (den * n) + den := by
        rw [hnum, sub_eq_iff_eq_add.mp hr]
        ring
      exact_mod_cast htwice
    · right
      have htwice : (2 : ℚ) * (den * n) = 2 * num + den := by
        rw [hnum, sub_eq_iff_eq_add.mp hr]
        ring
      exact_mod_cast htwice

theorem IsRounded.unique {r : ℚ} {m n : Nat} (hm : IsRounded r m) (hn : IsRounded r n) :
    m = n := by
  wlog hlt : m < n generalizing m n with hsymm
  · rcases Nat.lt_or_eq_of_le (Nat.not_lt.mp hlt) with hgt | heq
    · exact (hsymm hn hm hgt).symm
    · exact heq.symm
  have hm' := abs_le.mp hm.near
  have hn' := abs_le.mp hn.near
  have hstep : (m : ℚ) + 1 ≤ n := by exact_mod_cast hlt
  -- Both can be nearest only if `r` lies halfway between them, and then one of them is odd.
  have hnext : (n : ℚ) = m + 1 := by linarith
  have hnext' : n = m + 1 := by exact_mod_cast hnext
  have hmid : r - m = 1 / 2 := by linarith
  have hmid' : r - n = -(1 / 2) := by linarith
  have habs : |(1 / 2 : ℚ)| = 1 / 2 := abs_of_pos (by norm_num)
  have heven := hm.tie (by rw [hmid, habs])
  have heven' := hn.tie (by rw [hmid', abs_neg, habs])
  omega

theorem isRounded_natCast (n : Nat) : IsRounded n n where
  near := by simp
  tie h := by simp at h

namespace Binary64

variable {x y : Binary64} {r : ℚ}

def size (x : Binary64) : ℚ :=
  x.significand * 2 ^ x.exponent

theorem size_nonneg (x : Binary64) : 0 ≤ x.size := by
  rw [size]
  positivity

theorem denominator_pos (x : Binary64) : 0 < x.denominator :=
  Nat.pow_pos Nat.two_pos

theorem numerator_div_denominator (x : Binary64) :
    (x.numerator : ℚ) / x.denominator = x.size := by
  rw [div_eq_iff (Nat.cast_pos.mpr x.denominator_pos).ne', size, numerator, denominator, mul_assoc]
  push_cast [Nat.pow_eq]
  rw [zpow_mul_pow_toNat_neg two_ne_zero]

theorem size_eq_zero_iff : x.size = 0 ↔ x.significand = 0 := by
  rw [size, mul_eq_zero, Nat.cast_eq_zero, or_iff_left (zpow_ne_zero _ two_ne_zero)]

theorem size_add_unit_le (h : x.exponent < y.exponent) :
    x.size + 2 ^ x.exponent ≤ 0x10000000000000 * 2 ^ y.exponent := by
  have hx : (x.significand : ℚ) + 1 ≤ 0x20000000000000 := by
    exact_mod_cast x.canonical.1
  have hpow : (2 : ℚ) ^ (x.exponent + 1) ≤ 2 ^ y.exponent :=
    zpow_le_zpow_right₀ one_le_two (by omega)
  rw [zpow_add_one₀ two_ne_zero] at hpow
  have hunit : (0 : ℚ) < 2 ^ x.exponent := by positivity
  calc x.size + 2 ^ x.exponent = (x.significand + 1) * 2 ^ x.exponent := by
        rw [size]
        ring
    _ ≤ 0x20000000000000 * 2 ^ x.exponent := by gcongr
    _ ≤ 0x10000000000000 * 2 ^ y.exponent := by linarith

theorem le_size_of_exponent_lt (h : x.exponent < y.exponent) :
    0x10000000000000 * 2 ^ y.exponent ≤ y.size := by
  have hx := x.canonical.2.1
  have hy : (0x10000000000000 : ℚ) ≤ y.significand := by
    have hcanonical := y.canonical.2.2.2
    have : 0x10000000000000 ≤ y.significand := by omega
    exact_mod_cast this
  rw [size]
  gcongr

theorem size_lt_of_exponent_lt (h : x.exponent < y.exponent) : x.size < y.size := by
  have hunit : (0 : ℚ) < 2 ^ x.exponent := by positivity
  linarith [size_add_unit_le h, le_size_of_exponent_lt h]

/-- The form of a number is canonical, so that its size tells its significand and its exponent. -/
theorem eq_of_size_eq (hsign : x.negative = y.negative) (h : x.size = y.size) : x = y := by
  rcases lt_trichotomy x.exponent y.exponent with hlt | heq | hgt
  · exact absurd h (size_lt_of_exponent_lt hlt).ne
  · rw [size, size, heq, mul_left_inj' (zpow_ne_zero _ two_ne_zero), Nat.cast_inj] at h
    obtain ⟨_, _, _, _⟩ := x
    obtain ⟨_, _, _, _⟩ := y
    simp only at hsign h heq
    subst hsign h heq
    rfl
  · exact absurd h (size_lt_of_exponent_lt hgt).ne'

def gapAbove (x : Binary64) : ℚ :=
  2 ^ x.exponent

/-- The distance to the next size below, which may have a smaller exponent. -/
def gapBelow (x : Binary64) : ℚ :=
  if x.significand = 0x10000000000000 ∧ -1074 < x.exponent then 2 ^ (x.exponent - 1)
  else 2 ^ x.exponent

theorem gapAbove_pos (x : Binary64) : 0 < x.gapAbove := by
  rw [gapAbove]
  positivity

theorem gapBelow_pos (x : Binary64) : 0 < x.gapBelow := by
  rw [gapBelow]
  split <;> positivity

theorem gapBelow_le_gapAbove (x : Binary64) : x.gapBelow ≤ x.gapAbove := by
  rw [gapBelow, gapAbove]
  split
  · exact zpow_le_zpow_right₀ one_le_two (by omega)
  · exact le_rfl

theorem gapAbove_le_of_lt (h : x.size < y.size) : x.size + x.gapAbove ≤ y.size := by
  rw [gapAbove]
  rcases lt_trichotomy x.exponent y.exponent with hlt | heq | hgt
  · exact (size_add_unit_le hlt).trans (le_size_of_exponent_lt hlt)
  · rw [size, size, heq] at h
    have hlt : x.significand < y.significand := by
      exact_mod_cast lt_of_mul_lt_mul_right h (by positivity)
    have hle : (x.significand : ℚ) + 1 ≤ y.significand := by exact_mod_cast hlt
    rw [size, size, heq, ← add_one_mul]
    gcongr
  · exact absurd (size_lt_of_exponent_lt hgt) h.not_gt

theorem gapBelow_le_of_lt (h : x.size < y.size) : x.size + y.gapBelow ≤ y.size := by
  rcases lt_trichotomy x.exponent y.exponent with hlt | heq | hgt
  · have hunit := size_add_unit_le hlt
    have hx := x.canonical.2.1
    rw [gapBelow]
    split
    · next hfoot =>
      have hpow : (2 : ℚ) ^ y.exponent = 2 ^ (y.exponent - 1) * 2 := by
        rw [← zpow_add_one₀ two_ne_zero, sub_add_cancel]
      have hle : (2 : ℚ) ^ x.exponent ≤ 2 ^ (y.exponent - 1) :=
        zpow_le_zpow_right₀ one_le_two (by omega)
      have hsig : (x.significand : ℚ) ≤ 0x1FFFFFFFFFFFFF := by
        exact_mod_cast Nat.le_of_lt_succ x.canonical.1
      calc x.size + 2 ^ (y.exponent - 1)
          ≤ 0x1FFFFFFFFFFFFF * 2 ^ (y.exponent - 1) + 2 ^ (y.exponent - 1) := by
            rw [size]
            gcongr
        _ = 0x10000000000000 * 2 ^ y.exponent := by
            rw [hpow]
            ring
        _ ≤ y.size := le_size_of_exponent_lt hlt
    · next hinner =>
      have hsig : (0x10000000000000 : ℚ) + 1 ≤ y.significand := by
        have hcanonical := y.canonical.2.2.2
        have : 0x10000000000000 + 1 ≤ y.significand := by omega
        exact_mod_cast this
      have hpos : (0 : ℚ) < 2 ^ x.exponent := by positivity
      calc x.size + 2 ^ y.exponent
          ≤ (0x10000000000000 + 1) * 2 ^ y.exponent := by linarith
        _ ≤ y.size := by
            rw [size]
            gcongr
  · have hgap := gapAbove_le_of_lt h
    have hle := gapBelow_le_gapAbove y
    rw [gapAbove, heq, ← gapAbove] at hgap
    linarith
  · exact absurd (size_lt_of_exponent_lt hgt) h.not_gt

theorem odd_of_size_add_gapAbove_eq (h : x.size + x.gapAbove = y.size)
    (heven : x.significand % 2 = 0) : y.significand % 2 = 1 := by
  rw [gapAbove] at h
  have hpos : (0 : ℚ) < 2 ^ x.exponent := by positivity
  rcases lt_trichotomy x.exponent y.exponent with hlt | heq | hgt
  · have hpow : (2 : ℚ) ^ (x.exponent + 1) ≤ 2 ^ y.exponent :=
      zpow_le_zpow_right₀ one_le_two (by omega)
    rw [zpow_add_one₀ two_ne_zero] at hpow
    have hsize := le_size_of_exponent_lt hlt
    rw [← h, size, ← add_one_mul] at hsize
    have hle : (0x20000000000000 : ℚ) ≤ x.significand + 1 :=
      le_of_mul_le_mul_right (by linarith) hpos
    have hle' : 0x20000000000000 ≤ x.significand + 1 := by exact_mod_cast hle
    have hcanonical := x.canonical.1
    omega
  · rw [size, size, ← heq, ← add_one_mul, mul_left_inj' hpos.ne'] at h
    have hnext : x.significand + 1 = y.significand := by exact_mod_cast h
    omega
  · linarith [size_lt_of_exponent_lt hgt]

/-- A rational lies within half of the distances to the next sizes, and at a midpoint only if the
significand is even. -/
structure Attracts (x : Binary64) (r : ℚ) : Prop where
  low : x.size - x.gapBelow / 2 ≤ r
  high : r ≤ x.size + x.gapAbove / 2
  even_of_low : r = x.size - x.gapBelow / 2 → x.significand % 2 = 0
  even_of_high : r = x.size + x.gapAbove / 2 → x.significand % 2 = 0

theorem attracts_size (x : Binary64) : x.Attracts x.size := by
  have habove := x.gapAbove_pos
  have hbelow := x.gapBelow_pos
  constructor
  · linarith
  · linarith
  · intro h
    linarith
  · intro h
    linarith

theorem not_attracts_of_lt (h : x.size < y.size) (hx : x.Attracts r) : ¬ y.Attracts r := by
  intro hy
  have habove := gapAbove_le_of_lt h
  have hbelow := gapBelow_le_of_lt h
  have hhigh := hx.high
  have hlow := hy.low
  -- Only the midpoint is left, which would belong to two even significands.
  have hnext : x.size + x.gapAbove = y.size := by linarith
  have hodd := odd_of_size_add_gapAbove_eq hnext (hx.even_of_high (by linarith))
  have heven := hy.even_of_low (by linarith)
  omega

theorem Attracts.size_eq (hx : x.Attracts r) (hy : y.Attracts r) : x.size = y.size := by
  rcases lt_trichotomy x.size y.size with hlt | heq | hgt
  · exact absurd hy (not_attracts_of_lt hlt hx)
  · exact heq
  · exact absurd hx (not_attracts_of_lt hgt hy)

theorem Attracts.unique (hx : x.Attracts r) (hy : y.Attracts r)
    (hsign : x.negative = y.negative) : x = y :=
  eq_of_size_eq hsign (hx.size_eq hy)

/-- No number is nearer to a rational, and one as near is refused for its odd significand. -/
structure IsNearest (x : Binary64) (r : ℚ) : Prop where
  near : ∀ y : Binary64, |x.size - r| ≤ |y.size - r|
  tie : ∀ y : Binary64, y.size ≠ x.size → |y.size - r| = |x.size - r| → x.significand % 2 = 0

theorem Attracts.isNearest (h : x.Attracts r) : x.IsNearest r := by
  have hlow := h.low
  have hhigh := h.high
  have hgap := x.gapBelow_le_gapAbove
  constructor
  · intro y
    rcases lt_trichotomy x.size y.size with hlt | heq | hgt
    · have habove := gapAbove_le_of_lt hlt
      have hbelow := gapBelow_le_of_lt hlt
      rw [abs_le, abs_of_nonneg (by linarith)]
      constructor <;> linarith
    · rw [heq]
    · have habove := gapAbove_le_of_lt hgt
      have hbelow := gapBelow_le_of_lt hgt
      rw [abs_le, abs_of_nonpos (by linarith)]
      constructor <;> linarith
  · intro y hne heq
    rcases lt_or_gt_of_ne hne with hlt | hgt
    · have hbelow := gapBelow_le_of_lt hlt
      refine h.even_of_low ?_
      rw [abs_of_nonpos (by linarith)] at heq
      rcases abs_cases (x.size - r) with ⟨habs, _⟩ | ⟨habs, _⟩ <;> linarith
    · have habove := gapAbove_le_of_lt hgt
      refine h.even_of_high ?_
      rw [abs_of_nonneg (by linarith)] at heq
      rcases abs_cases (x.size - r) with ⟨habs, _⟩ | ⟨habs, _⟩ <;> linarith

end Binary64

end FilterChain
