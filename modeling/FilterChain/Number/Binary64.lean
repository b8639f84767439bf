/-!
# Binary floating-point numbers

A finite number of 64 bits is a sign, a significand below `2 ^ 53` and an exponent of two. The
form is canonical: only the smallest exponent goes with a significand below `2 ^ 52`. A ratio is
rounded to the nearest such number, and a tie goes to the even significand.
-/

namespace FilterChain

def roundDiv (num den : Nat) : Nat :=
  let q := num / den
  let r := num % den
  if 2 * r < den then q
  else if den < 2 * r then q + 1
  else if q % 2 = 0 then q else q + 1

theorem roundDiv_within_half {num den : Nat} (h : 0 < den) :
    2 * num ≤ 2 * (den * roundDiv num den) + den ∧
      2 * (den * roundDiv num den) ≤ 2 * num + den := by
  have hsum := Nat.div_add_mod num den
  have hlt := Nat.mod_lt num h
  have hsucc := Nat.mul_succ den (num / den)
  simp only [roundDiv]
  split
  · omega
  · split
    · simp only [Nat.add_one, hsucc]
      omega
    · split
      · omega
      · simp only [Nat.add_one, hsucc]
        omega

structure Binary64 where
  negative : Bool
  significand : Nat
  exponent : Int
  canonical : significand < 0x20000000000000 ∧ -1074 ≤ exponent ∧ exponent ≤ 971 ∧
    (0x10000000000000 ≤ significand ∨ exponent = -1074)
  deriving DecidableEq, Repr

namespace Binary64

def zero (negative : Bool) : Binary64 where
  negative := negative
  significand := 0
  exponent := -1074
  canonical := by decide

/-- The size of a number is `numerator / denominator`. -/
def numerator (x : Binary64) : Nat :=
  x.significand * Nat.pow 2 x.exponent.toNat

def denominator (x : Binary64) : Nat :=
  Nat.pow 2 (-x.exponent).toNat

/-- The greatest `k` for which `2 ^ k` does not exceed the ratio. -/
def ratioLog2 (num den : Nat) : Int :=
  let k := (num.log2 : Int) - den.log2
  if den * Nat.pow 2 k.toNat ≤ num * Nat.pow 2 (-k).toNat then k else k - 1

def ofRatio? (negative : Bool) (num den : Nat) : Option Binary64 :=
  if num = 0 then some (zero negative)
  else
    let e := max (-1074) (ratioLog2 num den - 52)
    let m := roundDiv (num * Nat.pow 2 (-e).toNat) (den * Nat.pow 2 e.toNat)
    let (m, e) := if m = 0x20000000000000 then (0x10000000000000, e + 1) else (m, e)
    if h : m < 0x20000000000000 ∧ -1074 ≤ e ∧ e ≤ 971 ∧ (0x10000000000000 ≤ m ∨ e = -1074) then
      some ⟨negative, m, e, h⟩
    else none

def ofInt? (n : Int) : Option Binary64 :=
  ofRatio? (n < 0) n.natAbs 1

def digitCount (n : Nat) : Nat :=
  (Nat.toDigits 10 n).length

/-- The nearest number to `digits * 10 ^ exponent`. Exponents far outside the range are settled
by the number of digits alone, so that no huge power is ever formed. -/
def ofDecimal? (negative : Bool) (digits : Nat) (exponent : Int) : Option Binary64 :=
  let top := digitCount digits + exponent
  if digits = 0 ∨ top < -330 then some (zero negative)
  else if 310 < top then none
  else ofRatio? negative (digits * Nat.pow 10 exponent.toNat)
    (Nat.pow 10 (-exponent).toNat)

end Binary64

end FilterChain
