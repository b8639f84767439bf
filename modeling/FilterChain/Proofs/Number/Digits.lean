import FilterChain.Number.Numeral
import Mathlib.Algebra.Group.Nat.Defs
import Mathlib.Data.List.Basic

/-!
# Decimal digits

The digits of a number spell it, and those in front of others count for more by a power of ten.
Zeros in front of digits make no difference, so a number can be padded to a width.
-/

namespace FilterChain

theorem isAsciiDigit_of_mem_decimalDigits {n : Nat} {c : Char} (h : c ∈ decimalDigits n) :
    Text.isAsciiDigit c = true :=
  Nat.isDigit_of_mem_toDigits (by decide) (by decide) h

theorem digitsValue_decimalDigits (n : Nat) : digitsValue (decimalDigits n) = n :=
  Nat.ofDigitChars_toDigits (by decide) (by decide)

theorem length_decimalDigits_pos (n : Nat) : 0 < (decimalDigits n).length :=
  Nat.length_toDigits_pos

theorem eq_zero_of_digitChar {n : Nat} (h : n < 10) (hzero : n.digitChar = '0') : n = 0 := by
  revert n
  decide

/-- Only zero is written with a leading zero. -/
theorem eq_zero_of_head?_decimalDigits {n : Nat} (h : (decimalDigits n).head? = some '0') :
    n = 0 := by
  induction n using Nat.strongRecOn with
  | ind n ih =>
    rw [decimalDigits, Nat.toDigits_eq_if (by decide)] at h
    split at h
    · next hlt => exact eq_zero_of_digitChar hlt (Option.some.inj h)
    · next hge =>
      rw [List.head?_append_of_ne_nil _ Nat.toDigits_ne_nil] at h
      have hdiv := ih (n / 10) (by omega) h
      omega

theorem decimalDigits_eq_cons (n : Nat) :
    ∃ d ds, decimalDigits n = d :: ds ∧ Text.isAsciiDigit d = true ∧ (d = '0' → ds = []) := by
  cases hds : decimalDigits n with
  | nil => exact absurd hds Nat.toDigits_ne_nil
  | cons d ds =>
    refine ⟨d, ds, rfl, isAsciiDigit_of_mem_decimalDigits (hds ▸ List.mem_cons_self), ?_⟩
    rintro rfl
    have hzero : n = 0 := eq_zero_of_head?_decimalDigits (by rw [hds]; rfl)
    subst hzero
    exact (List.cons.inj hds).2.symm

theorem digitsValue_append (xs ys : List Char) :
    digitsValue (xs ++ ys) = digitsValue xs * 10 ^ ys.length + digitsValue ys := by
  have happend : digitsValue (xs ++ ys) = Nat.ofDigitChars 10 ys (digitsValue xs) :=
    Nat.ofDigitChars_append 0
  rw [happend, Nat.ofDigitChars_eq_ofDigitChars_zero, Nat.mul_comm]
  rfl

theorem digitsValue_replicate_zero_append (n : Nat) (ds : List Char) :
    digitsValue (List.replicate n '0' ++ ds) = digitsValue ds := by
  have hzeros : digitsValue (List.replicate n '0') = 0 := Nat.ofDigitChars_replicate_zero
  rw [digitsValue_append, hzeros, Nat.zero_mul, Nat.zero_add]

theorem digitsValue_append_zeros (ds : List Char) (n : Nat) :
    digitsValue (ds ++ List.replicate n '0') = digitsValue ds * 10 ^ n := by
  have hzeros : digitsValue (List.replicate n '0') = 0 := by
    rw [← List.append_nil (List.replicate n '0'), digitsValue_replicate_zero_append]
    rfl
  rw [digitsValue_append, hzeros, List.length_replicate, Nat.add_zero]

theorem isAsciiDigit_of_mem_replicate_zero_append (n : Nat) {ds : List Char}
    (h : ∀ d ∈ ds, Text.isAsciiDigit d = true) :
    ∀ d ∈ List.replicate n '0' ++ ds, Text.isAsciiDigit d = true := by
  intro d hd
  rcases List.mem_append.mp hd with hzero | hdigit
  · rw [List.eq_of_mem_replicate hzero]
    decide
  · exact h d hdigit

theorem digitsValue_dropWhile_zero (ds : List Char) :
    digitsValue (ds.dropWhile (· == '0')) = digitsValue ds := by
  induction ds with
  | nil => rfl
  | cons d ds ih =>
    by_cases hd : d = '0'
    · subst hd
      rw [List.dropWhile_cons_of_pos rfl, ih]
      exact (digitsValue_replicate_zero_append 1 ds).symm
    · rw [List.dropWhile_cons_of_neg (by simpa using hd)]

theorem digitValue_eq_zero_iff {d : Char} (h : Text.isAsciiDigit d = true) :
    digitValue d = 0 ↔ d = '0' := by
  rw [Text.isAsciiDigit, Bool.and_eq_true, decide_eq_true_eq, decide_eq_true_eq] at h
  have hlow : '0'.toNat ≤ d.toNat := h.1
  rw [digitValue, Nat.sub_eq_zero_iff_le, ← Char.toNat_inj]
  omega

theorem digitsValue_eq_zero_iff {ds : List Char} (h : ∀ d ∈ ds, Text.isAsciiDigit d = true) :
    digitsValue ds = 0 ↔ ∀ d ∈ ds, d = '0' := by
  induction ds with
  | nil => exact iff_of_true rfl nofun
  | cons d ds ih =>
    obtain ⟨hd, hds⟩ := List.forall_mem_cons.mp h
    have hcons : digitsValue (d :: ds) = digitsValue [d] * 10 ^ ds.length + digitsValue ds :=
      digitsValue_append [d] ds
    have hsingle : digitsValue [d] = digitValue d := Nat.zero_add _
    have hpow : 10 ^ ds.length ≠ 0 :=
      Nat.pos_iff_ne_zero.mp (Nat.pow_pos (by decide))
    rw [hcons, hsingle, Nat.add_eq_zero_iff, Nat.mul_eq_zero, or_iff_left hpow,
      digitValue_eq_zero_iff hd, ih hds, List.forall_mem_cons]

theorem takeWhile_digits_append {ds rest : List Char}
    (hds : ∀ d ∈ ds, Text.isAsciiDigit d = true)
    (hrest : ∀ c, rest.head? = some c → Text.isAsciiDigit c = false) :
    (ds ++ rest).takeWhile Text.isAsciiDigit = ds ∧
      (ds ++ rest).dropWhile Text.isAsciiDigit = rest := by
  rw [List.takeWhile_append_of_pos hds, List.dropWhile_append_of_pos hds]
  cases rest with
  | nil => simp
  | cons c rest =>
    have hc := hrest c rfl
    simp [hc]

theorem all_takeWhile_digits (cs : List Char) :
    ∀ d ∈ cs.takeWhile Text.isAsciiDigit, Text.isAsciiDigit d = true :=
  List.all_eq_true.mp List.all_takeWhile

theorem isAsciiDigit_of_mem_paddedDigits (width n : Nat) :
    ∀ d ∈ paddedDigits width n, Text.isAsciiDigit d = true :=
  isAsciiDigit_of_mem_replicate_zero_append _ fun _ hd => isAsciiDigit_of_mem_decimalDigits hd

theorem digitsValue_paddedDigits (width n : Nat) : digitsValue (paddedDigits width n) = n := by
  rw [paddedDigits, digitsValue_replicate_zero_append, digitsValue_decimalDigits]

theorem length_paddedDigits {width n : Nat} (hwidth : 0 < width) (h : n < 10 ^ width) :
    (paddedDigits width n).length = width := by
  have hlength : (decimalDigits n).length ≤ width :=
    (Nat.length_toDigits_le_iff (by decide) hwidth).mpr h
  rw [paddedDigits, List.length_append, List.length_replicate]
  omega

end FilterChain
