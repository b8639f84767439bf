import FilterChain.Text.Range
import Mathlib.Tactic.SplitIfs

/-!
# ASCII letters in either case

Changing the case of a letter forgets the case that it had, and nothing else.
-/

namespace FilterChain.Text

/-- What is said of the characters of a text is decided along the text. There are finitely many
characters, so it could also be decided by trying all of them. -/
instance decidableForallMem {p : Char → Prop} [DecidablePred p] (cs : List Char) :
    Decidable (∀ c ∈ cs, p c) :=
  List.decidableBAll p cs

instance decidableExistsMem {p : Char → Prop} [DecidablePred p] (first : Option Char) :
    Decidable (∃ c ∈ first, p c) :=
  first.decidableExistsMem

theorem toNat_ofNat {n : Nat} (h : n < 0xD800) : (Char.ofNat n).toNat = n := by
  rw [Char.ofNat, dif_pos (Or.inl h)]
  rfl

theorem le_iff_toNat_le {c d : Char} : c ≤ d ↔ c.toNat ≤ d.toNat :=
  Char.le_def.trans UInt32.le_iff_toNat_le

theorem toNat_lowerAscii (c : Char) :
    (lowerAscii c).toNat = if 65 ≤ c.toNat ∧ c.toNat ≤ 90 then c.toNat + 32 else c.toNat := by
  have hletter : 'A' ≤ c ∧ c ≤ 'Z' ↔ 65 ≤ c.toNat ∧ c.toNat ≤ 90 :=
    and_congr le_iff_toNat_le le_iff_toNat_le
  rw [lowerAscii]
  simp only [hletter]
  split
  · exact toNat_ofNat (by omega)
  · rfl

theorem toNat_upperAscii (c : Char) :
    (upperAscii c).toNat = if 97 ≤ c.toNat ∧ c.toNat ≤ 122 then c.toNat - 32 else c.toNat := by
  have hletter : 'a' ≤ c ∧ c ≤ 'z' ↔ 97 ≤ c.toNat ∧ c.toNat ≤ 122 :=
    and_congr le_iff_toNat_le le_iff_toNat_le
  rw [upperAscii]
  simp only [hletter]
  split
  · exact toNat_ofNat (by omega)
  · rfl

theorem lowerAscii_lowerAscii (c : Char) : lowerAscii (lowerAscii c) = lowerAscii c := by
  rw [← Char.toNat_inj, toNat_lowerAscii, toNat_lowerAscii]
  split_ifs <;> omega

theorem lowerAscii_upperAscii (c : Char) : lowerAscii (upperAscii c) = lowerAscii c := by
  rw [← Char.toNat_inj, toNat_lowerAscii, toNat_lowerAscii, toNat_upperAscii]
  split_ifs <;> omega

theorem upperAscii_upperAscii (c : Char) : upperAscii (upperAscii c) = upperAscii c := by
  rw [← Char.toNat_inj, toNat_upperAscii, toNat_upperAscii]
  split_ifs <;> omega

theorem upperAscii_lowerAscii (c : Char) : upperAscii (lowerAscii c) = upperAscii c := by
  rw [← Char.toNat_inj, toNat_upperAscii, toNat_upperAscii, toNat_lowerAscii]
  split_ifs <;> omega

end FilterChain.Text
