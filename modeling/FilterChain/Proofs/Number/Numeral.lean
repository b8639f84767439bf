import FilterChain.Number.Numeral

/-!
# Whole numbers in texts

A whole number is spelled by an optional sign and decimal digits, at least one. Reading a text with
bounds gives the number that it spells, if this lies in the bounds. A minus sign is refused where no
negative number lies in the bounds, even in front of zero.
-/

namespace FilterChain

/-- The number that a text spells; `signed` admits a minus sign. -/
inductive SpellsWhole (signed : Bool) : List Char → Int → Prop where
  | bare {ds : List Char} (hne : ds ≠ []) (hds : ∀ d ∈ ds, Text.isAsciiDigit d = true) :
      SpellsWhole signed ds (digitsValue ds)
  | plus {ds : List Char} (hne : ds ≠ []) (hds : ∀ d ∈ ds, Text.isAsciiDigit d = true) :
      SpellsWhole signed ('+' :: ds) (digitsValue ds)
  | minus {ds : List Char} (hsigned : signed = true) (hne : ds ≠ [])
      (hds : ∀ d ∈ ds, Text.isAsciiDigit d = true) :
      SpellsWhole signed ('-' :: ds) (-digitsValue ds)

namespace Bounds

def IsNumeral (bounds : Bounds) (cs : List Char) (n : Int) : Prop :=
  SpellsWhole (bounds.low < 0) cs n ∧ bounds.low ≤ n ∧ n ≤ bounds.high

theorem le_foldl_digits (n : Nat) (ds : List Char) :
    n ≤ ds.foldl (fun n d => 10 * n + digitValue d) n := by
  induction ds generalizing n with
  | nil => exact Nat.le_refl n
  | cons d ds ih => exact Nat.le_trans (by omega) (ih (10 * n + digitValue d))

/-- Digits are read as long as the number does not exceed the limit, so in the end it does not. -/
theorem readDigits_eq_ok_iff {limit n m : Nat} {excess : NumeralFault} {ds : List Char}
    (hn : n ≤ limit) :
    readDigits limit excess n ds = .ok m ↔
      (∀ d ∈ ds, Text.isAsciiDigit d = true) ∧
        m = ds.foldl (fun n d => 10 * n + digitValue d) n ∧ m ≤ limit := by
  induction ds generalizing n with
  | nil =>
    rw [readDigits, Except.ok.injEq]
    constructor
    · rintro rfl
      exact ⟨by simp, rfl, hn⟩
    · rintro ⟨_, rfl, _⟩
      rfl
  | cons d ds ih =>
    unfold readDigits
    split
    · next hdigit =>
      simp only [List.forall_mem_cons, hdigit, true_and, List.foldl_cons]
      split
      · next hexcess =>
        constructor
        · intro h
          cases h
        · rintro ⟨_, rfl, hm⟩
          have hle := le_foldl_digits (10 * n + digitValue d) ds
          omega
      · next hlimit => exact ih (by omega)
    · next hdigit =>
      constructor
      · intro h
        cases h
      · rintro ⟨hds, _⟩
        exact absurd (hds d List.mem_cons_self) hdigit

theorem readDigits_zero_eq_ok_iff {limit m : Nat} {excess : NumeralFault} {ds : List Char} :
    readDigits limit excess 0 ds = .ok m ↔
      (∀ d ∈ ds, Text.isAsciiDigit d = true) ∧ m = digitsValue ds ∧ m ≤ limit :=
  readDigits_eq_ok_iff (Nat.zero_le limit)

theorem spellsWhole_plus_iff {signed : Bool} {ds : List Char} {n : Int} :
    SpellsWhole signed ('+' :: ds) n ↔
      ds ≠ [] ∧ (∀ d ∈ ds, Text.isAsciiDigit d = true) ∧ n = digitsValue ds := by
  constructor
  · intro h
    cases h with
    | bare _ hds => exact absurd (hds '+' List.mem_cons_self) (by decide)
    | plus hne hds => exact ⟨hne, hds, rfl⟩
  · rintro ⟨hne, hds, rfl⟩
    exact .plus hne hds

theorem spellsWhole_minus_iff {signed : Bool} {ds : List Char} {n : Int} :
    SpellsWhole signed ('-' :: ds) n ↔
      signed = true ∧ ds ≠ [] ∧ (∀ d ∈ ds, Text.isAsciiDigit d = true) ∧ n = -digitsValue ds := by
  constructor
  · intro h
    cases h with
    | bare _ hds => exact absurd (hds '-' List.mem_cons_self) (by decide)
    | minus hsigned hne hds => exact ⟨hsigned, hne, hds, rfl⟩
  · rintro ⟨hsigned, hne, hds, rfl⟩
    exact .minus hsigned hne hds

theorem spellsWhole_bare_iff {signed : Bool} {cs : List Char} {n : Int}
    (hplus : ∀ ds, cs ≠ '+' :: ds) (hminus : ∀ ds, cs ≠ '-' :: ds) :
    SpellsWhole signed cs n ↔
      cs ≠ [] ∧ (∀ d ∈ cs, Text.isAsciiDigit d = true) ∧ n = digitsValue cs := by
  constructor
  · intro h
    cases h with
    | bare hne hds => exact ⟨hne, hds, rfl⟩
    | plus _ _ => exact absurd rfl (hplus _)
    | minus _ _ _ => exact absurd rfl (hminus _)
  · rintro ⟨hne, hds, rfl⟩
    exact .bare hne hds

theorem map_readDigits_eq_ok_iff {limit : Nat} {excess : NumeralFault} {ds : List Char}
    {f : Nat → Int} {n : Int} :
    (readDigits limit excess 0 ds).map f = .ok n ↔
      (∀ d ∈ ds, Text.isAsciiDigit d = true) ∧ n = f (digitsValue ds) ∧
        digitsValue ds ≤ limit := by
  constructor
  · intro h
    cases hread : readDigits limit excess 0 ds with
    | error fault =>
      rw [hread] at h
      cases h
    | ok m =>
      obtain ⟨hds, rfl, hlimit⟩ := readDigits_zero_eq_ok_iff.mp hread
      rw [hread] at h
      exact ⟨hds, (Except.ok.inj h).symm, hlimit⟩
  · rintro ⟨hds, rfl, hlimit⟩
    rw [readDigits_zero_eq_ok_iff.mpr ⟨hds, rfl, hlimit⟩]
    rfl

theorem read_eq_ok_iff {bounds : Bounds} {cs : List Char} {n : Int} (hlow : bounds.low ≤ 0)
    (hhigh : 0 ≤ bounds.high) : bounds.read cs = .ok n ↔ bounds.IsNumeral cs n := by
  unfold read IsNumeral
  split
  · constructor
    · intro h
      cases h
    · rintro ⟨hspells, _⟩
      cases hspells with
      | bare hne _ => exact absurd rfl hne
  · next ds =>
    rw [spellsWhole_plus_iff]
    split
    · next hnil => simp [hnil]
    · next hne =>
      rw [map_readDigits_eq_ok_iff]
      simp only [Int.ofNat_eq_natCast]
      constructor
      · rintro ⟨hds, rfl, hlimit⟩
        exact ⟨⟨hne, hds, rfl⟩, by omega, by omega⟩
      · rintro ⟨⟨_, hds, rfl⟩, _, hle⟩
        exact ⟨hds, rfl, by omega⟩
  · next ds =>
    rw [spellsWhole_minus_iff, decide_eq_true_iff]
    split
    · next h =>
      constructor
      · intro herror
        cases herror
      · rintro ⟨⟨hsigned, hne, _⟩, _⟩
        rcases h with hnil | hunsigned
        · exact absurd hnil hne
        · omega
    · next h =>
      obtain ⟨hne, hsigned⟩ := not_or.mp h
      rw [map_readDigits_eq_ok_iff]
      simp only [Int.ofNat_eq_natCast]
      constructor
      · rintro ⟨hds, rfl, hlimit⟩
        exact ⟨⟨by omega, hne, hds, rfl⟩, by omega, by omega⟩
      · rintro ⟨⟨_, _, hds, rfl⟩, hle, _⟩
        exact ⟨hds, rfl, by omega⟩
  · next hne hplus hminus =>
    rw [spellsWhole_bare_iff hplus hminus, map_readDigits_eq_ok_iff]
    simp only [Int.ofNat_eq_natCast]
    constructor
    · rintro ⟨hds, rfl, hlimit⟩
      exact ⟨⟨hne, hds, rfl⟩, by omega, by omega⟩
    · rintro ⟨⟨_, hds, rfl⟩, _, hle⟩
      exact ⟨hds, rfl, by omega⟩

theorem IsNumeral.unique {bounds : Bounds} {cs : List Char} {m n : Int} (hlow : bounds.low ≤ 0)
    (hhigh : 0 ≤ bounds.high) (hm : bounds.IsNumeral cs m) (hn : bounds.IsNumeral cs n) :
    m = n := by
  have hread := (read_eq_ok_iff hlow hhigh).mpr hm
  rw [(read_eq_ok_iff hlow hhigh).mpr hn] at hread
  exact (Except.ok.inj hread).symm

end Bounds

end FilterChain
