import FilterChain.Proofs.Number.Digits
import FilterChain.Proofs.Number.Numeral
import FilterChain.Proofs.Number.Rounding

/-!
# Decimal literals

A decimal is spelled by digits with an optional point, at least one of them, and an optional power
of ten. A text denotes a finite number exactly if it is a decimal behind an optional sign and lies
below the point of overflow; the words for infinity and for what is no number are no decimals.
-/

namespace FilterChain

inductive SpellsPower : List Char → Int → Prop where
  | absent : SpellsPower [] 0
  | given {e : Char} {cs : List Char} {n : Int} (he : e = 'e' ∨ e = 'E')
      (hspells : SpellsWhole true cs n) : SpellsPower (e :: cs) n

/-- A text spells `digits * 10 ^ power`. -/
inductive SpellsDecimal : List Char → Nat → Int → Prop where
  | whole {ds rest : List Char} {power : Int} (hne : ds ≠ [])
      (hds : ∀ d ∈ ds, Text.isAsciiDigit d = true) (hrest : SpellsPower rest power) :
      SpellsDecimal (ds ++ rest) (digitsValue ds) power
  | point {whole frac rest : List Char} {power : Int} (hne : whole ++ frac ≠ [])
      (hwhole : ∀ d ∈ whole, Text.isAsciiDigit d = true)
      (hfrac : ∀ d ∈ frac, Text.isAsciiDigit d = true) (hrest : SpellsPower rest power) :
      SpellsDecimal (whole ++ '.' :: (frac ++ rest)) (digitsValue (whole ++ frac))
        (power - frac.length)

/-- A text is an optional sign and a decimal that lies below the point of overflow. -/
def IsFiniteLiteral (cs : List Char) : Prop :=
  ∃ body digits power, (cs = body ∨ cs = '+' :: body ∨ cs = '-' :: body) ∧
    SpellsDecimal body digits power ∧ (digits : ℚ) * 10 ^ power < Binary64.overflow

theorem readWhole?_eq_some_iff {ds : List Char} {n : Int} :
    readWhole? ds = some n ↔
      ds ≠ [] ∧ (∀ d ∈ ds, Text.isAsciiDigit d = true) ∧ n = digitsValue ds := by
  rw [← List.all_eq_true, readWhole?]
  split
  · next h =>
    constructor
    · intro hsome
      exact ⟨h.1, h.2, (Option.some.inj hsome).symm⟩
    · rintro ⟨_, _, rfl⟩
      rfl
  · next h =>
    constructor
    · intro hsome
      cases hsome
    · rintro ⟨hne, hds, _⟩
      exact absurd ⟨hne, hds⟩ h

theorem map_neg_readWhole?_eq_some_iff {ds : List Char} {n : Int} :
    (readWhole? ds).map (fun m => -m) = some n ↔
      ds ≠ [] ∧ (∀ d ∈ ds, Text.isAsciiDigit d = true) ∧ n = -digitsValue ds := by
  rw [Option.map_eq_some_iff]
  constructor
  · rintro ⟨m, hm, rfl⟩
    obtain ⟨hne, hds, rfl⟩ := readWhole?_eq_some_iff.mp hm
    exact ⟨hne, hds, rfl⟩
  · rintro ⟨hne, hds, rfl⟩
    exact ⟨_, readWhole?_eq_some_iff.mpr ⟨hne, hds, rfl⟩, rfl⟩

theorem spellsPower_cons_iff {e : Char} {r : List Char} {n : Int} :
    SpellsPower (e :: r) n ↔ (e = 'e' ∨ e = 'E') ∧ SpellsWhole true r n := by
  constructor
  · intro h
    cases h with
    | given he hspells => exact ⟨he, hspells⟩
  · rintro ⟨he, hspells⟩
    exact .given he hspells

theorem readPower?_eq_some_iff {cs : List Char} {n : Int} :
    readPower? cs = some n ↔ SpellsPower cs n := by
  unfold readPower?
  split
  · constructor
    · intro h
      obtain rfl := Option.some.inj h
      exact .absent
    · intro h
      cases h
      rfl
  · next e r =>
    rw [spellsPower_cons_iff]
    split
    · next he =>
      rw [and_iff_right he]
      split
      · rw [Bounds.spellsWhole_plus_iff, readWhole?_eq_some_iff]
      · rw [Bounds.spellsWhole_minus_iff, map_neg_readWhole?_eq_some_iff, and_iff_right rfl]
      · next hplus hminus =>
        rw [Bounds.spellsWhole_bare_iff hplus hminus, readWhole?_eq_some_iff]
    · next he =>
      constructor
      · intro h
        cases h
      · rintro ⟨hletter, _⟩
        exact absurd hletter he

theorem SpellsPower.head_not_digit {cs : List Char} {n : Int} (h : SpellsPower cs n) :
    ∀ c, cs.head? = some c → Text.isAsciiDigit c = false := by
  intro c hc
  cases h with
  | absent => cases hc
  | given he _ =>
    obtain rfl := Option.some.inj hc
    rcases he with rfl | rfl <;> decide

theorem SpellsPower.ne_point {cs : List Char} {n : Int} (h : SpellsPower cs n) (r : List Char) :
    cs ≠ '.' :: r := by
  rintro rfl
  cases h with
  | given he _ => rcases he with he | he <;> exact absurd he (by decide)

theorem parts_of_cutFraction {cs frac rest : List Char} (h : cutFraction cs = (frac, rest)) :
    (cs = '.' :: (frac ++ rest) ∧ ∀ d ∈ frac, Text.isAsciiDigit d = true) ∨
      frac = [] ∧ rest = cs := by
  unfold cutFraction at h
  split at h
  · next r =>
    obtain ⟨rfl, rfl⟩ := Prod.mk.inj h
    rw [List.takeWhile_append_dropWhile]
    exact Or.inl ⟨rfl, all_takeWhile_digits r⟩
  · obtain ⟨rfl, rfl⟩ := Prod.mk.inj h
    exact Or.inr ⟨rfl, rfl⟩

theorem readDecimal?_eq_some_iff {cs : List Char} {digits : Nat} {power : Int} :
    readDecimal? cs = some (digits, power) ↔ SpellsDecimal cs digits power := by
  constructor
  · intro h
    have hcs : cs.takeWhile Text.isAsciiDigit ++ cs.dropWhile Text.isAsciiDigit = cs :=
      List.takeWhile_append_dropWhile
    have hwhole := all_takeWhile_digits cs
    rw [readDecimal?] at h
    cases hcut : cutFraction (cs.dropWhile Text.isAsciiDigit) with
    | mk frac rest =>
      simp only [hcut] at h
      obtain ⟨hne, hmap⟩ := Option.ite_none_left_eq_some.mp h
      obtain ⟨n, hpower, hpair⟩ := Option.map_eq_some_iff.mp hmap
      obtain ⟨rfl, rfl⟩ := Prod.mk.inj hpair
      have hrest := readPower?_eq_some_iff.mp hpower
      rcases parts_of_cutFraction hcut with ⟨hpoint, hfrac⟩ | ⟨rfl, hbare⟩
      · have hspells := SpellsDecimal.point hne hwhole hfrac hrest
        rwa [← hpoint, hcs] at hspells
      · rw [List.append_nil] at hne ⊢
        have hspells := SpellsDecimal.whole hne hwhole hrest
        rw [hbare, hcs] at hspells
        simpa using hspells
  · intro h
    cases h with
    | @whole ds rest power hne hds hrest =>
      obtain ⟨htake, hdrop⟩ := takeWhile_digits_append hds hrest.head_not_digit
      have hcut : cutFraction rest = ([], rest) := by
        unfold cutFraction
        split
        · next r => exact absurd rfl (hrest.ne_point r)
        · rfl
      simp [readDecimal?, htake, hdrop, hcut, hne, readPower?_eq_some_iff.mpr hrest]
    | @point whole frac rest power hne hwhole hfrac hrest =>
      have hpoint : ∀ c, ('.' :: (frac ++ rest)).head? = some c → Text.isAsciiDigit c = false := by
        intro c hc
        obtain rfl := Option.some.inj hc
        decide
      obtain ⟨htake, hdrop⟩ := takeWhile_digits_append hwhole hpoint
      obtain ⟨htake', hdrop'⟩ := takeWhile_digits_append hfrac hrest.head_not_digit
      have hcut : cutFraction ('.' :: (frac ++ rest)) = (frac, rest) := by
        rw [cutFraction, htake', hdrop']
      simp only [readDecimal?, htake, hdrop, hcut, if_neg hne, readPower?_eq_some_iff.mpr hrest,
        Option.map_some]

theorem lowerAscii_of_isAsciiDigit {c : Char} (h : Text.isAsciiDigit c = true) :
    Text.lowerAscii c = c := by
  simp only [Text.isAsciiDigit, Bool.and_eq_true, decide_eq_true_eq] at h
  rw [Text.lowerAscii, if_neg]
  rintro ⟨hle, _⟩
  exact absurd (Char.le_trans hle h.2) (by decide)

/-- A decimal starts with a digit or a point, and so with no letter. -/
theorem SpellsDecimal.exists_head {cs : List Char} {digits : Nat} {power : Int}
    (h : SpellsDecimal cs digits power) :
    ∃ c rest, cs = c :: rest ∧ (Text.isAsciiDigit c = true ∨ c = '.') := by
  cases h with
  | @whole ds rest _ hne hds _ =>
    obtain ⟨d, ds, rfl⟩ := List.exists_cons_of_ne_nil hne
    exact ⟨d, ds ++ rest, rfl, Or.inl (hds d List.mem_cons_self)⟩
  | @point whole frac rest _ _ hwhole _ _ =>
    cases whole with
    | nil => exact ⟨'.', frac ++ rest, rfl, Or.inr rfl⟩
    | cons d ds => exact ⟨d, ds ++ '.' :: (frac ++ rest), rfl, Or.inl (hwhole d List.mem_cons_self)⟩

theorem SpellsDecimal.ne_word {cs : List Char} {digits : Nat} {power : Int}
    (h : SpellsDecimal cs digits power) (word : String) {letter : Char}
    (hletter : word.toList.head? = some letter) (hdigit : Text.isAsciiDigit letter = false)
    (hpoint : letter ≠ '.') : String.ofList (cs.map Text.lowerAscii) ≠ word := by
  obtain ⟨c, rest, rfl, hc⟩ := h.exists_head
  rintro rfl
  rw [String.toList_ofList, List.map_cons, List.head?_cons, Option.some.injEq] at hletter
  rcases hc with hc | rfl
  · rw [lowerAscii_of_isAsciiDigit hc] at hletter
    rw [hletter, hdigit] at hc
    cases hc
  · exact hpoint hletter.symm

theorem SpellsDecimal.ne_sign {cs : List Char} {digits : Nat} {power : Int}
    (h : SpellsDecimal cs digits power) (r : List Char) : cs ≠ '+' :: r ∧ cs ≠ '-' :: r := by
  obtain ⟨c, rest, rfl, hc⟩ := h.exists_head
  constructor <;>
  · intro heq
    obtain rfl := (List.cons.inj heq).1
    rcases hc with hc | hc <;> exact absurd hc (by decide)

namespace Quantity

variable {negative : Bool} {cs : List Char} {digits : Nat} {power : Int} {x : Binary64}

/-- No word is a decimal, so a decimal is read as what it spells. -/
theorem readUnsigned?_of_spellsDecimal (hspells : SpellsDecimal cs digits power)
    (hx : Binary64.ofDecimal? negative digits power = some x) :
    readUnsigned? negative cs = some (.finite x) := by
  have hinf := hspells.ne_word "inf" rfl (by decide) (by decide)
  have hinfinity := hspells.ne_word "infinity" rfl (by decide) (by decide)
  have hnan := hspells.ne_word "nan" rfl (by decide) (by decide)
  simp only [readUnsigned?, hinf, hinfinity, hnan, or_self, if_false,
    readDecimal?_eq_some_iff.mpr hspells, Option.map_some, hx]

theorem readUnsigned?_eq_finite_iff :
    (∃ x, readUnsigned? negative cs = some (.finite x)) ↔
      ∃ digits power, SpellsDecimal cs digits power ∧
        (digits : ℚ) * 10 ^ power < Binary64.overflow := by
  constructor
  · rintro ⟨x, h⟩
    dsimp only [readUnsigned?] at h
    split at h
    · cases h
    · split at h
      · cases h
      · obtain ⟨⟨digits, power⟩, hread, hround⟩ := Option.map_eq_some_iff.mp h
        refine ⟨digits, power, readDecimal?_eq_some_iff.mp hread, ?_⟩
        rw [← Binary64.isSome_ofDecimal?_iff negative]
        cases hdecimal : Binary64.ofDecimal? negative digits power with
        | some y => rfl
        | none =>
          simp only [hdecimal] at hround
          cases hround
  · rintro ⟨digits, power, hspells, hvalue⟩
    rw [← Binary64.isSome_ofDecimal?_iff negative, Option.isSome_iff_exists] at hvalue
    obtain ⟨x, hx⟩ := hvalue
    exact ⟨x, readUnsigned?_of_spellsDecimal hspells hx⟩

theorem read?_of_spellsDecimal (hspells : SpellsDecimal cs digits power)
    (hx : Binary64.ofDecimal? negative digits power = some x) :
    read? ((if negative then ['-'] else []) ++ cs) = some (.finite x) := by
  cases negative with
  | true => exact readUnsigned?_of_spellsDecimal hspells hx
  | false =>
    unfold read?
    split
    · next r heq => exact absurd heq (hspells.ne_sign r).2
    · next r heq => exact absurd heq (hspells.ne_sign r).1
    · exact readUnsigned?_of_spellsDecimal hspells hx

theorem exists_read?_eq_finite_iff :
    (∃ x, read? cs = some (.finite x)) ↔ IsFiniteLiteral cs := by
  constructor
  · intro h
    unfold read? at h
    split at h
    · next r =>
      obtain ⟨digits, power, hfinite⟩ := readUnsigned?_eq_finite_iff.mp h
      exact ⟨r, digits, power, Or.inr (Or.inr rfl), hfinite⟩
    · next r =>
      obtain ⟨digits, power, hfinite⟩ := readUnsigned?_eq_finite_iff.mp h
      exact ⟨r, digits, power, Or.inr (Or.inl rfl), hfinite⟩
    · obtain ⟨digits, power, hfinite⟩ := readUnsigned?_eq_finite_iff.mp h
      exact ⟨cs, digits, power, Or.inl rfl, hfinite⟩
  · rintro ⟨body, digits, power, rfl | rfl | rfl, hfinite⟩
    · unfold read?
      split
      · next r => exact absurd rfl (hfinite.1.ne_sign r).2
      · next r => exact absurd rfl (hfinite.1.ne_sign r).1
      · exact readUnsigned?_eq_finite_iff.mpr ⟨digits, power, hfinite⟩
    · exact readUnsigned?_eq_finite_iff.mpr ⟨digits, power, hfinite⟩
    · exact readUnsigned?_eq_finite_iff.mpr ⟨digits, power, hfinite⟩

end Quantity

end FilterChain
