import FilterChain.Proofs.Filters.Scaling
import FilterChain.Proofs.Number.Literal
import FilterChain.Proofs.Number.Shortest
import FilterChain.Filters

/-!
# Numbers as texts

A text filter sees a number as its text. The text of a whole number, and that of any other number
of moderate size, is plain notation: digits, with a point among them where it is no whole number,
behind a minus sign for a negative one. The text of a very small or very large number has a power of
ten behind it. Either form denotes the number: it is the nearest to what the text spells.
-/

namespace FilterChain

open Filters (pointBetween)

def plainSize (whole frac : List Char) : ℚ :=
  digitsValue (whole ++ frac) / 10 ^ frac.length

def signText (negative : Bool) : List Char :=
  if negative then ['-'] else []

/-- A sign and digits, and optionally a point and digits. -/
structure IsPlain (cs : List Char) (negative : Bool) (whole frac : List Char) : Prop where
  text : cs = signText negative ++ pointBetween whole frac
  digits : ∀ d ∈ whole ++ frac, Text.isAsciiDigit d = true
  whole_ne_nil : whole ≠ []

def powerText (power : ℤ) : List Char :=
  'e' :: (if power < 0 then '-' else '+') :: decimalDigits power.natAbs

/-- A sign, digits with or without a point, and a power of ten. -/
structure IsScientific (cs : List Char) (negative : Bool) (whole frac : List Char) (power : ℤ) :
    Prop where
  text : cs = signText negative ++ pointBetween whole frac ++ powerText power
  digits : ∀ d ∈ whole ++ frac, Text.isAsciiDigit d = true
  whole_ne_nil : whole ≠ []

/-- A sign and a size stand for a number: for a whole one exactly, for any other if none is
nearer. -/
def Number.IsDenotedBy : Number → Bool → ℚ → Prop
  | .whole n, negative, r => negative = decide (n < 0) ∧ r = n.natAbs
  | .binary x, negative, r => negative = x.negative ∧ x.IsNearest r

/-- A whole number, zero, or a size from `10 ^ -5` on that lies below `10 ^ 16`. -/
def Number.HasPlainSize : Number → Prop
  | .whole _ => True
  | .binary x => x.size = 0 ∨ 10 ^ (-5 : ℤ) ≤ x.size ∧ x.size < 10 ^ (16 : ℤ)

theorem mem_pointBetween {whole frac : List Char} {c : Char} (h : c ∈ pointBetween whole frac) :
    c ∈ whole ++ frac ∨ c = '.' := by
  rw [pointBetween] at h
  split at h
  · exact Or.inl (List.mem_append_left _ h)
  · rcases List.mem_append.mp h with hwhole | hpoint
    · exact Or.inl (List.mem_append_left _ hwhole)
    · rcases List.mem_cons.mp hpoint with rfl | hfrac
      · exact Or.inr rfl
      · exact Or.inl (List.mem_append_right _ hfrac)

theorem IsPlain.letter_not_mem {cs : List Char} {negative : Bool} {whole frac : List Char}
    (h : IsPlain cs negative whole frac) : 'e' ∉ cs := by
  rw [h.text, List.mem_append]
  rintro (hsign | hletter)
  · rw [signText] at hsign
    split at hsign
    · exact absurd (List.mem_singleton.mp hsign) (by decide)
    · cases hsign
  · rcases mem_pointBetween hletter with hdigit | hpoint
    · exact absurd (h.digits _ hdigit) (by decide)
    · exact absurd hpoint (by decide)

theorem IsScientific.letter_mem {cs : List Char} {negative : Bool} {whole frac : List Char}
    {power : ℤ} (h : IsScientific cs negative whole frac power) : 'e' ∈ cs := by
  rw [h.text, powerText]
  exact List.mem_append_right _ List.mem_cons_self

theorem filter_signText (negative : Bool) :
    (signText negative).filter Text.isAsciiDigit = [] := by
  cases negative <;> rfl

theorem IsPlain.filter_digits {cs : List Char} {negative : Bool} {whole frac : List Char}
    (h : IsPlain cs negative whole frac) : cs.filter Text.isAsciiDigit = whole ++ frac := by
  rw [h.text, List.filter_append, filter_signText, List.nil_append]
  exact Filters.filter_pointBetween h.digits

theorem IsScientific.filter_digits {cs : List Char} {negative : Bool} {whole frac : List Char}
    {power : ℤ} (h : IsScientific cs negative whole frac power) :
    cs.filter Text.isAsciiDigit = whole ++ frac ++ decimalDigits power.natAbs := by
  have hpower : (powerText power).filter Text.isAsciiDigit = decimalDigits power.natAbs := by
    have hsign : Text.isAsciiDigit (if power < 0 then '-' else '+') = false := by
      split <;> rfl
    rw [powerText, List.filter_cons_of_neg (by decide), List.filter_cons_of_neg (by simp [hsign])]
    exact List.filter_eq_self.mpr fun _ => isAsciiDigit_of_mem_decimalDigits
  rw [h.text, List.filter_append, List.filter_append, filter_signText, List.nil_append, hpower,
    Filters.filter_pointBetween h.digits]

namespace Binary64

variable {x : Binary64}

def topPower (digits : Nat) (power : ℤ) : ℤ :=
  (decimalDigits digits).length + power - 1

/-- Where the first digit stands near enough to the point, the decimal is written around it. -/
def IsNearPoint (digits : Nat) (power : ℤ) : Prop :=
  -5 ≤ topPower digits power ∧ topPower digits power ≤ 15

def plainDigits (digits : Nat) (power : ℤ) : List Char × List Char :=
  let ds := decimalDigits digits
  let top := topPower digits power
  if 0 ≤ power then (ds ++ List.replicate power.toNat '0', ['0'])
  else if 0 ≤ top then (ds.take (top.toNat + 1), ds.drop (top.toNat + 1))
  else (['0'], List.replicate (-top - 1).toNat '0' ++ ds)

variable {digits : Nat} {power : ℤ}

theorem isAsciiDigit_of_mem_plainDigits (digits : Nat) (power : ℤ) :
    ∀ d ∈ (plainDigits digits power).1 ++ (plainDigits digits power).2,
      Text.isAsciiDigit d = true := by
  have hds : ∀ d ∈ decimalDigits digits, Text.isAsciiDigit d = true :=
    fun _ => isAsciiDigit_of_mem_decimalDigits
  have hzero : ∀ d ∈ ['0'], Text.isAsciiDigit d = true := List.forall_mem_singleton.mpr rfl
  rw [plainDigits]
  split
  · have hzeros := isAsciiDigit_of_mem_replicate_zero_append power.toNat hzero
    rw [List.append_assoc]
    exact List.forall_mem_append.mpr ⟨hds, hzeros⟩
  · split
    · rwa [List.take_append_drop]
    · exact List.forall_mem_append.mpr ⟨hzero, isAsciiDigit_of_mem_replicate_zero_append _ hds⟩

theorem plainDigits_ne_nil (digits : Nat) (power : ℤ) :
    (plainDigits digits power).1 ≠ [] ∧ (plainDigits digits power).2 ≠ [] := by
  have hlength := length_decimalDigits_pos digits
  rw [← List.length_pos_iff, ← List.length_pos_iff, plainDigits]
  split
  · rw [List.length_append, List.length_singleton]
    omega
  · split
    · rw [List.length_take, List.length_drop]
      simp only [topPower] at *
      omega
    · rw [List.length_append, List.length_singleton]
      omega

theorem plainSize_plainDigits (digits : Nat) (power : ℤ) :
    plainSize (plainDigits digits power).1 (plainDigits digits power).2 = digits * 10 ^ power := by
  have hvalue := digitsValue_decimalDigits digits
  have hlength := length_decimalDigits_pos digits
  have hten : (10 : ℚ) ≠ 0 := by norm_num
  rw [plainSize, plainDigits]
  split
  -- Zeros stand between the digits and the point, and one behind it.
  · next hpower =>
    have hzeros : ['0'] = List.replicate 1 '0' := rfl
    obtain ⟨k, rfl⟩ := Int.eq_ofNat_of_zero_le hpower
    rw [hzeros, digitsValue_append_zeros, Int.toNat_natCast, digitsValue_append_zeros, hvalue,
      List.length_replicate, zpow_natCast]
    push_cast
    rw [pow_one, mul_div_cancel_right₀ _ hten]
  · next hpower =>
    obtain ⟨k, hk⟩ : ∃ k : ℕ, power = -(k : ℤ) := ⟨(-power).toNat, by omega⟩
    split
    -- The point stands among the digits.
    · next htop =>
      have hdrop : (decimalDigits digits).length - ((topPower digits power).toNat + 1) = k := by
        simp only [topPower] at *
        omega
      rw [List.take_append_drop, List.length_drop, hdrop, hvalue, hk, zpow_neg, zpow_natCast,
        div_eq_mul_inv]
    -- Zeros stand on both sides of the point.
    · next htop =>
      have hzero : ['0'] = List.replicate 1 '0' := rfl
      have hcount : (-topPower digits power - 1).toNat + (decimalDigits digits).length = k := by
        simp only [topPower] at *
        omega
      rw [hzero, digitsValue_replicate_zero_append, digitsValue_replicate_zero_append, hvalue,
        List.length_append, List.length_replicate, hcount, hk, zpow_neg, zpow_natCast,
        div_eq_mul_inv]

theorem plainSize_scientific (digits : Nat) (power : ℤ) :
    plainSize ((decimalDigits digits).take 1) ((decimalDigits digits).drop 1) *
      10 ^ topPower digits power = digits * 10 ^ power := by
  have hlength := length_decimalDigits_pos digits
  have htop : topPower digits power = ((decimalDigits digits).length - 1 : Nat) + power := by
    rw [topPower]
    omega
  rw [plainSize, List.take_append_drop, digitsValue_decimalDigits, List.length_drop, htop,
    zpow_add₀ (by norm_num), zpow_natCast, ← mul_assoc, div_mul_cancel₀ _ (by positivity)]

theorem text_eq (x : Binary64) :
    x.text = signText x.negative ++
      if -5 ≤ topPower x.shortest.1 x.shortest.2 ∧ topPower x.shortest.1 x.shortest.2 ≤ 15 then
        pointBetween (plainDigits x.shortest.1 x.shortest.2).1
          (plainDigits x.shortest.1 x.shortest.2).2
      else
        pointBetween ((decimalDigits x.shortest.1).take 1) ((decimalDigits x.shortest.1).drop 1) ++
          powerText (topPower x.shortest.1 x.shortest.2) := by
  have hfrac := (plainDigits_ne_nil x.shortest.1 x.shortest.2).2
  have hlength := length_decimalDigits_pos x.shortest.1
  have hsingle : (decimalDigits x.shortest.1).length = 1 ↔
      (decimalDigits x.shortest.1).drop 1 = [] := by
    rw [List.drop_eq_nil_iff]
    omega
  rw [text, sign, ← signText]
  dsimp only
  rw [← topPower]
  congr 1
  split
  · rw [pointBetween, if_neg hfrac, plainDigits]
    split
    · rw [List.append_assoc]
    · split
      · rfl
      · rfl
  · rw [pointBetween, powerText]
    simp only [hsingle]
    split <;> simp

theorem isPlain_or_isScientific (x : Binary64) :
    (IsNearPoint x.shortest.1 x.shortest.2 →
      IsPlain x.text x.negative (plainDigits x.shortest.1 x.shortest.2).1
        (plainDigits x.shortest.1 x.shortest.2).2) ∧
    (¬ IsNearPoint x.shortest.1 x.shortest.2 →
      IsScientific x.text x.negative ((decimalDigits x.shortest.1).take 1)
        ((decimalDigits x.shortest.1).drop 1) (topPower x.shortest.1 x.shortest.2)) := by
  have htext := x.text_eq
  have hlength := length_decimalDigits_pos x.shortest.1
  constructor
  · intro hnear
    rw [IsNearPoint] at hnear
    rw [if_pos hnear] at htext
    exact ⟨htext, isAsciiDigit_of_mem_plainDigits _ _, (plainDigits_ne_nil _ _).1⟩
  · intro hfar
    rw [IsNearPoint] at hfar
    rw [if_neg hfar, ← List.append_assoc] at htext
    refine ⟨htext, ?_, ?_⟩
    · rw [List.take_append_drop]
      exact fun _ => isAsciiDigit_of_mem_decimalDigits
    · rw [← List.length_pos_iff, List.length_take]
      omega

theorem shortest_zero (hx : x.significand = 0) : x.shortest = (0, 0) := by
  rw [shortest, if_pos hx]

theorem attracts_shortest (x : Binary64) : x.Attracts (x.shortest.1 * 10 ^ x.shortest.2) := by
  by_cases hx : x.significand = 0
  · have hsize : x.size = 0 := size_eq_zero_iff.mpr hx
    rw [shortest_zero hx, Nat.cast_zero, zero_mul, ← hsize]
    exact x.attracts_size
  · exact (shortest_spec hx).1

def tenToSixteen : Binary64 where
  negative := false
  significand := 5000000000000000
  exponent := 1
  canonical := by decide

theorem size_tenToSixteen : tenToSixteen.size = 10 ^ (16 : ℤ) := by
  rw [size, tenToSixteen]
  norm_num

def tenToMinusFive : Binary64 where
  negative := false
  significand := 5902958103587057
  exponent := -69
  canonical := by decide

theorem attracts_tenToMinusFive : tenToMinusFive.Attracts (10 ^ (-5 : ℤ)) := by
  have hread : ofDecimal? false 1 (-5) = some tenToMinusFive := by decide +kernel
  simpa using (attracts_of_ofDecimal? hread).2

theorem le_size_tenToMinusFive : 10 ^ (-5 : ℤ) ≤ tenToMinusFive.size := by
  rw [size, tenToMinusFive]
  norm_num

theorem topPower_bounds (h : digits ≠ 0) :
    (10 : ℚ) ^ topPower digits power ≤ digits * 10 ^ power ∧
      (digits : ℚ) * 10 ^ power < 10 ^ (topPower digits power + 1) := by
  have hcount : (digitCount digits : ℤ) + power = topPower digits power + 1 :=
    (sub_add_cancel _ _).symm
  have hbounds := decimal_bounds h power
  rwa [hcount, add_sub_cancel_right] at hbounds

theorem topPower_shortest (hx : x.significand ≠ 0) :
    topPower x.shortest.1 x.shortest.2 = x.leadingPower ∨
      topPower x.shortest.1 x.shortest.2 = x.leadingPower + 1 ∧
        x.Attracts (10 ^ (x.leadingPower + 1)) := by
  obtain ⟨hattracts, hlow, hhigh⟩ := shortest_spec hx
  have hten : (1 : ℚ) < 10 := by norm_num
  have hdigits : x.shortest.1 ≠ 0 := by
    intro hzero
    rw [hzero, Nat.cast_zero, zero_mul] at hlow
    exact absurd hlow (not_le.mpr (by positivity))
  obtain ⟨htop, htop'⟩ := @topPower_bounds _ x.shortest.2 hdigits
  generalize topPower x.shortest.1 x.shortest.2 = top at htop htop'
  generalize (x.shortest.1 : ℚ) * 10 ^ x.shortest.2 = r at hattracts hlow hhigh htop htop'
  have hlead : x.leadingPower < top + 1 := (zpow_lt_zpow_iff_right₀ hten).mp (hlow.trans_lt htop')
  have hlead' : top ≤ x.leadingPower + 1 := (zpow_le_zpow_iff_right₀ hten).mp (htop.trans hhigh)
  rcases hhigh.lt_or_eq with hlt | rfl
  · have hbelow : top < x.leadingPower + 1 := (zpow_lt_zpow_iff_right₀ hten).mp (htop.trans_lt hlt)
    left
    omega
  · have habove : x.leadingPower + 1 < top + 1 := (zpow_lt_zpow_iff_right₀ hten).mp htop'
    right
    exact ⟨by omega, hattracts⟩

/-- The shortest decimal stands near the point exactly if the number lies between the two powers
of ten, neither of which attracts a number outside. -/
theorem isNearPoint_shortest_iff (hx : x.significand ≠ 0) :
    IsNearPoint x.shortest.1 x.shortest.2 ↔
      10 ^ (-5 : ℤ) ≤ x.size ∧ x.size < 10 ^ (16 : ℤ) := by
  rw [IsNearPoint, ← not_le (b := x.size), ← le_leadingPower_iff hx, ← le_leadingPower_iff hx]
  rcases topPower_shortest hx with htop | ⟨htop, hattracts⟩
  · omega
  · have hsmall : x.leadingPower ≠ -6 := by
      intro hlead
      rw [hlead] at hattracts
      have hle := le_size_tenToMinusFive
      rw [← hattracts.size_eq attracts_tenToMinusFive, ← le_leadingPower_iff hx] at hle
      omega
    have hlarge : x.leadingPower ≠ 15 := by
      intro hlead
      rw [hlead] at hattracts
      have hle : 10 ^ (16 : ℤ) ≤ tenToSixteen.size := size_tenToSixteen.ge
      have hself : tenToSixteen.Attracts (10 ^ (16 : ℤ)) :=
        size_tenToSixteen ▸ tenToSixteen.attracts_size
      rw [← hattracts.size_eq hself, ← le_leadingPower_iff hx] at hle
      omega
    omega

theorem isNearPoint_iff (x : Binary64) :
    IsNearPoint x.shortest.1 x.shortest.2 ↔ (Number.binary x).HasPlainSize := by
  rw [Number.HasPlainSize, size_eq_zero_iff]
  by_cases hx : x.significand = 0
  · rw [shortest_zero hx]
    have hnear : IsNearPoint 0 0 := by
      rw [IsNearPoint]
      decide
    exact iff_of_true hnear (Or.inl hx)
  · rw [or_iff_right hx, isNearPoint_shortest_iff hx]

end Binary64

theorem exists_spellsDecimal {whole frac rest : List Char} {power : ℤ}
    (hdigits : ∀ d ∈ whole ++ frac, Text.isAsciiDigit d = true) (hwhole : whole ≠ [])
    (hrest : SpellsPower rest power) :
    ∃ digits power', SpellsDecimal (pointBetween whole frac ++ rest) digits power' ∧
      (digits : ℚ) * 10 ^ power' = plainSize whole frac * 10 ^ power := by
  have hten : (10 : ℚ) ≠ 0 := by norm_num
  obtain ⟨hwholeDigits, hfracDigits⟩ := List.forall_mem_append.mp hdigits
  rw [pointBetween]
  split
  · next hfrac =>
    subst hfrac
    refine ⟨_, _, .whole hwhole hwholeDigits hrest, ?_⟩
    rw [plainSize, List.append_nil, List.length_nil, pow_zero, div_one]
  · rw [List.append_assoc, List.cons_append]
    refine ⟨_, _, .point (List.append_ne_nil_of_left_ne_nil hwhole _) hwholeDigits hfracDigits
      hrest, ?_⟩
    rw [plainSize, zpow_sub₀ hten, zpow_natCast]
    ring

theorem spellsPower_powerText (power : ℤ) : SpellsPower (powerText power) power := by
  have hne : decimalDigits power.natAbs ≠ [] := Nat.toDigits_ne_nil
  have hdigits : ∀ d ∈ decimalDigits power.natAbs, Text.isAsciiDigit d = true :=
    fun _ => isAsciiDigit_of_mem_decimalDigits
  have hvalue := digitsValue_decimalDigits power.natAbs
  refine .given (Or.inl rfl) ?_
  split
  · have hpower : power = -(digitsValue (decimalDigits power.natAbs) : ℤ) := by omega
    rw [Bounds.spellsWhole_minus_iff]
    exact ⟨rfl, hne, hdigits, hpower⟩
  · have hpower : power = (digitsValue (decimalDigits power.natAbs) : ℤ) := by omega
    rw [Bounds.spellsWhole_plus_iff]
    exact ⟨hne, hdigits, hpower⟩

theorem read?_of_attracts {negative : Bool} {whole frac rest : List Char} {power : ℤ}
    {x : Binary64} (hdigits : ∀ d ∈ whole ++ frac, Text.isAsciiDigit d = true)
    (hwhole : whole ≠ []) (hrest : SpellsPower rest power) (hsign : x.negative = negative)
    (hx : x.Attracts (plainSize whole frac * 10 ^ power)) :
    Quantity.read? (signText negative ++ (pointBetween whole frac ++ rest)) =
      some (.finite x) := by
  obtain ⟨digits, power', hspells, hsize⟩ := exists_spellsDecimal hdigits hwhole hrest
  rw [← hsize] at hx
  exact Quantity.read?_of_spellsDecimal hspells (Binary64.ofDecimal?_eq_some_iff.mpr ⟨hsign, hx⟩)

theorem IsPlain.read? {cs : List Char} {negative : Bool} {whole frac : List Char} {x : Binary64}
    (h : IsPlain cs negative whole frac) (hsign : x.negative = negative)
    (hx : x.Attracts (plainSize whole frac)) : Quantity.read? cs = some (.finite x) := by
  have hread := read?_of_attracts h.digits h.whole_ne_nil .absent hsign (by simpa using hx)
  rwa [List.append_nil, ← h.text] at hread

theorem IsScientific.read? {cs : List Char} {negative : Bool} {whole frac : List Char}
    {power : ℤ} {x : Binary64} (h : IsScientific cs negative whole frac power)
    (hsign : x.negative = negative) (hx : x.Attracts (plainSize whole frac * 10 ^ power)) :
    Quantity.read? cs = some (.finite x) := by
  have hread := read?_of_attracts h.digits h.whole_ne_nil (spellsPower_powerText power) hsign hx
  rwa [← List.append_assoc, ← h.text] at hread

namespace Number

variable {n : Number}

theorem isPlain_whole (n : ℤ) :
    IsPlain (Number.whole n).text (decide (n < 0)) (decimalDigits n.natAbs) [] where
  text := by simp [text, signText, pointBetween]
  digits := by
    rw [List.append_nil]
    exact fun _ => isAsciiDigit_of_mem_decimalDigits
  whole_ne_nil := Nat.toDigits_ne_nil

theorem plainSize_whole (n : ℤ) : plainSize (decimalDigits n.natAbs) [] = n.natAbs := by
  rw [plainSize, List.append_nil, digitsValue_decimalDigits, List.length_nil, pow_zero, div_one]

theorem exists_isPlain (h : n.HasPlainSize) :
    ∃ negative whole frac, IsPlain n.text negative whole frac ∧
      n.IsDenotedBy negative (plainSize whole frac) ∧
      ∀ x, n.toBinary? = some x → Quantity.read? n.text = some (.finite x) := by
  cases n with
  | whole n =>
    have hplain := isPlain_whole n
    refine ⟨_, _, _, hplain, ⟨rfl, plainSize_whole n⟩, fun x hx => ?_⟩
    obtain ⟨hsign, hattracts⟩ := Binary64.ofInt?_eq_some_iff.mp hx
    exact hplain.read? hsign (by rwa [plainSize_whole])
  | binary x =>
    have hplain := x.isPlain_or_isScientific.1 (x.isNearPoint_iff.mpr h)
    have hattracts := x.attracts_shortest
    rw [← Binary64.plainSize_plainDigits] at hattracts
    refine ⟨_, _, _, hplain, ⟨rfl, hattracts.isNearest⟩, fun y hy => ?_⟩
    obtain rfl := Option.some.inj hy
    exact hplain.read? rfl hattracts

theorem exists_isScientific (h : ¬ n.HasPlainSize) :
    ∃ negative whole frac power, IsScientific n.text negative whole frac power ∧
      n.IsDenotedBy negative (plainSize whole frac * 10 ^ power) ∧
      ∀ x, n.toBinary? = some x → Quantity.read? n.text = some (.finite x) := by
  cases n with
  | whole n => exact absurd trivial h
  | binary x =>
    have hscientific := x.isPlain_or_isScientific.2 (mt x.isNearPoint_iff.mp h)
    have hattracts := x.attracts_shortest
    rw [← Binary64.plainSize_scientific] at hattracts
    refine ⟨_, _, _, _, hscientific, ⟨rfl, hattracts.isNearest⟩, fun y hy => ?_⟩
    obtain rfl := Option.some.inj hy
    exact hscientific.read? rfl hattracts

theorem read?_text (n : Number) :
    ∀ x, n.toBinary? = some x → Quantity.read? n.text = some (.finite x) := by
  by_cases hsize : n.HasPlainSize
  · obtain ⟨_, _, _, -, -, hread⟩ := exists_isPlain hsize
    exact hread
  · obtain ⟨_, _, _, _, -, -, hread⟩ := exists_isScientific hsize
    exact hread

end Number

namespace Filters

variable {n : Number}

/-- Filters that hand back the value itself, or that take a number for what it is. -/
def valueFilters : List String :=
  ["null", "emailValidator", "dinheiro"]

theorem body_number_eq_body_text (n : Number) :
    ∀ operation ∈ textOperations ++ amountOperations, operation.name ∉ valueFilters →
      ∀ args, operation.body (.number n) args =
        operation.body (.text (String.ofList n.text)) args := by
  have hvalue {name : String} {P : Prop} (hmem : name ∈ valueFilters) :
      name ∉ valueFilters → P := fun hnot => absurd hmem hnot
  simp only [textOperations, amountOperations, List.cons_append, List.nil_append,
    List.forall_mem_cons, List.not_mem_nil, false_imp_iff, implies_true, and_true]
  exact ⟨hvalue (by decide), fun _ _ => rfl, fun _ _ => rfl, fun _ _ => rfl, fun _ _ => rfl,
    fun _ _ => rfl, fun _ _ => rfl, fun _ _ => rfl, fun _ _ => rfl, fun _ _ => rfl,
    hvalue (by decide), fun _ _ => rfl, fun _ _ => rfl, fun _ _ => rfl, fun _ _ => rfl,
    fun _ _ => rfl, hvalue (by decide)⟩

/-- Any other filter on texts and amounts does with a number what it does with its text. -/
theorem call_number_eq_call_text {operation : Operation}
    (hmem : operation ∈ textOperations ++ amountOperations)
    (hname : operation.name ∉ valueFilters) (n : Number) (raw : List String) :
    operation.call (.number n) raw = operation.call (.text (String.ofList n.text)) raw := by
  have hbody := body_number_eq_body_text n operation hmem hname
  rw [Operation.call, Operation.call]
  simp only [hbody]

theorem digitsOnly_number (n : Number) : digitsOnly (.number n) =
    .ok (.text (String.ofList (n.text.filter Text.isAsciiDigit))) := by
  change Except.ok (Value.text (String.ofList (keepDigits (String.ofList n.text).toList))) = _
  rw [String.toList_ofList, keepDigits]

theorem exists_isFixedPoint_of_isPlain {negative : Bool} {whole frac : List Char}
    (h : IsPlain n.text negative whole frac) (places : Nat) :
    ∃ i f, scale places (.number n) = .ok (.text (String.ofList (pointBetween i f))) ∧
      IsFixedPoint places (digitsValue (whole ++ frac)) i f := by
  have htext : (Value.number n).asText = .ok (String.ofList n.text) := rfl
  have hdigits : (String.ofList n.text).toList.filter Text.isAsciiDigit = whole ++ frac := by
    rw [String.toList_ofList, h.filter_digits]
  have hne : whole ++ frac ≠ [] := List.append_ne_nil_of_left_ne_nil h.whole_ne_nil _
  rw [← hdigits] at hne ⊢
  exact exists_isFixedPoint_of_scale htext hne places

/-- The text of a number denotes it and is read as it. It is plain exactly for whole numbers, zero
and sizes from `10 ^ -5` on that lie below `10 ^ 16`: then the text filters see the digits of its
decimal expansion and nothing else. For all other numbers they see the digits of a power of ten
behind those of the number. -/
theorem texts_denote_their_numbers (n : Number) :
    ∃ s, (Value.number n).asText = .ok s ∧
      ((∃ negative whole frac, IsPlain s.toList negative whole frac) ↔ n.HasPlainSize) ∧
      (n.HasPlainSize → ∃ negative whole frac, IsPlain s.toList negative whole frac ∧
        n.IsDenotedBy negative (plainSize whole frac) ∧
        digitsOnly (.number n) = .ok (.text (String.ofList (whole ++ frac))) ∧
        ∀ places, ∃ i f,
          scale places (.number n) = .ok (.text (String.ofList (pointBetween i f))) ∧
            IsFixedPoint places (digitsValue (whole ++ frac)) i f) ∧
      (¬ n.HasPlainSize → ∃ negative whole frac power,
        IsScientific s.toList negative whole frac power ∧
        n.IsDenotedBy negative (plainSize whole frac * 10 ^ power) ∧
        digitsOnly (.number n) =
          .ok (.text (String.ofList (whole ++ frac ++ decimalDigits power.natAbs)))) ∧
      (∀ x, n.toBinary? = some x → Quantity.read? s.toList = some (.finite x)) ∧
      ∀ operation ∈ textOperations ++ amountOperations, operation.name ∉ valueFilters →
        ∀ raw, operation.call (.number n) raw = operation.call (.text s) raw := by
  refine ⟨String.ofList n.text, rfl, ?_, ?_, ?_, ?_, ?_⟩
  · rw [String.toList_ofList]
    constructor
    · rintro ⟨negative, whole, frac, hplain⟩
      by_contra hsize
      obtain ⟨_, _, _, _, hscientific, -⟩ := Number.exists_isScientific hsize
      exact hplain.letter_not_mem hscientific.letter_mem
    · intro hsize
      obtain ⟨negative, whole, frac, hplain, -⟩ := Number.exists_isPlain hsize
      exact ⟨negative, whole, frac, hplain⟩
  · intro hsize
    obtain ⟨negative, whole, frac, hplain, hdenoted, -⟩ := Number.exists_isPlain hsize
    refine ⟨negative, whole, frac, ?_, hdenoted, ?_, exists_isFixedPoint_of_isPlain hplain⟩
    · rwa [String.toList_ofList]
    · rw [digitsOnly_number, hplain.filter_digits]
  · intro hsize
    obtain ⟨negative, whole, frac, power, hscientific, hdenoted, -⟩ :=
      Number.exists_isScientific hsize
    refine ⟨negative, whole, frac, power, ?_, hdenoted, ?_⟩
    · rwa [String.toList_ofList]
    · rw [digitsOnly_number, hscientific.filter_digits]
  · rw [String.toList_ofList]
    exact n.read?_text
  · exact fun operation hmem hname raw => call_number_eq_call_text hmem hname n raw

/-- The number read from `1e-7`. Its text is no plain notation, and the digits that are kept of it
are those of another number. -/
theorem text_of_tenth_millionth_is_not_plain :
    ∃ x, Quantity.read? "1e-7".toList = some (.finite x) ∧
      (Value.number (.binary x)).asText = .ok "1e-7" ∧
      (¬ ∃ negative whole frac, IsPlain "1e-7".toList negative whole frac) ∧
      digitsOnly (.number (.binary x)) = .ok (.text "17") := by
  refine ⟨⟨false, 7555786372591432, -76, by decide⟩, by decide +kernel, by decide +kernel, ?_,
    by decide +kernel⟩
  rintro ⟨negative, whole, frac, hplain⟩
  exact hplain.letter_not_mem (by decide)

end Filters

end FilterChain
