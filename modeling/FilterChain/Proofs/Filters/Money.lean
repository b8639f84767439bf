import FilterChain.Proofs.Document.Numbers
import FilterChain.Proofs.Filters.Independence
import FilterChain.Proofs.Filters.Notation

/-!
# Amounts of money

An amount is a number rounded to a number of places. Its whole part is written in groups of three
digits, and it has a minus sign unless rounding has left nothing of a negative number. What is
written can be turned back into plain notation without loss. A whole number goes through a binary
one, so the amount that is written is the size of the nearest binary number.
-/

namespace FilterChain

def Binary64.value (x : Binary64) : ℚ :=
  if x.negative then -x.size else x.size

theorem Binary64.value_neg_iff {x : Binary64} :
    x.value < 0 ↔ x.negative = true ∧ x.size ≠ 0 := by
  have hsize := x.size_nonneg
  rw [value]
  split
  · next hnegative => rw [neg_lt_zero, hsize.lt_iff_ne', and_iff_right hnegative]
  · next hpositive => simp [hpositive, hsize]

namespace Filters

/-- Digits in groups of three from the right, of which only the first may be shorter. -/
structure IsGrouped (digits first : List Char) (others : List (List Char)) : Prop where
  flatten : first ++ others.flatten = digits
  length_first : 1 ≤ first.length ∧ first.length ≤ 3
  length_others : ∀ group ∈ others, group.length = 3

section Groups

variable {digits first : List Char} {others : List (List Char)}

theorem IsGrouped.length_eq (h : IsGrouped digits first others) :
    digits.length = first.length + 3 * others.length := by
  have hothers : others.map List.length = List.replicate others.length 3 :=
    List.map_eq_replicate_iff.mpr h.length_others
  rw [← h.flatten, List.length_append, List.length_flatten, hothers, List.sum_replicate_nat,
    Nat.mul_comm]

theorem IsGrouped.cons_of_short (h : IsGrouped digits first others) (hshort : first.length < 3)
    (d : Char) : IsGrouped (d :: digits) (d :: first) others where
  flatten := by rw [List.cons_append, h.flatten]
  length_first := by
    rw [List.length_cons]
    omega
  length_others := h.length_others

theorem IsGrouped.cons_of_full (h : IsGrouped digits first others) (hfull : first.length = 3)
    (d : Char) : IsGrouped (d :: digits) [d] (first :: others) where
  flatten := by rw [List.flatten_cons, h.flatten, List.singleton_append]
  length_first := by simp
  length_others := List.forall_mem_cons.mpr ⟨hfull, h.length_others⟩

theorem exists_isGrouped (separator : List Char) (hne : digits ≠ []) :
    ∃ first others, IsGrouped digits first others ∧
      groupThrees separator digits = separator.intercalate (first :: others) := by
  induction digits with
  | nil => exact absurd rfl hne
  | cons d rest ih =>
    by_cases hrest : rest = []
    · subst hrest
      have hsingle : IsGrouped [d] [d] [] := ⟨rfl, by simp, nofun⟩
      exact ⟨[d], [], hsingle, by simp [groupThrees]⟩
    obtain ⟨first, others, hgrouped, htext⟩ := ih hrest
    -- Groups are counted from the right, so the digits behind decide whether `d` opens a new one.
    have hlength := hgrouped.length_eq
    have hfirst := hgrouped.length_first
    by_cases hfull : first.length = 3
    · refine ⟨[d], first :: others, hgrouped.cons_of_full hfull d, ?_⟩
      rw [groupThrees, if_pos ⟨hrest, by omega⟩, htext, List.intercalate_cons_cons]
      rfl
    · refine ⟨d :: first, others, hgrouped.cons_of_short (by omega) d, ?_⟩
      rw [groupThrees, if_neg (by omega), htext, List.intercalate_cons_cons_left]
      rfl

theorem filter_ne_dot {cs : List Char} (h : '.' ∉ cs) : cs.filter (· != '.') = cs := by
  refine List.filter_eq_self.mpr fun c hc => bne_iff_ne.mpr ?_
  rintro rfl
  exact h hc

theorem filter_intercalate_dot {groups : List (List Char)} (h : '.' ∉ groups.flatten) :
    (['.'].intercalate groups).filter (· != '.') = groups.flatten := by
  induction groups with
  | nil => rfl
  | cons group rest ih =>
    rw [List.flatten_cons, List.mem_append, not_or] at h
    obtain ⟨hgroup, hrest⟩ := h
    cases rest with
    | nil => simpa using filter_ne_dot hgroup
    | cons next rest =>
      have hdot : ['.'].filter (· != '.') = [] := rfl
      rw [List.intercalate_cons_cons, List.filter_append, List.filter_append, filter_ne_dot hgroup,
        hdot, List.append_nil, ih hrest]
      rfl

theorem dot_not_mem {ds : List Char} (h : ∀ d ∈ ds, Text.isAsciiDigit d = true) : '.' ∉ ds :=
  fun hdot => absurd (h _ hdot) (by decide)

theorem IsGrouped.filter_dots (h : IsGrouped digits first others)
    (hdigits : ∀ d ∈ digits, Text.isAsciiDigit d = true) (negative : Bool) {rest : List Char}
    (hrest : '.' ∉ rest) :
    (signText negative ++ ['.'].intercalate (first :: others) ++ rest).filter (· != '.') =
      signText negative ++ digits ++ rest := by
  have hsign : '.' ∉ signText negative := by cases negative <;> decide
  have hflatten : (first :: others).flatten = digits := by rw [List.flatten_cons, h.flatten]
  have hgroups := filter_intercalate_dot (hflatten ▸ dot_not_mem hdigits)
  rw [List.filter_append, List.filter_append, filter_ne_dot hsign, hgroups, hflatten,
    filter_ne_dot hrest]

end Groups

/-- The parts of a number rounded to a number of places, of a negative one with a minus sign unless
they are all zeros. -/
structure IsAmount (places : Nat) (x : Binary64) (negative : Bool) (whole frac : List Char) :
    Prop where
  rounded : ∃ n, IsRounded (x.size * 10 ^ places) n ∧ IsFixedPoint places n whole frac
  sign : negative = true ↔ x.value < 0 ∧ ∃ d ∈ whole ++ frac, d ≠ '0'

variable {x : Binary64} {places n : Nat}

theorem isRounded_units (x : Binary64) (places : Nat) :
    IsRounded (x.size * 10 ^ places) (x.units places) := by
  have hrounded := @isRounded_roundDiv (x.numerator * Nat.pow 10 places) _ x.denominator_pos
  rwa [Nat.cast_mul, mul_div_right_comm, Binary64.numerator_div_denominator, Nat.pow_eq,
    Nat.cast_pow, Nat.cast_ofNat] at hrounded

theorem isFixedPoint_splitUnits (places n : Nat) :
    IsFixedPoint places n (splitUnits places n).1 (splitUnits places n).2 := by
  have hsum := Nat.div_add_mod n (10 ^ places)
  have hlt := Nat.mod_lt n (Nat.pow_pos (n := places) (Nat.succ_pos 9))
  have hfrac : ∀ d ∈ (splitUnits places n).2, Text.isAsciiDigit d = true := by
    rw [splitUnits]
    split
    · nofun
    · exact isAsciiDigit_of_mem_paddedDigits _ _
  refine
    { wholeDigits := fun _ => isAsciiDigit_of_mem_decimalDigits
      fracDigits := hfrac
      whole_ne_nil := Nat.toDigits_ne_nil
      noLeadingZero := fun hzero => ?_
      length_frac := ?_
      value := ?_ }
  · have hdiv := eq_zero_of_head?_decimalDigits hzero
    rw [splitUnits, hdiv]
    rfl
  · rw [splitUnits]
    split
    · next hplaces => exact hplaces.symm
    · next hplaces => exact length_paddedDigits (Nat.pos_iff_ne_zero.mpr hplaces) hlt
  · rw [splitUnits, digitsValue_decimalDigits, Nat.pow_eq, Nat.mul_comm]
    split
    · next hplaces =>
      subst hplaces
      rw [pow_zero, Nat.div_one, Nat.one_mul]
      rfl
    · rw [digitsValue_paddedDigits, hsum]

theorem IsFixedPoint.eq_zero_iff {whole frac : List Char} (h : IsFixedPoint places n whole frac) :
    n = 0 ↔ ∀ d ∈ whole ++ frac, d = '0' := by
  rw [← digitsValue_eq_zero_iff (List.forall_mem_append.mpr ⟨h.wholeDigits, h.fracDigits⟩),
    digitsValue_append, h.length_frac, h.value]

theorem units_eq_zero (h : x.size = 0) : x.units places = 0 := by
  have hrounded := isRounded_units x places
  rw [h, zero_mul] at hrounded
  exact hrounded.unique (by simpa using isRounded_natCast 0)

theorem isAmount_splitUnits (x : Binary64) (places : Nat) :
    IsAmount places x (decide (x.negative = true ∧ x.units places ≠ 0))
      (splitUnits places (x.units places)).1 (splitUnits places (x.units places)).2 where
  rounded := ⟨_, isRounded_units x places, isFixedPoint_splitUnits places _⟩
  sign := by
    have hzero := (isFixedPoint_splitUnits places (x.units places)).eq_zero_iff
    have hunits : x.units places ≠ 0 → x.size ≠ 0 := mt units_eq_zero
    have hdigit : (∃ d ∈ (splitUnits places (x.units places)).1 ++
        (splitUnits places (x.units places)).2, d ≠ '0') ↔ x.units places ≠ 0 := by
      rw [Ne, hzero]
      push Not
      rfl
    rw [decide_eq_true_eq, hdigit, Binary64.value_neg_iff]
    constructor
    · rintro ⟨hnegative, hne⟩
      exact ⟨⟨hnegative, hunits hne⟩, hne⟩
    · rintro ⟨⟨hnegative, -⟩, hne⟩
      exact ⟨hnegative, hne⟩

theorem toList_formatNumber (places : Nat) (mark separator : String) (x : Binary64) :
    (formatNumber places mark separator (.finite x)).toList =
      signText (decide (x.negative = true ∧ x.units places ≠ 0)) ++
        groupThrees separator.toList (splitUnits places (x.units places)).1 ++
        (if places = 0 then [] else mark.toList ++ (splitUnits places (x.units places)).2) := by
  rw [formatNumber, String.toList_ofList, signText]
  simp only [decide_eq_true_eq]

theorem map_point_of_digits {ds : List Char} (h : ∀ d ∈ ds, Text.isAsciiDigit d = true) :
    ds.map (fun c => if c = ',' then '.' else c) = ds := by
  refine (List.map_congr_left fun d hd => if_neg ?_).trans ds.map_id
  rintro rfl
  exact absurd (h _ hd) (by decide)

theorem pointForComma_amount {negative : Bool} {whole frac : List Char} (hne : whole ≠ [])
    (hwhole : ∀ d ∈ whole, Text.isAsciiDigit d = true)
    (hfrac : ∀ d ∈ frac, Text.isAsciiDigit d = true) :
    pointForComma (signText negative ++ groupThrees ['.'] whole ++ ',' :: frac) =
      signText negative ++ whole ++ '.' :: frac := by
  obtain ⟨first, others, hgrouped, htext⟩ := exists_isGrouped ['.'] hne
  have hrest : '.' ∉ ',' :: frac :=
    List.not_mem_cons_of_ne_of_not_mem (by decide) (dot_not_mem hfrac)
  have hsign : (signText negative).map (fun c => if c = ',' then '.' else c) =
      signText negative := by
    cases negative <;> rfl
  rw [pointForComma, htext, hgrouped.filter_dots hwhole negative hrest, List.map_append,
    List.map_append, hsign, map_point_of_digits hwhole, List.map_cons, map_point_of_digits hfrac,
    if_pos rfl]

theorem money_eq_ok_iff {v w : Value} :
    money v = .ok w ↔
      ∃ x, asNumber v = .ok x ∧ w = .text (formatNumber 2 "," "." (.finite x)) := by
  rw [money]
  cases asNumber v with
  | error e => simp [bind, Except.bind]
  | ok x => simp [bind, Except.bind, pure, Except.pure, eq_comm]

theorem plainAmount_formatNumber (x : Binary64) :
    plainAmount (.text (formatNumber 2 "," "." (.finite x))) = .ok (.text (String.ofList
      (signText (decide (x.negative = true ∧ x.units 2 ≠ 0)) ++ (splitUnits 2 (x.units 2)).1 ++
        '.' :: (splitUnits 2 (x.units 2)).2))) := by
  have hfixed := isFixedPoint_splitUnits 2 (x.units 2)
  have hplain := @pointForComma_amount (decide (x.negative = true ∧ x.units 2 ≠ 0)) _ _
    hfixed.whole_ne_nil hfixed.wholeDigits hfixed.fracDigits
  rw [← hplain]
  refine congrArg (fun cs => Except.ok (Value.text (String.ofList (pointForComma cs)))) ?_
  rw [toList_formatNumber, if_neg (by decide)]
  rfl

/-- A number is rounded to its places and written with its whole part in groups of three and a
minus sign unless only zeros are left. From what is written of a value's number, the other operation
makes exactly the sign, the whole part, a point and two digits. -/
theorem amounts_are_grouped_and_undone :
    (∀ (x : Binary64) (places : Nat) (mark separator : String),
      ∃ negative whole frac first others,
        IsAmount places x negative whole frac ∧ IsGrouped whole first others ∧
        (formatNumber places mark separator (.finite x)).toList =
          signText negative ++ separator.toList.intercalate (first :: others) ++
            (if places = 0 then [] else mark.toList ++ frac)) ∧
    ∀ v w, money v = .ok w →
      ∃ x negative whole frac shown, asNumber v = .ok x ∧ IsAmount 2 x negative whole frac ∧
        shown.toList = signText negative ++ whole ++ '.' :: frac ∧
        plainAmount w = .ok (.text shown) ∧
        (Registry.builtin.apply "dinheiro|moedaParaFloat" v).outcome = .ok (.text shown) := by
  constructor
  · intro x places mark separator
    have hamount := isAmount_splitUnits x places
    have hwhole := (isFixedPoint_splitUnits places (x.units places)).whole_ne_nil
    obtain ⟨first, others, hgrouped, htext⟩ := exists_isGrouped separator.toList hwhole
    refine ⟨_, _, _, first, others, hamount, hgrouped, ?_⟩
    rw [toList_formatNumber, htext]
  · intro v w hmoney
    obtain ⟨x, hx, rfl⟩ := money_eq_ok_iff.mp hmoney
    have hplain := plainAmount_formatNumber x
    refine ⟨x, _, _, _, _, hx, isAmount_splitUnits x 2, String.toList_ofList, hplain, ?_⟩
    have hspec : "dinheiro|moedaParaFloat" = "dinheiro" ++ "|" ++ "moedaParaFloat" := rfl
    rw [hspec]
    exact Registry.outcome_apply_join (outcome_apply_name rfl hmoney)
      (outcome_apply_name rfl hplain)

/-- A negative amount that is rounded up, and one of which only zeros are left. -/
theorem amounts_are_grouped_and_undone_negative :
    (money (.text "-1234567.895") = .ok (.text "-1.234.567,90") ∧
      (Registry.builtin.apply "dinheiro|moedaParaFloat" (.text "-1234567.895")).outcome =
        .ok (.text "-1234567.90")) ∧
    money (.text "-0.004") = .ok (.text "0,00") ∧
      (Registry.builtin.apply "dinheiro|moedaParaFloat" (.text "-0.004")).outcome =
        .ok (.text "0.00") := by
  have undone {v w plain : Value} (hmoney : money v = .ok w) (hplain : plainAmount w = .ok plain) :
      money v = .ok w ∧
        (Registry.builtin.apply "dinheiro|moedaParaFloat" v).outcome = .ok plain := by
    obtain ⟨_, _, _, _, shown, -, -, -, hundone, houtcome⟩ :=
      amounts_are_grouped_and_undone.2 v w hmoney
    obtain rfl : plain = .text shown := Except.ok.inj (hplain.symm.trans hundone)
    exact ⟨hmoney, houtcome⟩
  exact ⟨undone (by decide +kernel) (by decide +kernel), undone (by decide +kernel)
    (by decide +kernel)⟩

theorem splitUnits_natCast_mul (m : Nat) :
    splitUnits 2 (m * 100) = (decimalDigits m, ['0', '0']) := by
  have hdiv : m * 100 / Nat.pow 10 2 = m := Nat.mul_div_cancel m (by decide)
  have hmod : m * 100 % Nat.pow 10 2 = 0 := Nat.mul_mod_left m 100
  rw [splitUnits, hdiv, hmod]
  rfl

theorem units_of_size_eq_natCast {m : Nat} (h : x.size = m) : x.units 2 = m * 100 := by
  have hrounded := isRounded_units x 2
  have hexact : x.size * 10 ^ 2 = (m * 100 : ℕ) := by
    rw [h]
    push_cast
    norm_num
  rw [hexact] at hrounded
  exact hrounded.unique (isRounded_natCast _)

theorem whole_ne_zero {m : Nat} {n : ℤ} (hx : x.Attracts n.natAbs) (hsize : x.size = m)
    (hn : n ≠ 0) : m ≠ 0 := by
  rintro rfl
  rw [Nat.cast_zero, Binary64.size_eq_zero_iff] at hsize
  have hcanonical := x.canonical.2.2.2
  have hexact := hx.size_eq_natCast (by omega)
  rw [Binary64.size_eq_zero_iff.mpr hsize] at hexact
  have hzero : n.natAbs = 0 := by exact_mod_cast hexact.symm
  omega

theorem IsGrouped.not_written {m : Nat} {first : List Char} {others : List (List Char)}
    {negative : Bool} {shown : List Char} (h : IsGrouped (decimalDigits m) first others)
    (hne : shown.filter (· != '.') ≠ signText negative ++ decimalDigits m ++ [',', '0', '0']) :
    shown ≠ signText negative ++ ['.'].intercalate (first :: others) ++ [',', '0', '0'] := by
  rintro rfl
  refine hne (h.filter_dots (fun _ => isAsciiDigit_of_mem_decimalDigits) negative ?_)
  decide

/-- A whole number of a machine word is written as the amount of the nearest binary number, which is
whole too. No digit is altered exactly if the number is itself the size of one, as every number up
to `2 ^ 53` is. -/
theorem whole_amounts_are_nearest_sizes {n : ℤ} (hlow : -0x8000000000000000 ≤ n)
    (hhigh : n ≤ 0xFFFFFFFFFFFFFFFF) :
    ∃ (x : Binary64) (m : Nat) (first : List Char) (others : List (List Char)) (shown : String),
      x.IsNearest n.natAbs ∧ x.size = m ∧ IsGrouped (decimalDigits m) first others ∧
      shown.toList = signText (decide (n < 0)) ++ ['.'].intercalate (first :: others) ++
        [',', '0', '0'] ∧
      money (.number (.whole n)) = .ok (.text shown) ∧
      (Registry.builtin.apply "dinheiro" (.number (.whole n))).outcome = .ok (.text shown) ∧
      (m = n.natAbs ↔ ∃ y : Binary64, y.size = n.natAbs) ∧
      (n.natAbs ≤ 2 ^ 53 → m = n.natAbs) := by
  have hword : (Value.number (.whole n)).FitsWord := ⟨hlow, hhigh⟩
  obtain ⟨x, hx⟩ := Number.exists_toBinary?_eq_some hword
  obtain ⟨hsign, hattracts⟩ := Binary64.ofInt?_eq_some_iff.mp hx
  obtain ⟨m, hsize⟩ := hattracts.exists_size_eq_natCast
  have hne : decimalDigits m ≠ [] := Nat.toDigits_ne_nil
  obtain ⟨first, others, hgrouped, htext⟩ := exists_isGrouped ['.'] hne
  have hexact : m = n.natAbs ↔ ∃ y : Binary64, y.size = n.natAbs := by
    rw [← hattracts.size_eq_iff, hsize, Nat.cast_inj]
  have hnegative : (x.negative = true ∧ m * 100 ≠ 0) ↔ n < 0 := by
    rw [hsign, decide_eq_true_eq, and_iff_left_iff_imp]
    intro hlt
    have hm := whole_ne_zero hattracts hsize hlt.ne
    omega
  have hshown : (formatNumber 2 "," "." (.finite x)).toList = signText (decide (n < 0)) ++
      ['.'].intercalate (first :: others) ++ [',', '0', '0'] := by
    rw [toList_formatNumber, units_of_size_eq_natCast hsize, splitUnits_natCast_mul, ← htext]
    simp only [hnegative]
    rfl
  have hmoney : money (.number (.whole n)) =
      .ok (.text (formatNumber 2 "," "." (.finite x))) := by
    rw [money_eq_ok_iff]
    exact ⟨x, by simp only [asNumber, hx], rfl⟩
  exact ⟨x, m, first, others, _, hattracts.isNearest, hsize, hgrouped, hshown, hmoney,
    outcome_apply_name rfl hmoney, hexact,
    fun hle => hexact.mpr (Binary64.exists_size_eq_of_le hle)⟩

theorem whole_amounts_are_nearest_sizes_debt :
    (-0x8000000000000000 ≤ (-9007199254740993 : ℤ) ∧
        (-9007199254740993 : ℤ) ≤ 0xFFFFFFFFFFFFFFFF) ∧
      (Registry.builtin.apply "dinheiro" (.number (.whole (-9007199254740993)))).outcome =
        .ok (.text "-9.007.199.254.740.992,00") ∧
      ¬ ∃ y : Binary64, y.size = (9007199254740993 : ℕ) := by
  have hlow : -0x8000000000000000 ≤ (-9007199254740993 : ℤ) := by decide
  have hhigh : (-9007199254740993 : ℤ) ≤ 0xFFFFFFFFFFFFFFFF := by decide
  obtain ⟨x, m, first, others, shown, -, -, hgrouped, hshown, hmoney, houtcome, hexact, -⟩ :=
    whole_amounts_are_nearest_sizes hlow hhigh
  have hwritten : money (.number (.whole (-9007199254740993))) =
      .ok (.text "-9.007.199.254.740.992,00") := by decide +kernel
  obtain rfl : shown = "-9.007.199.254.740.992,00" :=
    Value.text.inj (Except.ok.inj (hmoney.symm.trans hwritten))
  refine ⟨⟨hlow, hhigh⟩, houtcome, fun hsize => ?_⟩
  rw [hexact.mpr hsize] at hgrouped
  exact hgrouped.not_written (by decide) hshown

/-- The last digit of an amount that is no size of a binary number is altered. -/
theorem whole_amount_of_no_size_is_altered :
    money (.number (.whole 9007199254740993)) = .ok (.text "9.007.199.254.740.992,00") ∧
      ¬ ∃ first others shown, IsGrouped (decimalDigits 9007199254740993) first others ∧
        shown.toList = signText false ++ ['.'].intercalate (first :: others) ++ [',', '0', '0'] ∧
        money (.number (.whole 9007199254740993)) = .ok (.text shown) := by
  have hwritten : money (.number (.whole 9007199254740993)) =
      .ok (.text "9.007.199.254.740.992,00") := by decide +kernel
  refine ⟨hwritten, ?_⟩
  rintro ⟨first, others, shown, hgrouped, hshown, hmoney⟩
  obtain rfl : shown = "9.007.199.254.740.992,00" :=
    Value.text.inj (Except.ok.inj (hmoney.symm.trans hwritten))
  exact hgrouped.not_written (by decide) hshown

end Filters

end FilterChain
