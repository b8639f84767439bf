import FilterChain.Proofs.Number.Digits
import FilterChain.Proofs.Operation.Arguments
import FilterChain.Filters
import Mathlib.Data.List.Nodup

/-!
# Exact scaling

The digits of a text, however many, are divided by a power of ten by a point in front of the last
of them. No digit is lost or rounded, so that the same text can be scaled again, and only the last
scaling counts.
-/

namespace FilterChain.Filters

/-- A whole part without needless zeros and `places` digits of a fraction, which make `n` units of
the last place. -/
structure IsFixedPoint (places n : Nat) (whole frac : List Char) : Prop where
  wholeDigits : ∀ d ∈ whole, Text.isAsciiDigit d = true
  fracDigits : ∀ d ∈ frac, Text.isAsciiDigit d = true
  whole_ne_nil : whole ≠ []
  noLeadingZero : whole.head? = some '0' → whole = ['0']
  length_frac : frac.length = places
  value : digitsValue whole * 10 ^ places + digitsValue frac = n

def pointBetween (whole frac : List Char) : List Char :=
  if frac = [] then whole else whole ++ '.' :: frac

def significantDigits (digits : List Char) : List Char :=
  digits.dropWhile (· == '0')

theorem head?_significantDigits_ne (digits : List Char) :
    (significantDigits digits).head? ≠ some '0' := by
  intro h
  have hstop := List.head?_dropWhile_not (· == '0') digits
  rw [significantDigits] at h
  rw [h] at hstop
  exact absurd hstop (by decide)

theorem significantDigits_of_head?_ne {digits : List Char} (h : digits.head? ≠ some '0') :
    significantDigits digits = digits := by
  cases digits with
  | nil => rfl
  | cons d ds => exact List.dropWhile_cons_of_neg (by simpa using h)

theorem significantDigits_replicate_zero_append (n : Nat) (digits : List Char) :
    significantDigits (List.replicate n '0' ++ digits) = significantDigits digits :=
  List.dropWhile_append_of_pos fun d hd => by simp [List.eq_of_mem_replicate hd]

def paddedDigitsFor (places : Nat) (digits : List Char) : List Char :=
  List.replicate (places + 1 - (significantDigits digits).length) '0' ++ significantDigits digits

variable {places : Nat} {digits : List Char}

theorem lt_length_paddedDigitsFor (places : Nat) (digits : List Char) :
    places < (paddedDigitsFor places digits).length := by
  rw [paddedDigitsFor, List.length_append, List.length_replicate]
  omega

theorem digitsValue_paddedDigitsFor (places : Nat) (digits : List Char) :
    digitsValue (paddedDigitsFor places digits) = digitsValue digits := by
  rw [paddedDigitsFor, digitsValue_replicate_zero_append]
  exact digitsValue_dropWhile_zero digits

theorem isAsciiDigit_of_mem_paddedDigitsFor (places : Nat)
    (h : ∀ d ∈ digits, Text.isAsciiDigit d = true) :
    ∀ d ∈ paddedDigitsFor places digits, Text.isAsciiDigit d = true :=
  isAsciiDigit_of_mem_replicate_zero_append _ fun d hd => h d ((List.dropWhile_sublist _).mem hd)

theorem take_paddedDigitsFor_of_head? {n : Nat}
    (hlength : (paddedDigitsFor places digits).length = n + places)
    (h : ((paddedDigitsFor places digits).take n).head? = some '0') :
    (paddedDigitsFor places digits).take n = ['0'] := by
  rw [paddedDigitsFor] at *
  rw [List.length_append, List.length_replicate] at hlength
  by_cases hshort : (significantDigits digits).length ≤ places
  · have hn : n = 1 := by omega
    obtain ⟨k, hk⟩ : ∃ k, places + 1 - (significantDigits digits).length = k + 1 :=
      ⟨places - (significantDigits digits).length, by omega⟩
    rw [hn, hk, List.replicate_succ, List.cons_append, List.take_succ_cons, List.take_zero]
  · rw [show places + 1 - (significantDigits digits).length = 0 by omega, List.replicate_zero,
      List.nil_append, List.head?_take] at h
    split at h
    · cases h
    · exact absurd h (head?_significantDigits_ne digits)

theorem pointBetween_of_length {whole frac : List Char} (h : frac.length = places) :
    pointBetween whole frac = if places = 0 then whole else whole ++ '.' :: frac := by
  subst h
  cases frac <;> rfl

theorem scaleDigits_eq_pointBetween (places : Nat) (digits : List Char) :
    ∃ whole frac, scaleDigits places digits = pointBetween whole frac ∧
      whole ++ frac = paddedDigitsFor places digits ∧ frac.length = places ∧ whole ≠ [] := by
  have hlt := lt_length_paddedDigitsFor places digits
  have hcut := List.take_append_drop ((paddedDigitsFor places digits).length - places)
    (paddedDigitsFor places digits)
  have hfrac : ((paddedDigitsFor places digits).drop
      ((paddedDigitsFor places digits).length - places)).length = places := by
    rw [List.length_drop]
    omega
  have hscale : scaleDigits places digits = pointBetween
      ((paddedDigitsFor places digits).take ((paddedDigitsFor places digits).length - places))
      ((paddedDigitsFor places digits).drop ((paddedDigitsFor places digits).length - places)) :=
    (pointBetween_of_length hfrac).symm
  refine ⟨_, _, hscale, hcut, hfrac, ?_⟩
  rw [← List.length_pos_iff, List.length_take]
  omega

theorem isFixedPoint_of_append_eq {whole frac : List Char}
    (hdigits : ∀ d ∈ digits, Text.isAsciiDigit d = true)
    (happend : whole ++ frac = paddedDigitsFor places digits) (hfrac : frac.length = places)
    (hwhole : whole ≠ []) : IsFixedPoint places (digitsValue digits) whole frac := by
  have hpadded := isAsciiDigit_of_mem_paddedDigitsFor places hdigits
  rw [← happend] at hpadded
  have htake : (paddedDigitsFor places digits).take whole.length = whole := by
    rw [← happend, List.take_left]
  have hlength : (paddedDigitsFor places digits).length = whole.length + places := by
    rw [← happend, List.length_append, hfrac]
  refine
    { wholeDigits := fun d hd => hpadded d (List.mem_append_left _ hd)
      fracDigits := fun d hd => hpadded d (List.mem_append_right _ hd)
      whole_ne_nil := hwhole
      noLeadingZero := fun hzero => ?_
      length_frac := hfrac
      value := ?_ }
  · have hone := take_paddedDigitsFor_of_head? hlength (by rwa [htake])
    rwa [htake] at hone
  · rw [← hfrac, ← digitsValue_append, happend, digitsValue_paddedDigitsFor]

theorem filter_pointBetween {whole frac : List Char}
    (h : ∀ d ∈ whole ++ frac, Text.isAsciiDigit d = true) :
    (pointBetween whole frac).filter Text.isAsciiDigit = whole ++ frac := by
  obtain ⟨hwhole, hfrac⟩ := List.forall_mem_append.mp h
  rw [pointBetween]
  split
  · next hnil => rw [List.filter_eq_self.mpr hwhole, hnil, List.append_nil]
  · rw [List.filter_append, List.filter_cons_of_neg (by decide), List.filter_eq_self.mpr hwhole,
      List.filter_eq_self.mpr hfrac]

theorem scaleDigits_paddedDigitsFor (again places : Nat) (digits : List Char) :
    scaleDigits again (paddedDigitsFor places digits) = scaleDigits again digits := by
  have hsame : significantDigits (paddedDigitsFor places digits) = significantDigits digits := by
    rw [paddedDigitsFor, significantDigits_replicate_zero_append]
    exact significantDigits_of_head?_ne (head?_significantDigits_ne digits)
  rw [significantDigits, significantDigits] at hsame
  rw [scaleDigits, scaleDigits, hsame]

theorem scale_of_asText {v : Value} {s : String} (hs : v.asText = .ok s)
    (hdigit : s.toList.filter Text.isAsciiDigit ≠ []) (places : Nat) :
    scale places v = .ok (.text (String.ofList
      (scaleDigits places (s.toList.filter Text.isAsciiDigit)))) := by
  obtain ⟨d, ds, hds⟩ := List.exists_cons_of_ne_nil hdigit
  simp only [scale, hs, hds, bind, Except.bind, pure, Except.pure]

theorem exists_isFixedPoint_of_scale {v : Value} {s : String} (hs : v.asText = .ok s)
    (hdigit : s.toList.filter Text.isAsciiDigit ≠ []) (places : Nat) :
    ∃ whole frac, scale places v = .ok (.text (String.ofList (pointBetween whole frac))) ∧
      IsFixedPoint places (digitsValue (s.toList.filter Text.isAsciiDigit)) whole frac := by
  obtain ⟨whole, frac, htext, happend, hfrac, hwhole⟩ :=
    scaleDigits_eq_pointBetween places (s.toList.filter Text.isAsciiDigit)
  refine ⟨whole, frac, ?_, isFixedPoint_of_append_eq ?_ happend hfrac hwhole⟩
  · rw [scale_of_asText hs hdigit, htext]
  · exact fun d hd => (List.mem_filter.mp hd).2

/-- Scaling loses no digit, so what was scaled before can be scaled anew. -/
theorem scale_bind_scale {v : Value} {s : String} (hs : v.asText = .ok s)
    (hdigit : s.toList.filter Text.isAsciiDigit ≠ []) (places again : Nat) :
    (scale places v >>= scale again) = scale again v := by
  obtain ⟨whole, frac, htext, happend, -, -⟩ :=
    scaleDigits_eq_pointBetween places (s.toList.filter Text.isAsciiDigit)
  have hkept : (pointBetween whole frac).filter Text.isAsciiDigit =
      paddedDigitsFor places (s.toList.filter Text.isAsciiDigit) := by
    rw [← happend]
    refine filter_pointBetween fun d hd => ?_
    rw [happend] at hd
    exact isAsciiDigit_of_mem_paddedDigitsFor places
      (fun _ hmem => (List.mem_filter.mp hmem).2) d hd
  have hscaled : (Value.text (String.ofList (pointBetween whole frac))).asText =
      .ok (String.ofList (pointBetween whole frac)) := rfl
  have hne : (String.ofList (pointBetween whole frac)).toList.filter Text.isAsciiDigit ≠ [] := by
    rw [String.toList_ofList, hkept, ← List.length_pos_iff]
    exact Nat.lt_of_le_of_lt (Nat.zero_le places) (lt_length_paddedDigitsFor _ _)
  calc (scale places v >>= scale again)
      = scale again (.text (String.ofList (pointBetween whole frac))) := by
        rw [scale_of_asText hs hdigit, htext]
        rfl
    _ = .ok (.text (String.ofList
          (scaleDigits again (s.toList.filter Text.isAsciiDigit)))) := by
        rw [scale_of_asText hscaled hne, String.toList_ofList, hkept, scaleDigits_paddedDigitsFor]
    _ = scale again v := (scale_of_asText hs hdigit again).symm

theorem builtins_names_nodup : (builtins.map Operation.name).Nodup := by
  decide

theorem eq_of_mem_builtins {a b : Operation} (ha : a ∈ builtins) (hb : b ∈ builtins)
    (hname : a.name = b.name) : a = b :=
  List.inj_on_of_nodup_map builtins_names_nodup ha hb hname

theorem call_decimal {operation : Operation} (hbuiltin : operation ∈ builtins)
    (hname : operation.name = "decimal") {raw : List String} {places : Nat}
    (hplaces : Bounds.size.IsNumeral (Text.strip (firstOr "2" raw)).toList places)
    (hmax : places ≤ 64) (v : Value) : operation.call v raw = scale places v := by
  have hdecimal : builtins[14] ∈ builtins := List.getElem_mem _
  obtain rfl := eq_of_mem_builtins hbuiltin hdecimal hname
  have hsupplied : builtins[14].signature.isSupplied raw = true :=
    Signature.isSupplied_of_optional (by decide) raw
  have hread : Args.readWhole ⟨builtins[14].signature, raw⟩ 0 .size = .ok (places : Int) := by
    have hget : Args.get ⟨builtins[14].signature, raw⟩ 0 = firstOr "2" raw :=
      Args.get_optional "places" "2" raw
    refine Args.readWhole_of_isNumeral (by decide) (by decide) ?_
    rwa [hget]
  have hbody : builtins[14].body v ⟨builtins[14].signature, raw⟩ =
      (Args.readWhole ⟨builtins[14].signature, raw⟩ 0 .size).bind fun places =>
        if maxPlaces < places then
          .error (.invalidArgument (Args.paramName ⟨builtins[14].signature, raw⟩ 0)
            (toString places) "at most 64 places")
        else scale places.toNat v := rfl
  rw [Operation.call_of_isSupplied hsupplied, hbody, hread]
  have hnot : ¬ maxPlaces < (places : Int) := by
    rw [maxPlaces]
    omega
  simp only [Except.bind, if_neg hnot, Int.toNat_natCast]

/-- The digits of a text spell a number, and scaling gives this number divided by a power of ten,
without loss and with exactly as many places. Scaled again, it is the number of the text that is
scaled. The operation does so for up to 64 places. -/
theorem scaling_is_exact {v : Value} {s : String} (hs : v.asText = .ok s)
    (hdigit : ∃ c ∈ s.toList, Text.isAsciiDigit c = true) (places : Nat) :
    (∃ whole frac, scale places v = .ok (.text (String.ofList (pointBetween whole frac))) ∧
      IsFixedPoint places (digitsValue (s.toList.filter Text.isAsciiDigit)) whole frac) ∧
      (∀ again, (scale places v >>= scale again) = scale again v) ∧
      ∀ operation ∈ builtins, operation.name = "decimal" → ∀ raw : List String,
        Bounds.size.IsNumeral (Text.strip (firstOr "2" raw)).toList places → places ≤ 64 →
        operation.call v raw = scale places v := by
  obtain ⟨c, hc, hdigit⟩ := hdigit
  have hne : s.toList.filter Text.isAsciiDigit ≠ [] :=
    List.ne_nil_of_mem (List.mem_filter.mpr ⟨hc, hdigit⟩)
  exact ⟨exists_isFixedPoint_of_scale hs hne places, scale_bind_scale hs hne places,
    fun _ hbuiltin hname _ hplaces hmax => call_decimal hbuiltin hname hplaces hmax v⟩

/-- Leading zeros go, and zeros come back where the digits do not reach the point. -/
theorem scaling_is_exact_leading_zeros :
    ∃ whole frac, scale 3 (.text "R$ 0.0,5") =
        .ok (.text (String.ofList (pointBetween whole frac))) ∧
      IsFixedPoint 3 5 whole frac ∧
      pointBetween whole frac = "0.005".toList ∧
      (scale 64 (.text "R$ 0.0,5") >>= scale 3) = scale 3 (.text "R$ 0.0,5") ∧
      builtins[14].call (.text "R$ 0.0,5") [" 3"] = scale 3 (.text "R$ 0.0,5") := by
  have hs : (Value.text "R$ 0.0,5").asText = .ok "R$ 0.0,5" := rfl
  have hdigit : ∃ c ∈ "R$ 0.0,5".toList, Text.isAsciiDigit c = true := ⟨'5', by decide, by decide⟩
  obtain ⟨⟨whole, frac, hscale, hfixed⟩, -, hcall⟩ := scaling_is_exact hs hdigit 3
  obtain ⟨-, hagain, -⟩ := scaling_is_exact hs hdigit 64
  refine ⟨whole, frac, hscale, hfixed, ?_, hagain 3, ?_⟩
  · have hdigits := scale_of_asText hs (by decide) 3
    have htext := Value.text.inj (Except.ok.inj (hscale.symm.trans hdigits))
    rw [String.ofList_injective htext]
    decide
  · refine hcall builtins[14] (List.getElem_mem _) rfl [" 3"] ?_ (by decide)
    exact (Bounds.read_eq_ok_iff (by decide) (by decide)).mp (by decide)

end FilterChain.Filters
