import FilterChain.Proofs.Filters.Scalars
import FilterChain.Proofs.Number.Digits
import FilterChain.Proofs.Number.Numeral
import FilterChain.Proofs.Run.Step
import FilterChain.Proofs.Text.Trimming
import FilterChain.Registry

/-!
# Limits

A limit keeps a front part of a text: that many characters, or all but that many if the limit is
negative. Every signed number of 64 bits can be written as the argument of a step, the least one as
well, whose absolute value is not such a number. Limits of one sign make one limit together.
-/

namespace FilterChain.Filters

variable {registry : Registry} {step first second : Step} {v : Value} {s : String} {a b n : Int}
  {cs : List Char}

/-- The first argument of a step spells its limit; the step may have more arguments. -/
inductive LimitsTo : Step → Int → Prop where
  | mk {arg : String} (more : List String) {n : Int}
      (hn : Bounds.signed.IsNumeral (Text.strip arg).toList n) : LimitsTo ⟨"limitar", arg :: more⟩ n

theorem spellsWhole_text (n : Int) : SpellsWhole true (Number.whole n).text n := by
  have hne : decimalDigits n.natAbs ≠ [] := List.length_pos_iff.mp (length_decimalDigits_pos _)
  have hdigits : ∀ d ∈ decimalDigits n.natAbs, Text.isAsciiDigit d = true :=
    fun d hd => isAsciiDigit_of_mem_decimalDigits hd
  by_cases hneg : n < 0
  · have hminus : SpellsWhole true ('-' :: decimalDigits n.natAbs) _ := .minus rfl hne hdigits
    rw [digitsValue_decimalDigits, Int.ofNat_natAbs_of_nonpos (Int.le_of_lt hneg),
      Int.neg_neg] at hminus
    rwa [Number.text, if_pos hneg]
  · have hbare : SpellsWhole true (decimalDigits n.natAbs) _ := .bare hne hdigits
    rw [digitsValue_decimalDigits, Int.natAbs_of_nonneg (Int.not_lt.mp hneg)] at hbare
    rwa [Number.text, if_neg hneg]

theorem isBlank_of_mem_text {c : Char} (hc : c ∈ (Number.whole n).text) :
    Text.isBlank c = false := by
  rw [Number.text, List.mem_append] at hc
  rcases hc with hsign | hdigit
  · split at hsign
    · rw [List.mem_singleton.mp hsign]
      decide
    · cases hsign
  · exact Text.isBlank_of_isAsciiDigit (isAsciiDigit_of_mem_decimalDigits hdigit)

theorem exists_limitsTo (hlow : Bounds.signed.low ≤ n) (hhigh : n ≤ Bounds.signed.high) :
    ∃ step, LimitsTo step n := by
  refine ⟨⟨"limitar", [String.ofList (Number.whole n).text]⟩, .mk [] ?_⟩
  rw [Text.strip, String.toList_ofList, String.toList_ofList,
    Text.trimBy_of_forall_not fun c hc => isBlank_of_mem_text hc]
  exact ⟨spellsWhole_text n, hlow, hhigh⟩

theorem rdrop_rdrop (i j : Nat) (cs : List Char) : (cs.rdrop i).rdrop j = cs.rdrop (i + j) := by
  simp only [List.rdrop_eq_reverse_drop_reverse, List.reverse_reverse, List.drop_drop]

theorem applyLimit_of_nonneg (h : 0 ≤ a) (cs : List Char) : applyLimit a cs = cs.take a.toNat :=
  if_pos h

theorem applyLimit_of_neg (h : a < 0) (cs : List Char) : applyLimit a cs = cs.rdrop a.natAbs :=
  if_neg (Int.not_le.mpr h)

theorem applyLimit_isPrefix (a : Int) (cs : List Char) : applyLimit a cs <+: cs := by
  unfold applyLimit
  split
  · exact List.take_prefix _ _
  · exact List.take_prefix _ _

theorem length_applyLimit_of_nonneg (h : 0 ≤ a) (cs : List Char) :
    ((applyLimit a cs).length : Int) = min a cs.length := by
  rw [applyLimit_of_nonneg h, List.length_take]
  omega

theorem length_applyLimit_of_neg (h : a < 0) (cs : List Char) :
    ((applyLimit a cs).length : Int) = max 0 (cs.length - a.natAbs) := by
  rw [applyLimit_of_neg h, List.rdrop, List.length_take]
  omega

theorem applyLimit_applyLimit_of_nonneg (ha : 0 ≤ a) (hb : 0 ≤ b) (cs : List Char) :
    applyLimit b (applyLimit a cs) = applyLimit (min a b) cs := by
  have hmin : min b.toNat a.toNat = (min a b).toNat := by omega
  rw [applyLimit_of_nonneg ha, applyLimit_of_nonneg hb,
    applyLimit_of_nonneg (Int.le_min.mpr ⟨ha, hb⟩), List.take_take, hmin]

theorem applyLimit_applyLimit_of_neg (ha : a < 0) (hb : b < 0) (cs : List Char) :
    applyLimit b (applyLimit a cs) = cs.rdrop (a.natAbs + b.natAbs) := by
  rw [applyLimit_of_neg ha, applyLimit_of_neg hb, rdrop_rdrop]

theorem takes_limit_iff (hget : registry.get? "limitar" = Registry.builtin.get? "limitar")
    (hstep : LimitsTo step a) {w : Value} : registry.Takes step v w ↔ limit a v = .ok w := by
  obtain @⟨arg, more, _, hn⟩ := hstep
  have hread : Args.readWhole ⟨⟨[.required "limit"]⟩, arg :: more⟩ 0 .signed = .ok a := by
    refine Args.readWhole_of_isNumeral (by decide) (by decide) ?_
    rwa [Args.get_required]
  rw [Registry.takes_iff_of_get? (hget.trans rfl),
    Operation.call_of_isSupplied (Signature.isSupplied_required "limit" arg more)]
  dsimp only
  rw [hread]
  rfl

theorem takes_of_limitsTo (hget : registry.get? "limitar" = Registry.builtin.get? "limitar")
    (hstep : LimitsTo step a) (hs : v.asText = .ok s) :
    registry.Takes step v (.text (String.ofList (applyLimit a s.toList))) :=
  (takes_limit_iff hget hstep).mpr (onText_of_asText hs (applyLimit a))

theorem outcome_plain_limit (hget : registry.get? "limitar" = Registry.builtin.get? "limitar")
    (hstep : LimitsTo step a) (hs : v.asText = .ok s) :
    (Run.plain registry [step] v).outcome =
      .ok (.text (String.ofList (applyLimit a s.toList))) := by
  rw [Run.plain_cons_of_takes (takes_of_limitsTo hget hstep hs), Run.plain]

theorem outcome_plain_limit_limit
    (hget : registry.get? "limitar" = Registry.builtin.get? "limitar")
    (hfirst : LimitsTo first a) (hsecond : LimitsTo second b) (hs : v.asText = .ok s) :
    (Run.plain registry [first, second] v).outcome =
      .ok (.text (String.ofList (applyLimit b (applyLimit a s.toList)))) := by
  rw [Run.plain_cons_of_takes (takes_of_limitsTo hget hfirst hs),
    outcome_plain_limit hget hsecond rfl, String.toList_ofList]

/-- For every limit of 64 bits there is a step, and it keeps as many characters from the front of a
text as its limit says, or all but as many as the absolute value of a negative limit. Limits that
are not negative keep together what the smaller one keeps, and negative ones drop together what
both drop. -/
theorem limits_keep_front_characters
    (hget : registry.get? "limitar" = Registry.builtin.get? "limitar")
    (hv : v.isContainer = false) :
    ∃ s, v.asText = .ok s ∧
      (∀ a, Bounds.signed.low ≤ a → a ≤ Bounds.signed.high →
        (∃ step, LimitsTo step a) ∧
        ∀ step, LimitsTo step a → ∃ kept, registry.Takes step v (.text kept) ∧
          kept.toList <+: s.toList ∧
          (0 ≤ a → (kept.length : Int) = min a s.length) ∧
          (a < 0 → (kept.length : Int) = max 0 (s.length - a.natAbs))) ∧
      (∀ first second both a b, LimitsTo first a → LimitsTo second b → LimitsTo both (min a b) →
        0 ≤ a → 0 ≤ b →
        (Run.plain registry [first, second] v).outcome = (Run.plain registry [both] v).outcome) ∧
      ∀ first second a b, LimitsTo first a → LimitsTo second b → a < 0 → b < 0 →
        (Run.plain registry [first, second] v).outcome =
          .ok (.text (String.ofList (s.toList.rdrop (a.natAbs + b.natAbs)))) := by
  obtain ⟨s, hs⟩ := Value.exists_asText_eq_ok hv
  refine ⟨s, hs, fun a hlow hhigh => ⟨exists_limitsTo hlow hhigh, fun step hstep => ?_⟩, ?_, ?_⟩
  · refine ⟨_, takes_of_limitsTo hget hstep hs, ?_⟩
    rw [← String.length_toList, ← String.length_toList, String.toList_ofList]
    exact ⟨applyLimit_isPrefix a s.toList, fun h => length_applyLimit_of_nonneg h s.toList,
      fun h => length_applyLimit_of_neg h s.toList⟩
  · intro first second both a b hfirst hsecond hboth ha hb
    rw [outcome_plain_limit_limit hget hfirst hsecond hs, outcome_plain_limit hget hboth hs,
      applyLimit_applyLimit_of_nonneg ha hb]
  · intro first second a b hfirst hsecond ha hb
    rw [outcome_plain_limit_limit hget hfirst hsecond hs, applyLimit_applyLimit_of_neg ha hb]

/-- The least limit drops all characters, whatever their encoded length, and a limit may have blanks
around it and a sign in front. -/
theorem limits_keep_front_characters_least_limit :
    Registry.builtin.Takes ⟨"limitar", ["-9223372036854775808"]⟩ (.text "maçã 😀") (.text "") ∧
    (Run.plain Registry.builtin [⟨"limitar", ["+5"]⟩, ⟨"limitar", [" 3 ", "x"]⟩]
      (.text "maçã 😀")).outcome =
      (Run.plain Registry.builtin [⟨"limitar", ["3"]⟩] (.text "maçã 😀")).outcome ∧
    (Run.plain Registry.builtin [⟨"limitar", ["-1"]⟩, ⟨"limitar", ["-2"]⟩]
      (.text "maçã 😀")).outcome = .ok (.text "maç") := by
  have hspells {arg : String} {n : Int} (more : List String)
      (hread : Bounds.signed.read (Text.strip arg).toList = .ok n) :
      LimitsTo ⟨"limitar", arg :: more⟩ n :=
    .mk more ((Bounds.read_eq_ok_iff (by decide) (by decide)).mp hread)
  have hleast : LimitsTo ⟨"limitar", ["-9223372036854775808"]⟩ (-9223372036854775808) :=
    hspells [] (by decide)
  have hfive : LimitsTo ⟨"limitar", ["+5"]⟩ 5 := hspells [] (by decide)
  have hpadded : LimitsTo ⟨"limitar", [" 3 ", "x"]⟩ 3 := hspells ["x"] (by decide)
  have hthree : LimitsTo ⟨"limitar", ["3"]⟩ 3 := hspells [] (by decide)
  have hone : LimitsTo ⟨"limitar", ["-1"]⟩ (-1) := hspells [] (by decide)
  have htwo : LimitsTo ⟨"limitar", ["-2"]⟩ (-2) := hspells [] (by decide)
  have hv : (Value.text "maçã 😀").isContainer = false := rfl
  obtain ⟨s, hs, hkeep, hsmaller, hboth⟩ :=
    limits_keep_front_characters (Eq.refl (Registry.builtin.get? "limitar")) hv
  obtain rfl := Except.ok.inj hs
  refine ⟨?_, hsmaller _ _ _ 5 3 hfive hpadded hthree (by decide) (by decide),
    hboth _ _ (-1) (-2) hone htwo (by decide) (by decide)⟩
  obtain ⟨kept, htakes, -, -, hlength⟩ :=
    (hkeep (-9223372036854775808) (by decide) (by decide)).2 _ hleast
  have hnone : (kept.length : Int) = 0 := (hlength (by decide)).trans (by decide)
  rwa [String.length_eq_zero_iff.mp (Int.natCast_eq_zero.mp hnone)] at htakes

end FilterChain.Filters
