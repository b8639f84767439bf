import FilterChain.Proofs.Filters.Blanks
import FilterChain.Proofs.Filters.Notation
import FilterChain.Proofs.Run.Trace

/-!
# Blank values that are warned of

The filter that puts null for blank values asks whether the text of a value has characters of its
own class only. A run that finds null behind a step asks whether the value before it was null or a
text of Unicode blanks, and warns if it was not. The text of `false` is empty, and the class of the
filter has one character that is no Unicode blank. Of all that the filter takes for blank, these are
what a run warns of.
-/

namespace FilterChain

open Run (HaltsAt recordWarnings)

variable {v w : Value} {c : Char} {s : String}

theorem Number.exists_digit_mem_text (n : Number) :
    ∃ c ∈ n.text, Text.isAsciiDigit c = true := by
  have hdigits : n.text.filter Text.isAsciiDigit ≠ [] := by
    by_cases hsize : n.HasPlainSize
    · obtain ⟨_, whole, frac, hplain, -⟩ := exists_isPlain hsize
      rw [hplain.filter_digits]
      exact List.append_ne_nil_of_left_ne_nil hplain.whole_ne_nil frac
    · obtain ⟨_, whole, frac, power, hscientific, -⟩ := exists_isScientific hsize
      rw [hscientific.filter_digits, List.append_assoc]
      exact List.append_ne_nil_of_left_ne_nil hscientific.whole_ne_nil _
  obtain ⟨c, hc⟩ := List.exists_mem_of_ne_nil _ hdigits
  exact ⟨c, List.mem_filter.mp hc⟩

namespace Filters

def zeroChar : Char := Char.ofNat 0

def trimmedChars : List Char :=
  [' ', '\t', '\n', '\r', zeroChar, Char.ofNat 11]

theorem mem_trimmedChars_of_isTrimmed (h : isTrimmed c = true) : c ∈ trimmedChars := by
  simp only [isTrimmed, Bool.or_eq_true, decide_eq_true_eq] at h
  rcases h with ((((rfl | rfl) | rfl) | rfl) | hzero) | htab
  · decide
  · decide
  · decide
  · decide
  · rw [← Char.ofNat_toNat c, hzero]
    decide
  · rw [← Char.ofNat_toNat c, htab]
    decide

theorem isBlank_eq_false_iff_of_isTrimmed (h : isTrimmed c = true) :
    Text.isBlank c = false ↔ c = zeroChar := by
  have hall : ∀ d ∈ trimmedChars, (Text.isBlank d = false ↔ d = zeroChar) := by
    decide
  exact hall c (mem_trimmedChars_of_isTrimmed h)

theorem isAsciiDigit_eq_false_of_isTrimmed (h : isTrimmed c = true) :
    Text.isAsciiDigit c = false := by
  have hall : ∀ d ∈ trimmedChars, Text.isAsciiDigit d = false := by
    decide
  exact hall c (mem_trimmedChars_of_isTrimmed h)

/-- The values that the filter takes for blank. -/
def IsNulled : Value → Prop
  | .null => True
  | .bool b => b = false
  | .text s => ∀ c ∈ s.toList, isTrimmed c = true
  | _ => False

/-- The values that no run takes for blank although the filter may do so. -/
def IsOverlooked : Value → Prop
  | .bool b => b = false
  | .text s => zeroChar ∈ s.toList
  | _ => False

instance : DecidablePred IsNulled
  | .null => isTrue trivial
  | .bool b => inferInstanceAs (Decidable (b = false))
  | .text s => inferInstanceAs (Decidable (∀ c ∈ s.toList, isTrimmed c = true))
  | .number _ | .list _ | .record _ => isFalse id

instance : DecidablePred IsOverlooked
  | .bool b => inferInstanceAs (Decidable (b = false))
  | .text s => inferInstanceAs (Decidable (zeroChar ∈ s.toList))
  | .null | .number _ | .list _ | .record _ => isFalse id

theorem nullIfBlank_eq_null_iff_isNulled : nullIfBlank v = .ok .null ↔ IsNulled v := by
  cases v with
  | null => exact iff_of_true rfl trivial
  | bool b =>
    cases b with
    | false => exact iff_of_true rfl rfl
    | true => exact iff_of_false (by decide) nofun
  | number n =>
    obtain ⟨c, hc, hdigit⟩ := n.exists_digit_mem_text
    rw [nullIfBlank_eq_null_iff rfl, String.toList_ofList, Text.trimBy_eq_nil_iff]
    refine iff_of_false (fun hall => ?_) id
    rw [isAsciiDigit_eq_false_of_isTrimmed (hall c hc)] at hdigit
    cases hdigit
  | text s => rw [nullIfBlank_eq_null_iff rfl, Text.trimBy_eq_nil_iff, IsNulled]
  | list | record => exact iff_of_false nofun id

theorem isBlank_eq_false_iff_isOverlooked (h : IsNulled v) :
    Run.isBlank v = false ↔ IsOverlooked v := by
  cases v with
  | null => exact iff_of_false (by decide) id
  | bool b => exact iff_of_true rfl h
  | text s =>
    rw [Run.isBlank, decide_eq_false_iff_not, Text.trimBy_eq_nil_iff, IsOverlooked]
    constructor
    · intro hblank
      push Not at hblank
      obtain ⟨c, hc, hnot⟩ := hblank
      obtain rfl := (isBlank_eq_false_iff_of_isTrimmed (h c hc)).mp (eq_false_of_ne_true hnot)
      exact hc
    · intro hzero hblank
      exact absurd (hblank zeroChar hzero) (by decide)
  | number | list | record => cases h

end Filters

namespace Run

open Filters (IsNulled IsOverlooked nullIfBlank)

variable {registry : Registry}

theorem takes_null_iff (hget : registry.get? "null" = Registry.builtin.get? "null")
    (args : List String) : registry.Takes ⟨"null", args⟩ v w ↔ nullIfBlank v = .ok w :=
  Registry.takes_unary_iff (hget.trans rfl)

theorem recordWarnings_null {record : StepRecord}
    (hget : registry.get? "null" = Registry.builtin.get? "null")
    (htakes : registry.Takes record.step record.input record.output)
    (hname : record.name = "null") :
    recordWarnings record =
      if record.output = .null ∧ IsOverlooked record.input then
        [.warning s!"null: {record.input.toText} became null"]
      else [] := by
  have hstep : record.step = ⟨"null", record.args⟩ := by rw [StepRecord.step, hname]
  rw [hstep, takes_null_iff hget] at htakes
  rw [recordWarnings, hstep, warnings]
  refine if_congr (and_congr_right fun hnull => ?_) rfl rfl
  rw [hnull, Filters.nullIfBlank_eq_null_iff_isNulled] at htakes
  rw [Bool.not_eq_true', Filters.isBlank_eq_false_iff_isOverlooked htakes]

def warningsOf (entries : List Log.Entry) : List Log.Entry :=
  entries.filter (·.level = .warning)

theorem warningsOf_recordWarnings (record : StepRecord) :
    warningsOf (recordWarnings record) = recordWarnings record := by
  unfold recordWarnings warnings
  split <;> rfl

theorem warningsOf_flatMap {entries : StepRecord → List Log.Entry}
    (h : ∀ record, warningsOf (entries record) = recordWarnings record)
    (records : List StepRecord) :
    warningsOf (records.flatMap entries) = records.flatMap recordWarnings := by
  rw [warningsOf, List.filter_flatMap]
  exact List.flatMap_congr fun record _ => h record

theorem warningsOf_recordWarnings_append (record : StepRecord) :
    warningsOf (recordWarnings record ++ [recordEntry record]) = recordWarnings record := by
  have hnote : warningsOf [recordEntry record] = [] := rfl
  rw [warningsOf, List.filter_append]
  exact (congrArg₂ (· ++ ·) (warningsOf_recordWarnings record) hnote).trans (List.append_nil _)

/-- Traced or not, a run warns of the steps that it completes, and of nothing else. -/
theorem HaltsAt.warningsOf_entries {steps : List Step} {value current : Value} {k : Nat}
    {records : List StepRecord} (h : HaltsAt registry steps value k records current) :
    warningsOf (plain registry steps value).entries = records.flatMap recordWarnings ∧
      warningsOf (traced registry 0 steps value).entries = records.flatMap recordWarnings := by
  have hplain := warningsOf_flatMap warningsOf_recordWarnings records
  have htraced := warningsOf_flatMap warningsOf_recordWarnings_append records
  rcases h.reports with ⟨-, hp, ht⟩ | ⟨s, rest, e, -, -, hp, ht⟩
  · rw [hp, ht]
    exact ⟨hplain, htraced⟩
  · -- The entry behind the others is an error.
    rw [hp, ht, warningsOf, warningsOf, List.filter_append, List.filter_append]
    exact ⟨(List.append_nil _).trans hplain, (List.append_nil _).trans htraced⟩

/-- The step that puts null for blank values takes every scalar to null or leaves it as it is. A run
does not warn of what it takes to null, save for `false` and the texts with a zero character: it
warns of each of these, and of nothing else that has been through such a step. -/
theorem null_steps_warn_of_overlooked_values
    (hget : registry.get? "null" = Registry.builtin.get? "null") :
    (∀ v, v.isContainer = false → ∀ args,
      (IsNulled v → registry.Takes ⟨"null", args⟩ v .null) ∧
      (¬ IsNulled v → registry.Takes ⟨"null", args⟩ v v) ∧
      (registry.Takes ⟨"null", args⟩ v .null → (isBlank v = true ↔ ¬ IsOverlooked v))) ∧
    ∀ steps value k records current, HaltsAt registry steps value k records current →
      warningsOf (plain registry steps value).entries = records.flatMap recordWarnings ∧
      warningsOf (traced registry 0 steps value).entries = records.flatMap recordWarnings ∧
      ∀ record ∈ records, record.name = "null" → recordWarnings record =
        if record.output = .null ∧ IsOverlooked record.input then
          [.warning s!"null: {record.input.toText} became null"]
        else [] := by
  constructor
  · intro v hv args
    simp only [takes_null_iff hget, Filters.nullIfBlank_eq_null_iff_isNulled]
    refine ⟨id, fun hkept => ?_, fun hnulled => ?_⟩
    · obtain ⟨s, hs⟩ := Value.exists_asText_eq_ok hv
      rw [← Filters.nullIfBlank_eq_null_iff_isNulled, Filters.nullIfBlank_eq_null_iff hs] at hkept
      rw [Filters.nullIfBlank_of_asText hs, if_neg hkept]
    · rw [← Filters.isBlank_eq_false_iff_isOverlooked hnulled, Bool.not_eq_false]
  · intro steps value k records current hhalts
    obtain ⟨hplain, htraced⟩ := hhalts.warningsOf_entries
    refine ⟨hplain, htraced, fun record hrecord => ?_⟩
    exact recordWarnings_null hget (hhalts.completes.taken record hrecord)

/-- A text of a tab and a zero character is warned of, and the null that comes of it is not. -/
theorem null_steps_warn_of_overlooked_values_twice :
    warningsOf (traced Registry.builtin 0 [⟨"null", []⟩, ⟨"null", []⟩] (.text "\t\u0000")).entries =
      [⟨.warning, "null: \"\\t\\u0000\" became null", 1⟩] := by
  have hget : Registry.builtin.get? "null" = Registry.builtin.get? "null" := rfl
  obtain ⟨hsteps, hruns⟩ := null_steps_warn_of_overlooked_values hget
  have hfirst : Registry.builtin.Takes ⟨"null", []⟩ (.text "\t\u0000") .null :=
    (hsteps _ rfl []).1 (by decide)
  have hsecond : Registry.builtin.Takes ⟨"null", []⟩ .null .null := (hsteps _ rfl []).1 trivial
  have htrace := ((IsTrace.nil Registry.builtin 2 .null).cons hsecond).cons hfirst
  obtain ⟨-, htraced, -⟩ := hruns [⟨"null", []⟩, ⟨"null", []⟩] _ 2 _ _ ⟨by decide, htrace, nofun⟩
  exact htraced.trans (by decide)

theorem false_is_warned_of :
    Filters.nullIfBlank (.bool false) = .ok .null ∧ isBlank (.bool false) = false ∧
      (plain Registry.builtin [⟨"null", []⟩] (.bool false)).entries =
        [⟨.warning, "null: false became null", 1⟩] :=
  ⟨rfl, rfl, by decide⟩

end Run

end FilterChain
