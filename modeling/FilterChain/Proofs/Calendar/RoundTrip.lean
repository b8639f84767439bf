import FilterChain.Proofs.Calendar.Moments
import FilterChain.Proofs.Calendar.Spelling
import FilterChain.Proofs.Calendar.Trimmed
import FilterChain.Proofs.Number.Digits

/-!
# Dates that round-trip

A complete layout names a full year, a month and a day, and an hour and a minute or no time of day
at all. Its numbers have a fixed width, so whatever stands between them, digits and blanks
included, what is written along it is read back, also when the text is trimmed in between.
-/

namespace FilterChain.Calendar

open Text

def Mark.code? : Mark → Option Char
  | .code letter => some letter
  | .literal _ => none

def codes (layout : String) : List Char :=
  (marks layout.toList).filterMap Mark.code?

/-- Whether a layout names a year, a month and a day and, for the time of day, nothing, an hour and
a minute, or a second too. All have a fixed width, stand in any order and occur once. -/
def IsComplete (layout : String) : Prop :=
  ∃ clock ∈ [[], ['H', 'i'], ['H', 'i', 's']], (codes layout).Perm (['Y', 'm', 'd'] ++ clock)

instance (layout : String) : Decidable (IsComplete layout) := by
  unfold IsComplete
  exact inferInstance

/-- Whether a moment has a year of four digits and, beside the fields that a layout names, nothing
but zeros. -/
structure IsWritable (layout : String) (t : DateTime) : Prop where
  date : t.date.IsValid
  year : 0 ≤ t.date.year ∧ t.date.year ≤ 9999
  time : t.time.hour ≤ 23 ∧ t.time.minute ≤ 59 ∧ t.time.second ≤ 60
  hour : 'H' ∉ codes layout → t.time.hour = 0
  minute : 'i' ∉ codes layout → t.time.minute = 0
  second : 's' ∉ codes layout → t.time.second = 0

def completeLetters : List Char :=
  ['Y', 'm', 'd', 'H', 'i', 's']

variable {layout source target : String} {direction : Direction} {t : DateTime}

namespace IsComplete

theorem exists_clock (h : IsComplete layout) :
    ∃ clock, (clock = [] ∨ clock = ['H', 'i'] ∨ clock = ['H', 'i', 's']) ∧
      ∀ letter, letter ∈ codes layout ↔ letter ∈ ['Y', 'm', 'd'] ++ clock := by
  obtain ⟨clock, hclock, hperm⟩ := h
  exact ⟨clock, by simpa using hclock, fun _ => hperm.mem_iff⟩

theorem mem_completeLetters (h : IsComplete layout) :
    ∀ letter ∈ codes layout, letter ∈ completeLetters := by
  obtain ⟨clock, hclock, hmem⟩ := h.exists_clock
  have hsublist : (['Y', 'm', 'd'] ++ clock).Sublist completeLetters := by
    rcases hclock with rfl | rfl | rfl <;> decide
  exact fun letter hletter => hsublist.mem ((hmem letter).mp hletter)

theorem mem_codes_of_date (h : IsComplete layout) :
    'Y' ∈ codes layout ∧ 'm' ∈ codes layout ∧ 'd' ∈ codes layout := by
  obtain ⟨clock, -, hmem⟩ := h.exists_clock
  simp only [hmem]
  exact ⟨by simp, by simp, by simp⟩

theorem mem_codes_of_time (h : IsComplete layout) :
    ('H' ∈ codes layout ∧ 'i' ∈ codes layout) ∨
      ('H' ∉ codes layout ∧ 'i' ∉ codes layout ∧ 's' ∉ codes layout) := by
  obtain ⟨clock, hclock, hmem⟩ := h.exists_clock
  simp only [hmem]
  rcases hclock with rfl | rfl | rfl <;> decide

end IsComplete

theorem mem_codes_of_mem_marks {letter : Char} (h : .code letter ∈ marks layout.toList) :
    letter ∈ codes layout :=
  List.mem_filterMap.mpr ⟨_, h, rfl⟩

def completeField? : Char → Option Field
  | 'Y' => some .year
  | 'm' => some .month
  | 'd' => some .day
  | 'H' => some .hour
  | 'i' => some .minute
  | 's' => some .second
  | _ => none

theorem itemOf_codeToken (direction : Direction) {letter : Char} (h : letter ∈ completeLetters) :
    ∃ field, completeField? letter = some field ∧
      itemOf (codeToken direction letter) = .field field true := by
  simp only [completeLetters, List.mem_cons, List.not_mem_nil, or_false] at h
  rcases h with rfl | rfl | rfl | rfl | rfl | rfl <;> cases direction <;> exact ⟨_, rfl, rfl⟩

theorem isNumber_of_completeField? {letter : Char} {field : Field}
    (h : completeField? letter = some field) : field.isNumber = true := by
  unfold completeField? at h
  split at h <;> cases h <;> rfl

theorem IsComplete.item_cases (h : IsComplete layout) {item : Item}
    (hitem : item ∈ layoutItems direction layout) :
    (∃ letter ∈ codes layout, ∃ field, completeField? letter = some field ∧
      item = .field field true) ∨ ∃ c, item = itemOf (literalToken c) := by
  rw [layoutItems_eq_map_marks] at hitem
  obtain ⟨mark, hmark, rfl⟩ := List.mem_map.mp hitem
  cases mark with
  | literal c => exact Or.inr ⟨c, rfl⟩
  | code letter =>
    have hletter := mem_codes_of_mem_marks hmark
    obtain ⟨field, hfield, hitemOf⟩ :=
      itemOf_codeToken direction (h.mem_completeLetters letter hletter)
    exact Or.inl ⟨letter, hletter, field, hfield, hitemOf⟩

theorem IsComplete.isWordless (h : IsComplete layout) :
    ∀ item ∈ layoutItems direction layout, item.IsWordless := by
  intro item hitem
  rcases h.item_cases hitem with ⟨letter, -, field, hfield, rfl⟩ | ⟨c, rfl⟩
  · exact isNumber_of_completeField? hfield
  · rw [itemOf_literalToken]
    split
    · next hblank => exact hblank
    · next hblank => exact eq_false_of_ne_true hblank

theorem IsComplete.layoutItems_writing (h : IsComplete layout) :
    layoutItems .writing layout = layoutItems .reading layout := by
  rw [layoutItems_eq_map_marks, layoutItems_eq_map_marks]
  refine List.map_congr_left fun mark hmark => ?_
  cases mark with
  | literal c => rfl
  | code letter =>
    have hletter := h.mem_completeLetters letter (mem_codes_of_mem_marks hmark)
    obtain ⟨field, hfield, hwriting⟩ := itemOf_codeToken .writing hletter
    obtain ⟨_, hsame, hreading⟩ := itemOf_codeToken .reading hletter
    obtain rfl := Option.some.inj (hfield.symm.trans hsame)
    exact hwriting.trans hreading.symm

theorem IsComplete.filterMap_field? (h : IsComplete layout) :
    (layoutItems direction layout).filterMap Item.field? =
      (codes layout).filterMap completeField? := by
  rw [layoutItems_eq_map_marks, List.filterMap_map, codes, List.filterMap_filterMap]
  refine List.filterMap_congr fun mark hmark => ?_
  cases mark with
  | literal c =>
    show (itemOf (literalToken c)).field? = none
    rw [itemOf_literalToken]
    split <;> rfl
  | code letter =>
    have hletter := h.mem_completeLetters letter (mem_codes_of_mem_marks hmark)
    obtain ⟨field, hfield, hitem⟩ := itemOf_codeToken direction hletter
    show (itemOf (codeToken direction letter)).field? = completeField? letter
    rw [hitem, hfield]
    rfl

def Field.parts (field : Field) : List Part :=
  (Reading.mk field 0).parts.map Prod.fst

theorem Reading.map_fst_parts (r : Reading) : r.parts.map Prod.fst = r.field.parts := by
  obtain ⟨field, n⟩ := r
  cases field <;> rfl

theorem isRead_iff_exists_field {rs : List Reading} {part : Part} :
    IsRead rs part ↔ ∃ field ∈ rs.map Reading.field, part ∈ field.parts := by
  have hparts (r : Reading) : part ∈ r.field.parts ↔ ∃ n, (part, n) ∈ r.parts := by
    rw [← Reading.map_fst_parts, List.mem_map]
    simp only [Prod.exists, exists_and_right, exists_eq_right]
  simp only [IsRead, List.mem_map, exists_exists_and_eq_and, hparts]

def Part.letter? : Part → Option Char
  | .year => some 'Y'
  | .month => some 'm'
  | .day => some 'd'
  | .half | .hourOfHalf => some 'H'
  | .minute => some 'i'
  | .second => some 's'
  | .yearOfCentury | .weekday | .timestamp => none

def Part.IsNamedIn (layout : String) (part : Part) : Prop :=
  ∃ letter ∈ codes layout, part.letter? = some letter

theorem mem_parts_iff_letter? {letter : Char} {field : Field}
    (h : completeField? letter = some field) (part : Part) :
    part ∈ field.parts ↔ part.letter? = some letter := by
  unfold completeField? at h
  split at h <;> cases h <;> cases part <;> decide

theorem IsComplete.isRead_iff (h : IsComplete layout) {rs : List Reading}
    (hfields : rs.map Reading.field = (codes layout).filterMap completeField?) (part : Part) :
    IsRead rs part ↔ part.IsNamedIn layout := by
  rw [isRead_iff_exists_field, hfields]
  constructor
  · rintro ⟨field, hfield, hpart⟩
    obtain ⟨letter, hletter, hfield⟩ := List.mem_filterMap.mp hfield
    exact ⟨letter, hletter, (mem_parts_iff_letter? hfield part).mp hpart⟩
  · rintro ⟨letter, hletter, hpart⟩
    obtain ⟨field, hfield, -⟩ := itemOf_codeToken .reading (h.mem_completeLetters letter hletter)
    exact ⟨field, List.mem_filterMap.mpr ⟨letter, hletter, hfield⟩,
      (mem_parts_iff_letter? hfield part).mpr hpart⟩

theorem isNumberBefore_paddedDigits {width n : Nat} (hwidth : 0 < width) (h : n < 10 ^ width)
    (rest : List Char) : IsNumberBefore width (paddedDigits width n) rest where
  ne_nil hnil := by
    have hlength := length_paddedDigits hwidth h
    rw [hnil, List.length_nil] at hlength
    omega
  digits := isAsciiDigit_of_mem_paddedDigits width n
  length_le := Nat.le_of_eq (length_paddedDigits hwidth h)
  ends := Or.inl (length_paddedDigits hwidth h)

theorem readNumber?_paddedDigits {width n : Nat} (hwidth : 0 < width) (h : n < 10 ^ width)
    (rest : List Char) : readNumber? width (paddedDigits width n ++ rest) = some (n, rest) := by
  rw [readNumber?_append (isNumberBefore_paddedDigits hwidth h rest), digitsValue_paddedDigits]

theorem dropWhile_paddedDigits {width n : Nat} (hwidth : 0 < width) (h : n < 10 ^ width)
    (rest : List Char) :
    (paddedDigits width n ++ rest).dropWhile isBlank = paddedDigits width n ++ rest :=
  (isNumberBefore_paddedDigits hwidth h rest).dropWhile_isBlank

theorem scan?_writeYear {year : Int} (h : 0 ≤ year ∧ year ≤ 9999) (rest : List Char) :
    Field.scan? .year (writeYear year ++ rest) = some (year, rest) := by
  have hwidth : year.natAbs < 10 ^ 4 := by omega
  have hyear : writeYear year = paddedDigits 4 year.natAbs := by
    rw [writeYear, if_neg (by omega), if_neg (by omega), List.nil_append]
  rw [Field.scan?, hyear, dropWhile_paddedDigits (by decide) hwidth, readYear?_of_unsigned,
    readNumber?_paddedDigits (by decide) hwidth]
  · exact congrArg (fun n => some (n, rest)) (Int.natAbs_of_nonneg h.1)
  · intro c hc
    have hdigit :=
      (isNumberBefore_paddedDigits (by decide) hwidth rest).isAsciiDigit_of_head? hc
    constructor <;> rintro rfl <;> exact absurd hdigit (by decide)

theorem Date.IsValid.day_le {date : Date} (h : date.IsValid) : date.day ≤ 31 := by
  obtain ⟨-, -, -, -, -, hday⟩ := h
  unfold daysInMonth at hday
  split at hday
  · split at hday <;> omega
  · split at hday <;> omega

theorem IsWritable.scan?_writeField (ht : IsWritable layout t) {letter : Char} {field : Field}
    (h : completeField? letter = some field) (rest : List Char) :
    field.scan? (writeField field true t ++ rest) = some (field.valueAt t, rest) := by
  obtain ⟨hhour, hminute, hsecond⟩ := ht.time
  have hday := ht.date.day_le
  obtain ⟨-, -, -, hmonth, -, -⟩ := ht.date
  have hcounted {n : Nat} (hn : n < 100) :
      readNumber? 2 ((paddedDigits 2 n ++ rest).dropWhile isBlank) = some (n, rest) := by
    rw [dropWhile_paddedDigits (by decide) hn, readNumber?_paddedDigits (by decide) hn]
  unfold completeField? at h
  split at h <;> cases h
  case h_1 => exact scan?_writeYear ht.year rest
  all_goals
    rw [Field.scan?, writeField, writeNumber, if_pos rfl, hcounted (by omega)]
    rfl

def shownReadings (is : List Item) (t : DateTime) : List Reading :=
  (is.filterMap Item.field?).map fun field => ⟨field, field.valueAt t⟩

theorem readings?_writeItems {is : List Item} (his : ∀ item ∈ is, item.IsWordless)
    (hscan : ∀ field padded, .field field padded ∈ is → ∀ rest,
      field.scan? (writeField field padded t ++ rest) = some (field.valueAt t, rest)) :
    readings? is (writeItems is t) = some (shownReadings is t) := by
  induction is with
  | nil => rfl
  | cons item is ih =>
    obtain ⟨hitem, hitems⟩ := List.forall_mem_cons.mp his
    have hrest := ih hitems fun field padded hmem =>
      hscan field padded (List.mem_cons_of_mem _ hmem)
    cases item with
    | invalid => cases hitem
    | literal c => exact (if_pos rfl).trans hrest
    | blank c =>
      -- The blanks that are written next are skipped together with this one.
      show readings? is ((c :: writeItems is t).dropWhile isBlank) = some (shownReadings is t)
      rw [List.dropWhile_cons_of_pos hitem]
      exact readings?_dropWhile hitems hrest
    | field field padded =>
      show readings? (.field field padded :: is) (writeField field padded t ++ writeItems is t) = _
      rw [readings?, hscan field padded List.mem_cons_self]
      show (readings? is (writeItems is t)).map _ = _
      rw [hrest]
      rfl

theorem IsComplete.readings?_writeDateTime (h : IsComplete layout) (ht : IsWritable layout t) :
    readings? (layoutItems .reading layout) (writeDateTime layout t).toList =
      some (shownReadings (layoutItems .reading layout) t) := by
  rw [writeDateTime, String.toList_ofList, h.layoutItems_writing]
  refine readings?_writeItems h.isWordless fun field padded hitem rest => ?_
  rcases h.item_cases hitem with ⟨letter, -, named, hfield, heq⟩ | ⟨c, heq⟩
  · obtain ⟨rfl, rfl⟩ := Item.field.inj heq
    exact ht.scan?_writeField hfield rest
  · rw [itemOf_literalToken] at heq
    split at heq <;> cases heq

/-- What a complete layout shows of a moment is in range, and about the moment's own parts. -/
theorem IsWritable.inRange_and_parts (ht : IsWritable layout t) {letter : Char} {field : Field}
    (h : completeField? letter = some field) :
    (Reading.mk field (field.valueAt t)).InRange ∧
      ∀ part ∈ (Reading.mk field (field.valueAt t)).parts, part.2 = part.1.valueAt t := by
  have hyear := ht.year
  have htime := ht.time
  have hday := ht.date.day_le
  obtain ⟨-, -, hmonth, hmonth', hday', -⟩ := ht.date
  unfold completeField? at h
  split at h <;> cases h <;>
    simp only [Reading.InRange, Reading.parts, Field.valueAt, Part.valueAt, List.forall_mem_cons,
      List.not_mem_nil, false_imp_iff, implies_true, and_true] <;> omega

structure Fields.ShowJust (layout : String) (t : DateTime) (fields : Fields) : Prop where
  shown : ∀ part : Part, part.IsNamedIn layout → fields.get? part = some (part.valueAt t)
  hidden : ∀ part : Part, ¬ part.IsNamedIn layout → fields.get? part = none

theorem IsComplete.exists_showAll? (h : IsComplete layout) (ht : IsWritable layout t) :
    ∃ fields, showAll? (shownReadings (layoutItems .reading layout) t) .empty = some fields ∧
      fields.ShowJust layout t := by
  obtain ⟨rs, hrs⟩ : ∃ rs, rs = shownReadings (layoutItems .reading layout) t := ⟨_, rfl⟩
  have hvalues : ∀ r ∈ rs, r.InRange ∧ ∀ part ∈ r.parts, part.2 = part.1.valueAt t := by
    intro r hr
    rw [hrs] at hr
    obtain ⟨field, hfield, rfl⟩ := List.mem_map.mp hr
    rw [h.filterMap_field?] at hfield
    obtain ⟨letter, -, hletter⟩ := List.mem_filterMap.mp hfield
    exact ht.inRange_and_parts hletter
  obtain ⟨fields, hshow⟩ : ∃ fields, showAll? rs .empty = some fields :=
    exists_showAll?_eq_some (fun r hr => (hvalues r hr).1)
      (fun part n hn => by rw [Fields.get?_empty] at hn; cases hn) fun r hr => (hvalues r hr).2
  obtain ⟨-, hget⟩ := records_of_showAll? hshow
  have hread : ∀ part, IsRead rs part ↔ part.IsNamedIn layout := h.isRead_iff (by
    rw [hrs, shownReadings, List.map_map, ← h.filterMap_field?]
    exact List.map_id _)
  refine ⟨fields, hrs ▸ hshow, fun part hnamed => ?_, fun part hnamed => ?_⟩
  · obtain ⟨n, hn⟩ := exists_get?_of_isRead hget ((hread part).mpr hnamed)
    obtain ⟨r, hr, hpart⟩ := (hget part n).mp hn
    exact hn.trans (congrArg some ((hvalues r hr).2 _ hpart))
  · rw [Option.eq_none_iff_forall_ne_some]
    exact fun n hn => hnamed ((hread part).mp (isRead_of_get? hget hn))

theorem eq_some_of_map_ofNat {shown? : Option Nat} {n : Nat}
    (h : shown?.map Int.ofNat = some (n : Int)) : shown? = some n := by
  obtain ⟨m, hm, heq⟩ := Option.map_eq_some_iff.mp h
  rw [hm, Int.ofNat.inj heq]

theorem Part.not_isNamedIn {part : Part} (h : part.letter? = none) : ¬ part.IsNamedIn layout := by
  rintro ⟨letter, -, hletter⟩
  rw [h] at hletter
  cases hletter

theorem Part.IsNamedIn.mem_codes {part : Part} (h : part.IsNamedIn layout) {letter : Char}
    (hletter : part.letter? = some letter) : letter ∈ codes layout := by
  obtain ⟨_, hmem, hsame⟩ := h
  obtain rfl := Option.some.inj (hsame.symm.trans hletter)
  exact hmem

namespace Fields.ShowJust

variable {fields : Fields}

theorem resolveDate_eq_ok (hfields : fields.ShowJust layout t) (h : IsComplete layout)
    (ht : IsWritable layout t) : fields.resolveDate = .ok t.date := by
  obtain ⟨hyear, hmonth, hday⟩ := h.mem_codes_of_date
  have hyear : fields.year? = some t.date.year := hfields.shown .year ⟨'Y', hyear, rfl⟩
  have hmonth : fields.month? = some t.date.month :=
    eq_some_of_map_ofNat (hfields.shown .month ⟨'m', hmonth, rfl⟩)
  have hday : fields.day? = some t.date.day :=
    eq_some_of_map_ofNat (hfields.shown .day ⟨'d', hday, rfl⟩)
  have hshort : fields.yearOfCentury? = none :=
    Option.map_eq_none_iff.mp (hfields.hidden .yearOfCentury (Part.not_isNamedIn rfl))
  have hweekday : fields.weekday? = none :=
    Option.map_eq_none_iff.mp (hfields.hidden .weekday (Part.not_isNamedIn rfl))
  have hvalid : Date.IsValid ⟨t.date.year, t.date.month, t.date.day⟩ ∧
      agrees fields.weekday? (Date.weekday ⟨t.date.year, t.date.month, t.date.day⟩) = true :=
    ⟨ht.date, by rw [hweekday, agrees]⟩
  rw [Fields.resolveDate, resolveYear, hyear, hshort, hmonth, hday]
  exact if_pos hvalid

theorem getD_second? (hfields : fields.ShowJust layout t) (ht : IsWritable layout t) :
    fields.second?.getD 0 = t.time.second := by
  by_cases hsecond : 's' ∈ codes layout
  · rw [eq_some_of_map_ofNat (hfields.shown .second ⟨'s', hsecond, rfl⟩), Option.getD_some]
  · have hnamed : ¬ Part.second.IsNamedIn layout := fun hnamed => hsecond (hnamed.mem_codes rfl)
    rw [Option.map_eq_none_iff.mp (hfields.hidden .second hnamed), Option.getD_none,
      ht.second hsecond]

theorem resolveTime_eq_ok (hfields : fields.ShowJust layout t) (ht : IsWritable layout t)
    (hhour : 'H' ∈ codes layout) (hminute : 'i' ∈ codes layout) :
    fields.resolveTime = .ok t.time := by
  obtain ⟨afternoon, hafternoon, hhalf⟩ := Option.map_eq_some_iff.mp
    (hfields.shown .half ⟨'H', hhour, rfl⟩)
  have hhour12 : fields.hour12? = some (t.time.hour % 12) :=
    eq_some_of_map_ofNat (hfields.shown .hourOfHalf ⟨'H', hhour, rfl⟩)
  have hminute : fields.minute? = some t.time.minute :=
    eq_some_of_map_ofNat (hfields.shown .minute ⟨'i', hminute, rfl⟩)
  have hhours : (if afternoon then 12 else 0) + t.time.hour % 12 = t.time.hour := by
    have hbound := ht.time.1
    simp only [Part.valueAt] at hhalf
    cases afternoon
    · simp only [Bool.toNat_false, Bool.false_eq_true, if_false] at hhalf ⊢
      omega
    · simp only [Bool.toNat_true, if_true] at hhalf ⊢
      omega
  rw [Fields.resolveTime, hafternoon, hhour12, hminute]
  dsimp only
  rw [hhours, hfields.getD_second? ht]

theorem resolve?_eq_some (hfields : fields.ShowJust layout t) (h : IsComplete layout)
    (ht : IsWritable layout t) : fields.resolve? = some t := by
  have htimestamp : fields.timestamp? = none := hfields.hidden .timestamp (Part.not_isNamedIn rfl)
  refine (resolve?_eq_some_iff htimestamp).mpr ⟨hfields.resolveDate_eq_ok h ht, ?_⟩
  rcases h.mem_codes_of_time with ⟨hhour, hminute⟩ | ⟨hhour, hminute, hsecond⟩
  · rw [hfields.resolveTime_eq_ok ht hhour hminute]
    rfl
  · have hnamed : ¬ Part.half.IsNamedIn layout := fun hnamed => hhour (hnamed.mem_codes rfl)
    rw [Fields.resolveTime, Option.map_eq_none_iff.mp (hfields.hidden .half hnamed)]
    calc
      t.time = ⟨t.time.hour, t.time.minute, t.time.second⟩ := rfl
      _ = .midnight := by rw [ht.hour hhour, ht.minute hminute, ht.second hsecond, Time.midnight]

end Fields.ShowJust

theorem IsComplete.readDate_writeDateTime (h : IsComplete layout) (ht : IsWritable layout t) :
    Filters.readDate (writeDateTime layout t) layout = .ok (some t) := by
  obtain ⟨fields, hshow, hfields⟩ := h.exists_showAll? ht
  exact readDate_eq_ok_some_iff.mpr ⟨_, fields, h.readings?_writeDateTime ht, hshow,
    hfields.resolve?_eq_some h ht⟩

theorem IsComplete.readDate_strip (h : IsComplete layout) {text : String}
    (hread : Filters.readDate text layout = .ok (some t)) :
    Filters.readDate (strip text) layout = .ok (some t) := by
  obtain ⟨rs, fields, hrs, hshow, hresolve⟩ := readDate_eq_ok_some_iff.mp hread
  refine readDate_eq_ok_some_iff.mpr ⟨rs, fields, ?_, hshow, hresolve⟩
  rw [strip, String.toList_ofList]
  exact readings?_trimBy h.isWordless hrs

/-- A moment that is read along a complete layout has nothing beside what the layout names. -/
theorem IsComplete.isWritable_of_readDate (h : IsComplete layout) {text : String}
    (hread : Filters.readDate text layout = .ok (some t))
    (hyear : 0 ≤ t.date.year ∧ t.date.year ≤ 9999) : IsWritable layout t := by
  obtain ⟨rs, fields, hrs, hshow, hresolve⟩ := readDate_eq_ok_some_iff.mp hread
  obtain ⟨hrange, hget⟩ := records_of_showAll? hshow
  have hnamed : ∀ part n, fields.get? part = some n → part.IsNamedIn layout := fun part n hn =>
    (h.isRead_iff ((field_of_readings? hrs).trans h.filterMap_field?) part).mp
      (isRead_of_get? hget hn)
  have htimestamp : fields.timestamp? = none := by
    rw [Option.eq_none_iff_forall_ne_some]
    exact fun n hn => Part.not_isNamedIn rfl (hnamed .timestamp n hn)
  obtain ⟨hdate, htime⟩ := (Fields.resolve?_eq_some_iff htimestamp).mp hresolve
  obtain ⟨-, -, -, hvalid, -⟩ := Fields.resolveDate_eq_ok hdate
  cases hresolved : fields.resolveTime with
  | error unresolved =>
    have hmidnight : t.time = .midnight := by
      rw [htime, hresolved]
      rfl
    exact ⟨hvalid, hyear, by rw [hmidnight]; decide, fun _ => by rw [hmidnight]; rfl,
      fun _ => by rw [hmidnight]; rfl, fun _ => by rw [hmidnight]; rfl⟩
  | ok time =>
    obtain rfl : t.time = time := by
      rw [htime, hresolved]
      rfl
    obtain ⟨afternoon, hour12, minute, hhalf, -, hminute, heq⟩ := Fields.resolveTime_eq_ok hresolved
    refine ⟨hvalid, hyear, Fields.resolveTime_bounds (hget.admissible hrange) hresolved,
      fun hhidden => ?_, fun hhidden => ?_, fun hhidden => ?_⟩
    · have hnamed := hnamed .half afternoon.toNat (by rw [Fields.get?, hhalf]; rfl)
      exact absurd (hnamed.mem_codes rfl) hhidden
    · have hnamed := hnamed .minute minute (by rw [Fields.get?, hminute]; rfl)
      exact absurd (hnamed.mem_codes rfl) hhidden
    · rw [heq]
      cases hsecond : fields.second? with
      | none => rfl
      | some second =>
        have hnamed := hnamed .second second (by rw [Fields.get?, hsecond]; rfl)
        exact absurd (hnamed.mem_codes rfl) hhidden

theorem IsWritable.of_codes (ht : IsWritable source t)
    (hcodes : ∀ letter, letter ∈ codes source ↔ letter ∈ codes target) : IsWritable target t :=
  ⟨ht.date, ht.year, ht.time, fun h => ht.hour (mt (hcodes 'H').mp h),
    fun h => ht.minute (mt (hcodes 'i').mp h), fun h => ht.second (mt (hcodes 's').mp h)⟩

theorem reformatDate_of_readDate {v : Value} {s : String} (hs : v.asText = .ok s)
    (h : Filters.readDate (strip s) source = .ok (some t)) (target : String) :
    Filters.reformatDate source target v = .ok (.text (writeDateTime target t)) := by
  rw [Filters.reformatDate, hs, checkLayout_eq_ok]
  show (Filters.readDate (strip s) source >>= fun read? => _) = _
  rw [h]
  rfl

/-- A moment is read back from its text along a complete layout. So what is read along a complete
layout and written along another one with the same fields comes back, and this time along the
layout it came from, as if it had never been written otherwise. -/
theorem complete_layouts_round_trip (hsource : IsComplete source) :
    (∀ t, IsWritable source t →
        Filters.readDate (writeDateTime source t) source = .ok (some t)) ∧
      ∀ target v s t, IsComplete target →
        (∀ letter, letter ∈ codes source ↔ letter ∈ codes target) → v.asText = .ok s →
        (Filters.readDate s source = .ok (some t) ∨
          Filters.readDate (strip s) source = .ok (some t)) →
        0 ≤ t.date.year ∧ t.date.year ≤ 9999 →
        Filters.reformatDate source source v = .ok (.text (writeDateTime source t)) ∧
          (Filters.reformatDate source target v >>= Filters.reformatDate target source) =
            Filters.reformatDate source source v := by
  refine ⟨fun t ht => hsource.readDate_writeDateTime ht, ?_⟩
  intro target v s t htarget hcodes hs hread hyear
  have hread : Filters.readDate (strip s) source = .ok (some t) :=
    hread.elim hsource.readDate_strip id
  have ht := (hsource.isWritable_of_readDate hread hyear).of_codes hcodes
  have hback : Filters.readDate (strip (writeDateTime target t)) target = .ok (some t) :=
    htarget.readDate_strip (htarget.readDate_writeDateTime ht)
  have hdirect := reformatDate_of_readDate hs hread source
  refine ⟨hdirect, ?_⟩
  calc
    (Filters.reformatDate source target v >>= Filters.reformatDate target source)
    _ = Filters.reformatDate target source (.text (writeDateTime target t)) := by
      rw [reformatDate_of_readDate hs hread target]
      rfl
    _ = .ok (.text (writeDateTime source t)) := reformatDate_of_readDate rfl hback source
    _ = Filters.reformatDate source source v := hdirect.symm

/-- A digit stands right in front of the day, and blanks stand around the date. -/
theorem complete_layouts_round_trip_digits :
    Filters.readDate (writeDateTime "H:i 7dmY" ⟨⟨2024, 3, 15⟩, ⟨14, 5, 0⟩⟩) "H:i 7dmY" =
        .ok (some ⟨⟨2024, 3, 15⟩, ⟨14, 5, 0⟩⟩) ∧
      (Filters.reformatDate "H:i 7dmY" " Y\\ymd\t\\HiH " (.text " 14:05  715032024\n") >>=
          Filters.reformatDate " Y\\ymd\t\\HiH " "H:i 7dmY") =
        Filters.reformatDate "H:i 7dmY" "H:i 7dmY" (.text " 14:05  715032024\n") := by
  have hsource : IsComplete "H:i 7dmY" := by decide
  have htarget : IsComplete " Y\\ymd\t\\HiH " := by decide
  have hcodes : (codes "H:i 7dmY").Perm (codes " Y\\ymd\t\\HiH ") := by decide
  have hread : Filters.readDate (strip " 14:05  715032024\n") "H:i 7dmY" =
      .ok (some ⟨⟨2024, 3, 15⟩, ⟨14, 5, 0⟩⟩) := by
    decide
  obtain ⟨hback, hforth⟩ := complete_layouts_round_trip hsource
  exact ⟨hback _ ⟨by decide, by decide, by decide, by decide, by decide, by decide⟩,
    (hforth _ _ _ _ htarget (fun _ => hcodes.mem_iff) rfl (Or.inr hread) (by decide)).2⟩

end FilterChain.Calendar
