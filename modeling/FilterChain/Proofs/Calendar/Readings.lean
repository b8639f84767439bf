import FilterChain.Calendar.Reading
import Mathlib.Data.List.Basic

/-!
# What a text shows of a moment

Along the items of a layout a text shows numbers for the fields of the layout. Each of them is about
one or two parts of a moment. They go into a record of fields exactly if each is in the range of its
field and no two of them contradict each other, and then the record holds just the parts that they
are about.
-/

namespace FilterChain.Calendar

/-- A number that a text shows for a field. Weekdays are numbered from zero for Monday, months from
one, and the halves of the day are zero and one. -/
structure Reading where
  field : Field
  value : Int
  deriving DecidableEq, Repr

def Field.scan? (field : Field) (cs : List Char) : Option (Int × List Char) :=
  let counted (found? : Option (Nat × List Char)) (first : Nat) : Option (Int × List Char) :=
    found?.map fun (n, rest) => (((n + first : Nat) : Int), rest)
  let number := cs.dropWhile Text.isBlank
  match field with
  | .year => readYear? number
  | .timestamp => counted (readDigits? number) 0
  | .upperMeridiem | .lowerMeridiem =>
    counted ((readMeridiem? cs).map fun (b, rest) => (b.toNat, rest)) 0
  | .shortWeekday => counted (readAbbreviation? 0 weekdayNames cs) 0
  | .longWeekday => counted (readName? weekdayNames cs) 0
  | .shortMonth => counted (readAbbreviation? 0 monthNames cs) 1
  | .longMonth => counted (readName? monthNames cs) 1
  | .day | .month | .yearOfCentury | .hour | .hour12 | .minute | .second =>
    counted (readNumber? 2 number) 0

def readings? : List Item → List Char → Option (List Reading)
  | [], [] => some []
  | [], _ :: _ => none
  | .literal c :: is, d :: cs => if c = d then readings? is cs else none
  | .literal _ :: _, [] => none
  | .blank _ :: is, cs => readings? is (cs.dropWhile Text.isBlank)
  | .field field _ :: is, cs =>
    match field.scan? cs with
    | some (n, rest) => (readings? is rest).map (⟨field, n⟩ :: ·)
    | none => none
  | .invalid :: _, _ => none

def Reading.InRange (r : Reading) : Prop :=
  match r.field with
  | .year => -0x80000000 ≤ r.value ∧ r.value < 0x80000000
  | .yearOfCentury => 0 ≤ r.value ∧ r.value ≤ 99
  | .month | .shortMonth | .longMonth => 1 ≤ r.value ∧ r.value ≤ 12
  | .day => 1 ≤ r.value ∧ r.value ≤ 31
  | .shortWeekday | .longWeekday => 0 ≤ r.value
  | .upperMeridiem | .lowerMeridiem => 0 ≤ r.value ∧ r.value ≤ 1
  | .hour => 0 ≤ r.value ∧ r.value ≤ 23
  | .hour12 => 1 ≤ r.value ∧ r.value ≤ 12
  | .minute => 0 ≤ r.value ∧ r.value ≤ 59
  | .second => 0 ≤ r.value ∧ r.value ≤ 60
  | .timestamp => 0 ≤ r.value ∧ r.value < 0x8000000000000000

instance (r : Reading) : Decidable r.InRange := by
  unfold Reading.InRange
  cases r.field <;> exact inferInstance

/-- What a record of fields holds of a moment. An hour is kept as a half of the day and an hour of
this half. -/
inductive Part where
  | year
  | yearOfCentury
  | month
  | day
  | weekday
  | half
  | hourOfHalf
  | minute
  | second
  | timestamp
  deriving DecidableEq, Repr

def Part.Admits : Part → Int → Prop
  | .year, _ => True
  | .yearOfCentury, n => 0 ≤ n ∧ n ≤ 99
  | .month, n | .day, n | .weekday, n | .timestamp, n => 0 ≤ n
  | .half, n => 0 ≤ n ∧ n ≤ 1
  | .hourOfHalf, n => 0 ≤ n ∧ n ≤ 11
  | .minute, n => 0 ≤ n ∧ n ≤ 59
  | .second, n => 0 ≤ n ∧ n ≤ 60

def Reading.parts (r : Reading) : List (Part × Int) :=
  match r.field with
  | .year => [(.year, r.value)]
  | .yearOfCentury => [(.yearOfCentury, r.value)]
  | .month | .shortMonth | .longMonth => [(.month, r.value)]
  | .day => [(.day, r.value)]
  | .shortWeekday | .longWeekday => [(.weekday, r.value)]
  | .upperMeridiem | .lowerMeridiem => [(.half, r.value)]
  | .hour => [(.half, r.value / 12), (.hourOfHalf, r.value % 12)]
  | .hour12 => [(.hourOfHalf, r.value % 12)]
  | .minute => [(.minute, r.value)]
  | .second => [(.second, r.value)]
  | .timestamp => [(.timestamp, r.value)]

theorem Reading.InRange.admits {r : Reading} (h : r.InRange) :
    ∀ part ∈ r.parts, part.1.Admits part.2 := by
  obtain ⟨field, n⟩ := r
  cases field <;> simp only [InRange, parts] at h ⊢ <;>
    simp only [List.forall_mem_cons, List.not_mem_nil, false_imp_iff, implies_true, and_true,
      Part.Admits] <;> omega

namespace Fields

def get? (fields : Fields) : Part → Option Int
  | .year => fields.year?
  | .yearOfCentury => fields.yearOfCentury?.map Int.ofNat
  | .month => fields.month?.map Int.ofNat
  | .day => fields.day?.map Int.ofNat
  | .weekday => fields.weekday?.map Int.ofNat
  | .half => fields.afternoon?.map fun b => (b.toNat : Int)
  | .hourOfHalf => fields.hour12?.map Int.ofNat
  | .minute => fields.minute?.map Int.ofNat
  | .second => fields.second?.map Int.ofNat
  | .timestamp => fields.timestamp?

def put (part : Part) (n : Int) (fields : Fields) : Fields :=
  match part with
  | .year => { fields with year? := some n }
  | .yearOfCentury => { fields with yearOfCentury? := some n.toNat }
  | .month => { fields with month? := some n.toNat }
  | .day => { fields with day? := some n.toNat }
  | .weekday => { fields with weekday? := some n.toNat }
  | .half => { fields with afternoon? := some (decide (n = 1)) }
  | .hourOfHalf => { fields with hour12? := some n.toNat }
  | .minute => { fields with minute? := some n.toNat }
  | .second => { fields with second? := some n.toNat }
  | .timestamp => { fields with timestamp? := some n }

theorem get?_empty (part : Part) : empty.get? part = none := by
  cases part <;> rfl

theorem get?_put_self {part : Part} {n : Int} (h : part.Admits n) (fields : Fields) :
    (fields.put part n).get? part = some n := by
  cases part
  case half =>
    obtain rfl | rfl : n = 0 ∨ n = 1 := by
      have hbounds := h
      simp only [Part.Admits] at hbounds
      omega
    all_goals rfl
  case year | timestamp => rfl
  all_goals
    have hnonneg : 0 ≤ n := by
      simp only [Part.Admits] at h
      omega
    simp only [put, get?, Option.map_some, Int.ofNat_eq_natCast, Int.toNat_of_nonneg hnonneg]

theorem get?_put_of_ne {part other : Part} (h : other ≠ part) (n : Int) (fields : Fields) :
    (fields.put part n).get? other = fields.get? other := by
  cases part <;> cases other <;> first
    | rfl
    | exact absurd rfl h

end Fields

theorem agrees_eq_true_iff {α : Type} [DecidableEq α] {shown? : Option α} {a : α} :
    agrees shown? a = true ↔ ∀ b, shown? = some b → b = a := by
  cases shown? with
  | none => simp [agrees]
  | some b => simp [agrees, eq_comm]

theorem agrees_map_ofNat (shown? : Option Nat) (n : Nat) :
    agrees (shown?.map Int.ofNat) (n : Int) = agrees shown? n := by
  cases shown? with
  | none => rfl
  | some m => exact decide_eq_decide.mpr Int.natCast_inj

theorem agrees_map_toNat (shown? : Option Bool) (b : Bool) :
    agrees (shown?.map fun b => (b.toNat : Int)) (b.toNat : Int) = agrees shown? b := by
  cases shown? with
  | none => rfl
  | some c => cases b <;> cases c <;> rfl

/-- Puts a reading into a record, unless it is out of range or contradicts what the record holds. -/
def Reading.show? (r : Reading) (fields : Fields) : Option Fields :=
  if r.InRange ∧ ∀ part ∈ r.parts, agrees (fields.get? part.1) part.2 = true then
    some (r.parts.foldl (fun fields part => fields.put part.1 part.2) fields)
  else none

def showAll? : List Reading → Fields → Option Fields
  | [], fields => some fields
  | r :: rs, fields => (r.show? fields).bind (showAll? rs)

variable {fields : Fields}

theorem show?_counted (fields : Fields) :
    (∀ n : Nat, fields.setDay n = Reading.show? ⟨.day, n⟩ fields) ∧
      (∀ n : Nat, fields.setMonth n = Reading.show? ⟨.month, n⟩ fields) ∧
      (∀ n : Nat, fields.setYearOfCentury n = Reading.show? ⟨.yearOfCentury, n⟩ fields) ∧
      (∀ n : Nat, fields.setWeekday n = Reading.show? ⟨.shortWeekday, n⟩ fields) ∧
      (∀ n : Nat, fields.setMinute n = Reading.show? ⟨.minute, n⟩ fields) ∧
      ∀ n : Nat, fields.setSecond n = Reading.show? ⟨.second, n⟩ fields := by
  refine ⟨?_, ?_, ?_, ?_, ?_, ?_⟩ <;> refine fun n => if_congr ?_ rfl rfl <;>
    simp only [Reading.InRange, Reading.parts, List.forall_mem_singleton, Fields.get?,
      agrees_map_ofNat] <;>
    grind

theorem setYear_eq (n : Int) (fields : Fields) :
    fields.setYear n = Reading.show? ⟨.year, n⟩ fields := by
  refine if_congr ?_ rfl rfl
  simp only [Reading.InRange, Reading.parts, List.forall_mem_singleton, Fields.get?, and_assoc]

theorem setTimestamp_eq (n : Nat) (fields : Fields) :
    fields.setTimestamp n = Reading.show? ⟨.timestamp, n⟩ fields := by
  refine if_congr ?_ rfl rfl
  simp only [Reading.InRange, Reading.parts, List.forall_mem_singleton, Fields.get?]
  grind

theorem setAfternoon_eq (b : Bool) (fields : Fields) :
    fields.setAfternoon b = Reading.show? ⟨.upperMeridiem, (b.toNat : Int)⟩ fields := by
  have hput : fields.put .half (b.toNat : Int) = { fields with afternoon? := some b } := by
    cases b <;> rfl
  have hrange : 0 ≤ (b.toNat : Int) ∧ (b.toNat : Int) ≤ 1 := by cases b <;> decide
  simp only [Fields.setAfternoon, Reading.show?, Reading.InRange, Reading.parts,
    List.forall_mem_singleton, Fields.get?, agrees_map_toNat, List.foldl_cons, List.foldl_nil, hput,
    hrange, true_and]

theorem setHour12_eq (n : Nat) (fields : Fields) :
    fields.setHour12 n = Reading.show? ⟨.hour12, n⟩ fields := by
  refine if_congr ?_ rfl rfl
  have hcast : (n : Int) % 12 = ((n % 12 : Nat) : Int) := rfl
  simp only [Reading.InRange, Reading.parts, List.forall_mem_singleton, Fields.get?, hcast,
    agrees_map_ofNat]
  grind

theorem setHour_eq (n : Nat) (fields : Fields) :
    fields.setHour n = Reading.show? ⟨.hour, n⟩ fields := by
  by_cases hn : n ≤ 23
  · have hhalf : (n : Int) / 12 = ((decide (12 ≤ n)).toNat : Int) := by
      by_cases hnoon : 12 ≤ n
      · rw [decide_eq_true hnoon, Bool.toNat_true]
        omega
      · rw [decide_eq_false hnoon, Bool.toNat_false]
        omega
    have hcast : (n : Int) % 12 = ((n % 12 : Nat) : Int) := rfl
    have hput : (fields.put .half ((decide (12 ≤ n)).toNat : Int)).put .hourOfHalf
        ((n % 12 : Nat) : Int) =
        { fields with afternoon? := some (decide (12 ≤ n)), hour12? := some (n % 12) } := by
      cases decide (12 ≤ n) <;> rfl
    have hrange : 0 ≤ (n : Int) ∧ (n : Int) ≤ 23 := by omega
    simp only [Fields.setHour, Reading.show?, Reading.InRange, Reading.parts,
      List.forall_mem_cons, List.not_mem_nil, false_imp_iff, implies_true, and_true, Fields.get?,
      hhalf, hcast, agrees_map_toNat, agrees_map_ofNat, List.foldl_cons, List.foldl_nil, hput,
      hrange, hn, true_and, and_self]
  · have hrange : ¬ (Reading.mk .hour n).InRange := by
      simp only [Reading.InRange]
      omega
    rw [Fields.setHour, if_neg (fun h => hn h.1), Reading.show?, if_neg (fun h => hrange h.1)]

theorem bind_counted {field : Field} {found? : Option (Nat × List Char)}
    (set : Nat → Option Fields) (first : Nat)
    (hset : ∀ n, set n = Reading.show? ⟨field, ((n + first : Nat) : Int)⟩ fields) :
    (found?.bind fun found => (set found.1).bind fun shown => some (found.2, shown)) =
      (found?.map fun found => (((found.1 + first : Nat) : Int), found.2)).bind fun found =>
        (Reading.show? ⟨field, found.1⟩ fields).map fun shown => (found.2, shown) := by
  cases found? with
  | none => rfl
  | some found =>
    simp only [Option.bind_some, Option.map_some, hset]
    cases Reading.show? ⟨field, ((found.1 + first : Nat) : Int)⟩ fields <;> rfl

theorem readField?_eq (field : Field) (cs : List Char) (fields : Fields) :
    readField? field cs fields = (field.scan? cs).bind fun found =>
      (Reading.show? ⟨field, found.1⟩ fields).map fun shown => (found.2, shown) := by
  obtain ⟨hday, hmonth, hshort, hweekday, hminute, hsecond⟩ := show?_counted fields
  cases field
  case day => exact bind_counted fields.setDay 0 hday
  case month => exact bind_counted fields.setMonth 0 hmonth
  case yearOfCentury => exact bind_counted fields.setYearOfCentury 0 hshort
  case minute => exact bind_counted fields.setMinute 0 hminute
  case second => exact bind_counted fields.setSecond 0 hsecond
  case hour => exact bind_counted fields.setHour 0 fun n => setHour_eq n fields
  case hour12 => exact bind_counted fields.setHour12 0 fun n => setHour12_eq n fields
  case timestamp =>
    exact bind_counted (fun n => fields.setTimestamp n) 0 fun n => setTimestamp_eq n fields
  case shortWeekday | longWeekday => exact bind_counted fields.setWeekday 0 hweekday
  case shortMonth | longMonth =>
    exact bind_counted (fun n => fields.setMonth (n + 1)) 1 fun n => hmonth (n + 1)
  case year =>
    show ((readYear? (cs.dropWhile Text.isBlank)).bind fun found =>
      (fields.setYear found.1).bind fun shown => some (found.2, shown)) = _
    simp only [setYear_eq, Field.scan?, Option.map_eq_bind]
    rfl
  case upperMeridiem | lowerMeridiem =>
    show ((readMeridiem? cs).bind fun found =>
      (fields.setAfternoon found.1).bind fun shown => some (found.2, shown)) = _
    simp only [setAfternoon_eq, Field.scan?, Option.map_eq_bind, Option.bind_assoc]
    rfl

/-- Reading a text is to take its readings and to show them one after the other. -/
theorem readItems?_eq (is : List Item) (cs : List Char) (fields : Fields) :
    readItems? is cs fields = (readings? is cs).bind fun rs => showAll? rs fields := by
  induction is generalizing cs fields with
  | nil => cases cs <;> rfl
  | cons item is ih =>
    cases item with
    | invalid => rfl
    | blank c => exact ih _ _
    | literal c =>
      cases cs with
      | nil => rfl
      | cons d cs =>
        simp only [readItems?, readings?]
        split
        · exact ih _ _
        · rfl
    | field field padded =>
      rw [readItems?, readings?, readField?_eq]
      cases hscan : field.scan? cs with
      | none => rfl
      | some found =>
        simp only [Option.bind_some]
        cases hshow : Reading.show? ⟨field, found.1⟩ fields with
        | none =>
          cases readings? is found.2 with
          | none => rfl
          | some rs => simp only [Option.map_none, Option.map_some, Option.bind_some, showAll?,
              hshow, Option.bind_none]
        | some shown =>
          simp only [Option.map_some, ih]
          cases readings? is found.2 with
          | none => rfl
          | some rs => simp only [Option.map_some, Option.bind_some, showAll?, hshow]

def Item.field? : Item → Option Field
  | .field named _ => some named
  | _ => none

theorem field_of_readings? {is : List Item} {cs : List Char} {rs : List Reading}
    (h : readings? is cs = some rs) : rs.map Reading.field = is.filterMap Item.field? := by
  fun_induction readings? is cs generalizing rs with
  | case1 =>
    obtain rfl := Option.some.inj h
    rfl
  | case3 is d cs ih => exact ih h
  | case6 c is cs ih => exact ih h
  | case7 field padded is cs n rest hscan ih =>
    obtain ⟨rs, hrs, rfl⟩ := Option.map_eq_some_iff.mp h
    rw [List.map_cons, ih hrs]
    rfl
  | case2 | case4 | case5 | case8 | case9 => cases h

theorem get?_foldl_put {parts : List (Part × Int)} (hkeys : (parts.map Prod.fst).Nodup)
    (hadmits : ∀ part ∈ parts, part.1.Admits part.2)
    (hagrees : ∀ part ∈ parts, agrees (fields.get? part.1) part.2 = true) (part : Part) (n : Int) :
    (parts.foldl (fun fields part => fields.put part.1 part.2) fields).get? part = some n ↔
      fields.get? part = some n ∨ (part, n) ∈ parts := by
  induction parts generalizing fields with
  | nil => simp
  | cons first parts ih =>
    obtain ⟨hfirst, hkeys⟩ := List.nodup_cons.mp hkeys
    obtain ⟨hfits, hadmits⟩ := List.forall_mem_cons.mp hadmits
    obtain ⟨hagree, hagrees⟩ := List.forall_mem_cons.mp hagrees
    have hother : ∀ other ∈ parts, other.1 ≠ first.1 := fun other hmem heq =>
      hfirst (heq ▸ List.mem_map_of_mem hmem)
    rw [List.foldl_cons, ih hkeys hadmits fun other hmem => by
      rw [Fields.get?_put_of_ne (hother other hmem)]
      exact hagrees other hmem]
    rw [List.mem_cons, ← or_assoc]
    refine or_congr ?_ Iff.rfl
    by_cases hpart : part = first.1
    · subst hpart
      rw [Fields.get?_put_self hfits, Option.some.injEq]
      constructor
      · rintro rfl
        exact Or.inr rfl
      · rintro (hheld | heq)
        · exact (agrees_eq_true_iff.mp hagree n hheld).symm
        · exact (congrArg Prod.snd heq).symm
    · rw [Fields.get?_put_of_ne hpart]
      constructor
      · exact Or.inl
      · rintro (hheld | heq)
        · exact hheld
        · exact absurd (congrArg Prod.fst heq) hpart

theorem Reading.nodup_parts (r : Reading) : (r.parts.map Prod.fst).Nodup := by
  obtain ⟨field, n⟩ := r
  cases field <;> simp [parts]

theorem get?_of_show? {r : Reading} {shown : Fields} (h : r.show? fields = some shown) :
    r.InRange ∧ ∀ part n, shown.get? part = some n ↔
      fields.get? part = some n ∨ (part, n) ∈ r.parts := by
  rw [Reading.show?] at h
  split at h
  · next hgood =>
    obtain rfl := Option.some.inj h
    exact ⟨hgood.1, get?_foldl_put r.nodup_parts hgood.1.admits hgood.2⟩
  · cases h

theorem get?_of_showAll? {rs : List Reading} {shown : Fields}
    (h : showAll? rs fields = some shown) :
    (∀ r ∈ rs, r.InRange) ∧ ∀ part n, shown.get? part = some n ↔
      fields.get? part = some n ∨ ∃ r ∈ rs, (part, n) ∈ r.parts := by
  induction rs generalizing fields with
  | nil =>
    obtain rfl := Option.some.inj h
    simp
  | cons r rs ih =>
    obtain ⟨middle, hmiddle, hshown⟩ := Option.bind_eq_some_iff.mp h
    obtain ⟨hrange, hparts⟩ := get?_of_show? hmiddle
    obtain ⟨hranges, hrest⟩ := ih hshown
    refine ⟨List.forall_mem_cons.mpr ⟨hrange, hranges⟩, fun part n => ?_⟩
    rw [hrest, hparts, List.exists_mem_cons_iff, or_assoc]

/-- Whether a record holds just the parts that readings are about. -/
def Fields.Records (fields : Fields) (rs : List Reading) : Prop :=
  ∀ part n, fields.get? part = some n ↔ ∃ r ∈ rs, (part, n) ∈ r.parts

theorem records_of_showAll? {rs : List Reading} (h : showAll? rs .empty = some fields) :
    (∀ r ∈ rs, r.InRange) ∧ fields.Records rs := by
  obtain ⟨hrange, hget⟩ := get?_of_showAll? h
  refine ⟨hrange, fun part n => ?_⟩
  rw [hget, Fields.get?_empty]
  simp only [reduceCtorEq, false_or]

/-- Every number of a record is one that its part can have. -/
def Fields.Admissible (fields : Fields) : Prop :=
  ∀ part n, fields.get? part = some n → part.Admits n

theorem Fields.Records.admissible {rs : List Reading} (h : fields.Records rs)
    (hrange : ∀ r ∈ rs, r.InRange) : fields.Admissible := by
  intro part n hn
  obtain ⟨r, hr, hmem⟩ := (h part n).mp hn
  exact (hrange r hr).admits _ hmem

theorem exists_showAll?_eq_some {rs : List Reading} {value : Part → Int}
    (hrange : ∀ r ∈ rs, r.InRange)
    (hfields : ∀ part n, fields.get? part = some n → n = value part)
    (hvalue : ∀ r ∈ rs, ∀ part ∈ r.parts, part.2 = value part.1) :
    ∃ shown, showAll? rs fields = some shown := by
  induction rs generalizing fields with
  | nil => exact ⟨fields, rfl⟩
  | cons r rs ih =>
    obtain ⟨hr, hrange⟩ := List.forall_mem_cons.mp hrange
    obtain ⟨hpart, hvalue⟩ := List.forall_mem_cons.mp hvalue
    obtain ⟨middle, hmiddle⟩ : ∃ middle, r.show? fields = some middle := by
      rw [Reading.show?, if_pos]
      · exact ⟨_, rfl⟩
      · refine ⟨hr, fun part hmem => agrees_eq_true_iff.mpr fun n hn => ?_⟩
        rw [hfields _ n hn, hpart part hmem]
    obtain ⟨shown, hshown⟩ := ih hrange (fun part n hn => by
      rcases ((get?_of_show? hmiddle).2 part n).mp hn with hheld | hadded
      · exact hfields part n hheld
      · exact hpart (part, n) hadded) hvalue
    exact ⟨shown, Option.bind_eq_some_iff.mpr ⟨middle, hmiddle, hshown⟩⟩

end FilterChain.Calendar
