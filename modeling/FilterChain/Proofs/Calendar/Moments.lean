import FilterChain.Proofs.Calendar.Days
import FilterChain.Proofs.Calendar.Readings
import FilterChain.Proofs.Calendar.Spelling
import FilterChain.Proofs.Outcome

/-!
# Moments of readings

A moment that is put together from readings shows them all, with two exceptions. If the readings
have a date of their own, then the hour, the minute or the second are lost if they do not make up a
time of day, and the moment is at midnight; and a timestamp is lost if it is not that of this date.
-/

namespace FilterChain.Calendar

def Field.valueAt (t : DateTime) : Field → Int
  | .year => t.date.year
  | .yearOfCentury => t.date.year % 100
  | .month | .shortMonth | .longMonth => t.date.month
  | .day => t.date.day
  | .shortWeekday | .longWeekday => t.date.weekday
  | .upperMeridiem | .lowerMeridiem => if t.time.hour < 12 then 0 else 1
  | .hour => t.time.hour
  | .hour12 => hourOfHalf t.time.hour
  | .minute => t.time.minute
  | .second => t.time.second
  | .timestamp => t.timestamp

/-- Whether a moment shows what was read. A leap second also shows the timestamp of the second
behind it. -/
def Reading.IsShownAt (t : DateTime) (r : Reading) : Prop :=
  if r.field = .timestamp then Fields.timestampFits t r.value = true
  else r.value = r.field.valueAt t

instance (t : DateTime) (r : Reading) : Decidable (r.IsShownAt t) := by
  unfold Reading.IsShownAt
  exact inferInstance

def Part.valueAt (t : DateTime) : Part → Int
  | .year => t.date.year
  | .yearOfCentury => t.date.year % 100
  | .month => t.date.month
  | .day => t.date.day
  | .weekday => t.date.weekday
  | .half => t.time.hour / 12
  | .hourOfHalf => t.time.hour % 12
  | .minute => t.time.minute
  | .second => t.time.second
  | .timestamp => t.timestamp

def Part.IsShownAt (t : DateTime) (part : Part) (n : Int) : Prop :=
  if part = .timestamp then Fields.timestampFits t n = true else n = part.valueAt t

def Part.isOfDate : Part → Bool
  | .year | .yearOfCentury | .month | .day | .weekday => true
  | _ => false

def Part.isOfTime : Part → Bool
  | .half | .hourOfHalf | .minute | .second => true
  | _ => false

theorem Reading.isShownAt_of_parts {t : DateTime} {r : Reading} (hrange : r.InRange)
    (h : ∀ part ∈ r.parts, part.1.IsShownAt t part.2) : r.IsShownAt t := by
  obtain ⟨field, n⟩ := r
  cases field <;>
    simp only [InRange, parts, IsShownAt, Part.IsShownAt, Part.valueAt, Field.valueAt,
      List.forall_mem_cons, List.not_mem_nil, false_imp_iff, implies_true, and_true, hourOfHalf,
      reduceCtorEq, if_true, if_false] at hrange h ⊢
  case hour | upperMeridiem | lowerMeridiem => omega
  case hour12 => split <;> omega
  all_goals exact h

namespace Fields

variable {fields : Fields} {t : DateTime} {n : Int}

theorem resolveYear_eq_ok {year : Int} (hadmits : fields.Admissible)
    (h : fields.resolveYear = .ok year) :
    (∀ n, fields.get? .year = some n → n = year) ∧
      ∀ n, fields.get? .yearOfCentury = some n → n = year % 100 := by
  have hshort := hadmits .yearOfCentury
  simp only [get?, Part.Admits] at hshort ⊢
  unfold resolveYear at h
  split at h
  · next hyear hnone => simp_all
  · next year' short hyear hsome =>
    split at h
    · next hfits =>
      obtain rfl := Except.ok.inj h
      simp_all
    · cases h
  · next short hnone hsome =>
    obtain rfl := Except.ok.inj h
    obtain ⟨-, hle⟩ := hshort short (by rw [hsome]; rfl)
    simp only [hnone, hsome, Option.map_some, Option.some.injEq, reduceCtorEq, false_imp_iff,
      implies_true, true_and, forall_eq', Int.ofNat_eq_natCast]
    split <;> omega
  · cases h

theorem resolveDate_eq_ok {date : Date} (h : fields.resolveDate = .ok date) :
    fields.resolveYear = .ok date.year ∧ fields.month? = some date.month ∧
      fields.day? = some date.day ∧ date.IsValid ∧ agrees fields.weekday? date.weekday = true := by
  rw [resolveDate] at h
  obtain ⟨year, hyear, h⟩ := bind_eq_ok_iff.mp h
  split at h
  · next month day hmonth hday =>
    dsimp only at h
    split at h
    · next hgood =>
      obtain rfl := Except.ok.inj h
      exact ⟨hyear, hmonth, hday, hgood⟩
    · cases h
  · cases h

theorem isShownAt_of_resolveDate (hadmits : fields.Admissible)
    (h : fields.resolveDate = .ok t.date) {part : Part} (hpart : part.isOfDate = true)
    (hn : fields.get? part = some n) : part.IsShownAt t n := by
  obtain ⟨hyear, hmonth, hday, -, hweekday⟩ := resolveDate_eq_ok h
  obtain ⟨hfull, hshort⟩ := resolveYear_eq_ok hadmits hyear
  cases part with
  | year => exact hfull n hn
  | yearOfCentury => exact hshort n hn
  | month =>
    rw [get?, hmonth] at hn
    exact (Option.some.inj hn).symm
  | day =>
    rw [get?, hday] at hn
    exact (Option.some.inj hn).symm
  | weekday =>
    obtain ⟨shown, hshown, rfl⟩ := Option.map_eq_some_iff.mp hn
    exact congrArg Int.ofNat (agrees_eq_true_iff.mp hweekday shown hshown)
  | half | hourOfHalf | minute | second | timestamp => cases hpart

theorem resolveTime_eq_ok {time : Time} (h : fields.resolveTime = .ok time) :
    ∃ afternoon hour12 minute, fields.afternoon? = some afternoon ∧
      fields.hour12? = some hour12 ∧ fields.minute? = some minute ∧
      time = ⟨(if afternoon then 12 else 0) + hour12, minute, fields.second?.getD 0⟩ := by
  unfold resolveTime at h
  split at h
  · next afternoon hour12 minute hafternoon hhour12 hminute =>
    exact ⟨afternoon, hour12, minute, hafternoon, hhour12, hminute, (Except.ok.inj h).symm⟩
  · cases h

theorem resolveTime_bounds (hadmits : fields.Admissible) {time : Time}
    (h : fields.resolveTime = .ok time) : time.hour ≤ 23 ∧ time.minute ≤ 59 ∧ time.second ≤ 60 := by
  obtain ⟨afternoon, hour12, minute, -, hhour12, hminute, rfl⟩ := resolveTime_eq_ok h
  have hhour := hadmits .hourOfHalf hour12 (by rw [get?, hhour12]; rfl)
  have hminute := hadmits .minute minute (by rw [get?, hminute]; rfl)
  have hsecond : fields.second?.getD 0 ≤ 60 := by
    cases hshown : fields.second? with
    | none => exact Nat.zero_le 60
    | some second =>
      have hsecond := hadmits .second second (by rw [get?, hshown]; rfl)
      simp only [Part.Admits] at hsecond
      show second ≤ 60
      omega
  simp only [Part.Admits] at hhour hminute
  refine ⟨?_, Int.ofNat_le.mp hminute.2, hsecond⟩
  show (if afternoon then 12 else 0) + hour12 ≤ 23
  split <;> omega

theorem isShownAt_of_resolveTime (hadmits : fields.Admissible)
    (h : fields.resolveTime = .ok t.time) {part : Part} (hpart : part.isOfTime = true)
    (hn : fields.get? part = some n) : part.IsShownAt t n := by
  obtain ⟨afternoon, hour12, minute, hafternoon, hhour12, hminute, htime⟩ := resolveTime_eq_ok h
  have hhour := hadmits .hourOfHalf hour12 (by rw [get?, hhour12]; rfl)
  simp only [Part.Admits] at hhour
  cases part with
  | half =>
    rw [get?, hafternoon] at hn
    obtain rfl := Option.some.inj hn
    show (afternoon.toNat : Int) = (t.time.hour : Int) / 12
    rw [htime]
    cases afternoon <;> simp <;> omega
  | hourOfHalf =>
    rw [get?, hhour12] at hn
    obtain rfl := Option.some.inj hn
    show (hour12 : Int) = (t.time.hour : Int) % 12
    rw [htime]
    cases afternoon <;> simp <;> omega
  | minute =>
    rw [get?, hminute] at hn
    obtain rfl := Option.some.inj hn
    show (minute : Int) = t.time.minute
    rw [htime]
  | second =>
    obtain ⟨shown, hshown, rfl⟩ := Option.map_eq_some_iff.mp hn
    show (shown : Int) = t.time.second
    rw [htime, hshown, Option.getD_some]
  | year | yearOfCentury | month | day | weekday | timestamp => cases hpart

theorem isShownAt_of_holdAt (h : fields.holdAt t = true) (hhour : t.time.hour < 24) {part : Part}
    (hpart : part ≠ .timestamp) (hn : fields.get? part = some n) : part.IsShownAt t n := by
  simp only [holdAt, Bool.and_eq_true, agrees_eq_true_iff] at h
  obtain ⟨⟨⟨⟨hdate, hhalf⟩, hhour12⟩, hminute⟩, hsecond⟩ := h
  obtain ⟨⟨⟨⟨hyear, hshort⟩, hmonth⟩, hday⟩, hweekday⟩ := hdate
  have hcounted {shown? : Option Nat} {m : Nat} (hm : ∀ k, shown? = some k → k = m)
      (hshown : shown?.map Int.ofNat = some n) : n = m := by
    obtain ⟨k, hk, rfl⟩ := Option.map_eq_some_iff.mp hshown
    exact congrArg Int.ofNat (hm k hk)
  cases part with
  | year => exact hyear n hn
  | yearOfCentury =>
    have hcast := hcounted hshort hn
    show n = t.date.year % 100
    omega
  | month => exact hcounted hmonth hn
  | day => exact hcounted hday hn
  | weekday => exact hcounted hweekday hn
  | half =>
    obtain ⟨b, hb, rfl⟩ := Option.map_eq_some_iff.mp hn
    obtain rfl := hhalf b hb
    show ((decide (12 ≤ t.time.hour)).toNat : Int) = (t.time.hour : Int) / 12
    by_cases hnoon : 12 ≤ t.time.hour
    · rw [decide_eq_true hnoon, Bool.toNat_true]
      omega
    · rw [decide_eq_false hnoon, Bool.toNat_false]
      omega
  | hourOfHalf => exact hcounted hhour12 hn
  | minute => exact hcounted hminute hn
  | second => exact hcounted hsecond hn
  | timestamp => exact absurd rfl hpart

theorem timestampFits_ofTimestamp (timestamp : Int) :
    timestampFits (.ofTimestamp timestamp) timestamp = true := by
  rw [timestampFits, DateTime.timestamp_ofTimestamp, decide_eq_true rfl, Bool.true_or]

theorem hour_ofTimestamp_lt (timestamp : Int) :
    (DateTime.ofTimestamp timestamp).time.hour < 24 := by
  simp only [DateTime.ofTimestamp]
  omega

theorem timestamp_leapSecond {t : DateTime} (h : t.time.second = 59) :
    DateTime.timestamp { t with time := { t.time with second := 60 } } = t.timestamp := by
  simp only [DateTime.timestamp, h]
  rfl

theorem second_ofTimestamp_sub_one {timestamp : Int}
    (h : (DateTime.ofTimestamp timestamp).time.second = 0) :
    (DateTime.ofTimestamp (timestamp - 1)).time.second = 59 := by
  simp only [DateTime.ofTimestamp] at h ⊢
  omega

theorem timestampFits_of_momentOf {timestamp : Int} (h : fields.momentOf timestamp = some t) :
    timestampFits t timestamp = true ∧ t.time.hour < 24 := by
  unfold momentOf at h
  dsimp only at h
  split at h
  · cases h
  split at h
  · split at h
    · next hlast =>
      obtain rfl := Option.some.inj h
      refine ⟨?_, hour_ofTimestamp_lt timestamp⟩
      rw [timestampFits, timestamp_leapSecond hlast, DateTime.timestamp_ofTimestamp,
        decide_eq_true rfl, Bool.true_or]
    · split at h
      · next hfirst =>
        obtain rfl := Option.some.inj h
        refine ⟨?_, hour_ofTimestamp_lt (timestamp - 1)⟩
        rw [timestampFits, timestamp_leapSecond (second_ofTimestamp_sub_one hfirst),
          DateTime.timestamp_ofTimestamp, Int.sub_add_cancel, decide_eq_true rfl,
          decide_eq_true rfl, Bool.and_self, Bool.or_true]
      · cases h
  · obtain rfl := Option.some.inj h
    exact ⟨timestampFits_ofTimestamp timestamp, hour_ofTimestamp_lt timestamp⟩

theorem isShownAt_of_date_of_time (hadmits : fields.Admissible)
    (hdate : fields.resolveDate = .ok t.date) (htime : fields.resolveTime = .ok t.time)
    (htimestamp : ∀ n, fields.timestamp? = some n → timestampFits t n = true) {part : Part}
    (hn : fields.get? part = some n) : part.IsShownAt t n := by
  cases part with
  | timestamp => exact htimestamp n hn
  | year | yearOfCentury | month | day | weekday =>
    exact isShownAt_of_resolveDate hadmits hdate rfl hn
  | half | hourOfHalf | minute | second => exact isShownAt_of_resolveTime hadmits htime rfl hn

theorem isShownAt_of_resolveMoment (hadmits : fields.Admissible)
    (h : fields.resolveMoment = .ok t) {part : Part} (hn : fields.get? part = some n) :
    part.IsShownAt t n := by
  unfold resolveMoment at h
  split at h
  · next date time hdate htime hnone =>
    obtain rfl := Except.ok.inj h
    refine isShownAt_of_date_of_time hadmits hdate htime (fun m hm => ?_) hn
    rw [hnone] at hm
    cases hm
  · next date time timestamp hdate htime hsome =>
    split at h
    · next hfits =>
      obtain rfl := Except.ok.inj h
      refine isShownAt_of_date_of_time hadmits hdate htime (fun m hm => ?_) hn
      rw [hsome] at hm
      rwa [← Option.some.inj hm]
    · cases h
  · cases h
  · cases h
  · cases h
  · next timestamp hsome _ _ _ =>
    split at h
    · next moment hmoment =>
      split at h
      · next hholds =>
        obtain rfl := Except.ok.inj h
        obtain ⟨hfits, hhour⟩ := timestampFits_of_momentOf hmoment
        by_cases hpart : part = .timestamp
        · subst hpart
          obtain rfl := Option.some.inj (hsome.symm.trans hn)
          exact hfits
        · exact isShownAt_of_holdAt hholds hhour hpart hn
      · cases h
    · cases h

/-- How a moment comes from a record of fields. -/
inductive Resolves (fields : Fields) (t : DateTime) : Prop where
  | whole (h : ∀ part n, fields.get? part = some n → part.IsShownAt t n)
  | atMidnight (hdate : fields.resolveDate = .ok t.date)
      (htime : fields.resolveTime = .error .insufficient) (hmidnight : t.time = .midnight)
  | besideTimestamp (hdate : fields.resolveDate = .ok t.date)
      (htime : fields.resolveTime = .ok t.time)

theorem resolves_of_resolve? (hadmits : fields.Admissible) (h : fields.resolve? = some t) :
    fields.Resolves t := by
  unfold resolve? at h
  split at h
  · next moment hmoment =>
    obtain rfl := Option.some.inj h
    exact .whole fun _ _ => isShownAt_of_resolveMoment hadmits hmoment
  · split at h
    · next date hdate =>
      obtain rfl := Option.some.inj h
      cases htime : fields.resolveTime with
      | ok time => exact .besideTimestamp hdate htime
      | error unresolved =>
        refine .atMidnight hdate ?_ rfl
        unfold resolveTime at htime ⊢
        split at htime
        · cases htime
        · rfl
    · cases h

theorem resolveMoment_eq_ok_iff (hnone : fields.timestamp? = none) :
    fields.resolveMoment = .ok t ↔
      fields.resolveDate = .ok t.date ∧ fields.resolveTime = .ok t.time := by
  obtain ⟨date, time⟩ := t
  unfold resolveMoment
  split <;> simp_all

theorem resolve?_eq_some_iff (hnone : fields.timestamp? = none) :
    fields.resolve? = some t ↔ fields.resolveDate = .ok t.date ∧
      t.time = fields.resolveTime.toOption.getD .midnight := by
  constructor
  · intro h
    unfold resolve? at h
    split at h
    · next moment hmoment =>
      obtain rfl := Option.some.inj h
      obtain ⟨hdate, htime⟩ := (resolveMoment_eq_ok_iff hnone).mp hmoment
      exact ⟨hdate, by rw [htime]; rfl⟩
    · split at h
      · next date hdate =>
        obtain rfl := Option.some.inj h
        exact ⟨hdate, rfl⟩
      · cases h
  · rintro ⟨hdate, htime⟩
    unfold resolve?
    split
    · next moment hmoment =>
      obtain ⟨hsame, hmomentTime⟩ := (resolveMoment_eq_ok_iff hnone).mp hmoment
      rw [hmomentTime] at htime
      obtain ⟨date, time⟩ := t
      obtain rfl := Except.ok.inj (hsame.symm.trans hdate)
      obtain rfl : time = moment.time := htime
      rfl
    · rw [hdate, ← htime]

end Fields

def Field.isOfTime : Field → Bool
  | .hour | .hour12 | .minute | .second | .upperMeridiem | .lowerMeridiem => true
  | _ => false

def Field.isOfDate (field : Field) : Bool :=
  !field.isOfTime && field != .timestamp

def IsRead (rs : List Reading) (part : Part) : Prop :=
  ∃ r ∈ rs, ∃ n, (part, n) ∈ r.parts

structure HaveDate (rs : List Reading) : Prop where
  year : IsRead rs .year ∨ IsRead rs .yearOfCentury
  month : IsRead rs .month
  day : IsRead rs .day

structure HaveTime (rs : List Reading) : Prop where
  half : IsRead rs .half
  hourOfHalf : IsRead rs .hourOfHalf
  minute : IsRead rs .minute

/-- A reading that a moment does not have to show: beside a date, what does not make up a time of
day with the other readings, and a timestamp. -/
inductive IsLost (rs : List Reading) (t : DateTime) (r : Reading) : Prop where
  | timeOfDay (hfield : r.field.isOfTime = true) (hdate : HaveDate rs) (htime : ¬ HaveTime rs)
      (hmidnight : t.time = .midnight)
  | timestamp (hfield : r.field = .timestamp) (hdate : HaveDate rs)

variable {rs : List Reading} {fields : Fields} {t : DateTime}

theorem isRead_of_get? (hget : fields.Records rs) {part : Part} {n : Int}
    (h : fields.get? part = some n) : IsRead rs part := by
  obtain ⟨r, hr, hmem⟩ := (hget part n).mp h
  exact ⟨r, hr, n, hmem⟩

theorem exists_get?_of_isRead (hget : fields.Records rs) {part : Part}
    (h : IsRead rs part) : ∃ n, fields.get? part = some n := by
  obtain ⟨r, hr, n, hmem⟩ := h
  exact ⟨n, (hget part n).mpr ⟨r, hr, hmem⟩⟩

theorem haveDate_of_resolveDate (hget : fields.Records rs) {date : Date}
    (h : fields.resolveDate = .ok date) : HaveDate rs := by
  obtain ⟨hyear, hmonth, hday, -⟩ := Fields.resolveDate_eq_ok h
  refine ⟨?_, isRead_of_get? hget (n := date.month) ?_, isRead_of_get? hget (n := date.day) ?_⟩
  · unfold Fields.resolveYear at hyear
    split at hyear
    · next year hfull _ => exact Or.inl (isRead_of_get? hget (n := year) hfull)
    · next year short hfull _ => exact Or.inl (isRead_of_get? hget (n := year) hfull)
    · next short _ hshort =>
      exact Or.inr (isRead_of_get? hget (n := short) (by rw [Fields.get?, hshort]; rfl))
    · cases hyear
  · rw [Fields.get?, hmonth]
    rfl
  · rw [Fields.get?, hday]
    rfl

theorem not_haveTime_of_resolveTime (hget : fields.Records rs)
    (h : fields.resolveTime = .error .insufficient) : ¬ HaveTime rs := by
  rintro ⟨hhalf, hhour, hminute⟩
  obtain ⟨_, hhalf⟩ := exists_get?_of_isRead hget hhalf
  obtain ⟨_, hhour⟩ := exists_get?_of_isRead hget hhour
  obtain ⟨_, hminute⟩ := exists_get?_of_isRead hget hminute
  obtain ⟨_, hhalf, -⟩ := Option.map_eq_some_iff.mp hhalf
  obtain ⟨_, hhour, -⟩ := Option.map_eq_some_iff.mp hhour
  obtain ⟨_, hminute, -⟩ := Option.map_eq_some_iff.mp hminute
  rw [Fields.resolveTime, hhalf, hhour, hminute] at h
  cases h

theorem Reading.isOfDate_of_mem_parts {r : Reading} (h : r.field.isOfDate = true) :
    ∀ part ∈ r.parts, part.1.isOfDate = true := by
  obtain ⟨field, n⟩ := r
  cases field <;> simp_all [Field.isOfDate, Field.isOfTime, parts, Part.isOfDate]

theorem Reading.isOfTime_of_mem_parts {r : Reading} (h : r.field.isOfTime = true) :
    ∀ part ∈ r.parts, part.1.isOfTime = true := by
  obtain ⟨field, n⟩ := r
  cases field <;> simp_all [Field.isOfTime, parts, Part.isOfTime]

theorem Field.isOfDate_or (field : Field) :
    field.isOfDate = true ∨ field.isOfTime = true ∨ field = .timestamp := by
  cases field <;> decide

theorem isShownAt_or_isLost (hrange : ∀ r ∈ rs, r.InRange) (hget : fields.Records rs)
    (h : fields.resolve? = some t) : ∀ r ∈ rs, r.IsShownAt t ∨ IsLost rs t r := by
  intro r hr
  have hadmits := hget.admissible hrange
  have hheld : ∀ part ∈ r.parts, fields.get? part.1 = some part.2 := fun part hpart =>
    (hget part.1 part.2).mpr ⟨r, hr, hpart⟩
  have hofDate (hdate : fields.resolveDate = .ok t.date) (hfield : r.field.isOfDate = true) :
      r.IsShownAt t :=
    Reading.isShownAt_of_parts (hrange r hr) fun part hpart =>
      Fields.isShownAt_of_resolveDate hadmits hdate
        (Reading.isOfDate_of_mem_parts hfield part hpart) (hheld part hpart)
  cases Fields.resolves_of_resolve? hadmits h with
  | whole hwhole =>
    exact Or.inl (Reading.isShownAt_of_parts (hrange r hr) fun part hpart =>
      hwhole part.1 part.2 (hheld part hpart))
  | atMidnight hdate htime hmidnight =>
    have hhave := haveDate_of_resolveDate hget hdate
    rcases r.field.isOfDate_or with hfield | hfield | hfield
    · exact Or.inl (hofDate hdate hfield)
    · exact Or.inr (.timeOfDay hfield hhave (not_haveTime_of_resolveTime hget htime) hmidnight)
    · exact Or.inr (.timestamp hfield hhave)
  | besideTimestamp hdate htime =>
    rcases r.field.isOfDate_or with hfield | hfield | hfield
    · exact Or.inl (hofDate hdate hfield)
    · exact Or.inl (Reading.isShownAt_of_parts (hrange r hr) fun part hpart =>
        Fields.isShownAt_of_resolveTime hadmits htime
          (Reading.isOfTime_of_mem_parts hfield part hpart) (hheld part hpart))
    · exact Or.inr (.timestamp hfield (haveDate_of_resolveDate hget hdate))

theorem time_eq_midnight_of_isOfDate (hget : fields.Records rs)
    (hdate : ∀ r ∈ rs, r.field.isOfDate = true) (h : fields.resolve? = some t) :
    t.time = .midnight := by
  have hnone (part : Part) (hpart : part.isOfDate = false) : fields.get? part = none := by
    rw [Option.eq_none_iff_forall_ne_some]
    intro n hn
    obtain ⟨r, hr, hmem⟩ := (hget part n).mp hn
    rw [Reading.isOfDate_of_mem_parts (hdate r hr) _ hmem] at hpart
    cases hpart
  have htimestamp : fields.timestamp? = none := hnone .timestamp rfl
  have hhalf : fields.afternoon? = none := Option.map_eq_none_iff.mp (hnone .half rfl)
  obtain ⟨-, htime⟩ := (Fields.resolve?_eq_some_iff htimestamp).mp h
  rw [Fields.resolveTime, hhalf] at htime
  exact htime

theorem readDate_eq_ok_some_iff {layout text : String} :
    Filters.readDate text layout = .ok (some t) ↔
      ∃ rs fields, readings? (layoutItems .reading layout) text.toList = some rs ∧
        showAll? rs .empty = some fields ∧ fields.resolve? = some t := by
  rw [Filters.readDate, checkLayout_eq_ok]
  show Except.ok (readDateTime? layout text) = Except.ok (some t) ↔ _
  rw [Except.ok.injEq, readDateTime?, readItems?_eq]
  simp only [Option.bind_eq_bind, Option.bind_eq_some_iff]
  constructor
  · rintro ⟨fields, ⟨rs, hrs, hshow⟩, h⟩
    exact ⟨rs, fields, hrs, hshow, h⟩
  · rintro ⟨rs, fields, hrs, hshow, h⟩
    exact ⟨fields, ⟨rs, hrs, hshow⟩, h⟩

/-- A moment that is read from a text shows all that was read, apart from what is lost beside a
date: an hour, a minute or a second without the others that it needs, and a timestamp. What was read
is in range and free of contradictions, and the time is midnight where only a date was read. -/
theorem readings_are_shown_or_lost {layout text : String} {t : DateTime}
    (h : Filters.readDate text layout = .ok (some t)) :
    ∃ rs, readings? (layoutItems .reading layout) text.toList = some rs ∧
      rs.map Reading.field = (layoutItems .reading layout).filterMap Item.field? ∧
      (∀ r ∈ rs, r.InRange) ∧
      (∀ r ∈ rs, ∀ s ∈ rs, ∀ part m n, (part, m) ∈ r.parts → (part, n) ∈ s.parts → m = n) ∧
      (∀ r ∈ rs, r.IsShownAt t ∨ IsLost rs t r) ∧
      ((∀ r ∈ rs, r.field.isOfDate = true) → t.time = .midnight) := by
  obtain ⟨rs, fields, hrs, hshow, hresolve⟩ := readDate_eq_ok_some_iff.mp h
  obtain ⟨hrange, hget⟩ := records_of_showAll? hshow
  refine ⟨rs, hrs, field_of_readings? hrs, hrange, ?_, isShownAt_or_isLost hrange hget hresolve,
    fun hdate => time_eq_midnight_of_isOfDate hget hdate hresolve⟩
  intro r hr s hs part m n hm hn
  have hfirst := (hget part m).mpr ⟨r, hr, hm⟩
  rw [(hget part n).mpr ⟨s, hs, hn⟩] at hfirst
  exact (Option.some.inj hfirst).symm

/-- Half past two in the afternoon is read from three fields, and the weekday is right. -/
theorem readings_are_shown_or_lost_afternoon :
    Filters.readDate "Fri 15/3/24 2:30 pm" "D d/m/y g:i a" =
        .ok (some ⟨⟨2024, 3, 15⟩, ⟨14, 30, 0⟩⟩) ∧
      ∃ rs, readings? (layoutItems .reading "D d/m/y g:i a") "Fri 15/3/24 2:30 pm".toList =
          some rs ∧
        ∀ r ∈ rs, r.IsShownAt ⟨⟨2024, 3, 15⟩, ⟨14, 30, 0⟩⟩ ∨
          IsLost rs ⟨⟨2024, 3, 15⟩, ⟨14, 30, 0⟩⟩ r := by
  have hread : Filters.readDate "Fri 15/3/24 2:30 pm" "D d/m/y g:i a" =
      .ok (some ⟨⟨2024, 3, 15⟩, ⟨14, 30, 0⟩⟩) := by
    decide
  obtain ⟨rs, hrs, -, -, -, hshown, -⟩ := readings_are_shown_or_lost hread
  exact ⟨hread, rs, hrs, hshown⟩

/-- An hour that is read without a minute is lost, though the moment is not at this hour. -/
theorem hour_without_minute_is_lost :
    Filters.readDate "2024-03-15 14" "Y-m-d H" = .ok (some ⟨⟨2024, 3, 15⟩, .midnight⟩) ∧
      ∃ rs, readings? (layoutItems .reading "Y-m-d H") "2024-03-15 14".toList = some rs ∧
        ∃ r ∈ rs, r.field = .hour ∧ ¬ r.IsShownAt ⟨⟨2024, 3, 15⟩, .midnight⟩ :=
  ⟨by decide, [⟨.year, 2024⟩, ⟨.month, 3⟩, ⟨.day, 15⟩, ⟨.hour, 14⟩], by decide,
    ⟨.hour, 14⟩, by decide, rfl, by decide⟩

example : Filters.readDate "2024-03-15 0" "Y-m-d U" = .ok (some ⟨⟨2024, 3, 15⟩, .midnight⟩) := by
  decide

end FilterChain.Calendar
