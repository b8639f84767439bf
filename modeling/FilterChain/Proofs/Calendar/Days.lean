import FilterChain.Calendar

/-!
# Days and dates

The date of a day has the number of this day, so a moment that is put together from a timestamp has
this timestamp.
-/

namespace FilterChain.Calendar

section

variable {dayOfEra yearOfEra : Int}

theorem yearOfEra_bounds (hlow : 0 ≤ dayOfEra) (hhigh : dayOfEra ≤ 146096)
    (hyear : yearOfEra =
      (dayOfEra - dayOfEra / 1460 + dayOfEra / 36524 - dayOfEra / 146096) / 365) :
    0 ≤ yearOfEra ∧ yearOfEra ≤ 399 := by
  omega

/-- A year does not begin behind its days: the leap days of a century are its quarters of a year
or less. -/
theorem firstDayOfYear_le (hlow : 0 ≤ dayOfEra) (hhigh : dayOfEra ≤ 146096)
    (hyear : yearOfEra =
      (dayOfEra - dayOfEra / 1460 + dayOfEra / 36524 - dayOfEra / 146096) / 365) :
    365 * yearOfEra + yearOfEra / 4 - yearOfEra / 100 ≤ dayOfEra := by
  obtain ⟨c, hc⟩ : ∃ c, c = dayOfEra / 36524 - dayOfEra / 146096 := ⟨_, rfl⟩
  have hcentury : 36524 * c ≤ dayOfEra ∧ 0 ≤ c ∧ c ≤ 3 := by omega
  have hdays : 365 * yearOfEra ≤ dayOfEra - dayOfEra / 1460 + c := by omega
  have hquarters : 25 * c ≤ dayOfEra / 1460 := by omega
  have hleap : yearOfEra / 4 ≤ dayOfEra / 1460 := by omega
  have hyears : c ≤ yearOfEra / 100 := by
    have hrest : dayOfEra / 1460 ≤ 25 * c + (dayOfEra - 36524 * c + 72) / 1460 := by omega
    omega
  omega

theorem lt_firstDayOfYear_add (hlow : 0 ≤ dayOfEra) (hhigh : dayOfEra ≤ 146096)
    (hyear : yearOfEra =
      (dayOfEra - dayOfEra / 1460 + dayOfEra / 36524 - dayOfEra / 146096) / 365) :
    dayOfEra ≤ 365 * yearOfEra + yearOfEra / 4 - yearOfEra / 100 + 366 := by
  omega

end

namespace Date

theorem dayNumber_fromMarch {year month day : Int} (hmonth : 0 ≤ month ∧ month ≤ 11)
    (hday : 1 ≤ day) :
    dayNumber ⟨if (if month < 10 then month + 3 else month - 9) ≤ 2 then year + 1 else year,
        (if month < 10 then month + 3 else month - 9).toNat, day.toNat⟩ =
      365 * year + year / 4 - year / 100 + year / 400 + ((153 * month + 2) / 5 + day - 1) -
        719468 := by
  unfold dayNumber
  dsimp only
  by_cases hspring : month < 10
  · rw [if_pos hspring, if_neg (by omega), if_neg (by omega)]
    have hfromMarch : ((month + 3).toNat + 9 : Int) % 12 = month := by omega
    rw [hfromMarch, Int.toNat_of_nonneg (by omega)]
  · rw [if_neg hspring, if_pos (by omega), if_pos (by omega)]
    have hfromMarch : ((month - 9).toNat + 9 : Int) % 12 = month := by omega
    rw [hfromMarch, Int.toNat_of_nonneg (by omega), Int.add_sub_cancel]

theorem dayNumber_ofDayNumber (n : Int) : (ofDayNumber n).dayNumber = n := by
  obtain ⟨era, hera⟩ : ∃ era, era = (n + 719468) / 146097 := ⟨_, rfl⟩
  obtain ⟨dayOfEra, hdayOfEra⟩ : ∃ dayOfEra, dayOfEra = (n + 719468) % 146097 := ⟨_, rfl⟩
  obtain ⟨yearOfEra, hyear⟩ : ∃ yearOfEra, yearOfEra =
    (dayOfEra - dayOfEra / 1460 + dayOfEra / 36524 - dayOfEra / 146096) / 365 := ⟨_, rfl⟩
  have hlow : 0 ≤ dayOfEra := by omega
  have hhigh : dayOfEra ≤ 146096 := by omega
  have hyears := yearOfEra_bounds hlow hhigh hyear
  have hfirst := firstDayOfYear_le hlow hhigh hyear
  have hlast := lt_firstDayOfYear_add hlow hhigh hyear
  obtain ⟨dayOfYear, hdayOfYear⟩ : ∃ dayOfYear, dayOfYear =
    dayOfEra - (365 * yearOfEra + yearOfEra / 4 - yearOfEra / 100) := ⟨_, rfl⟩
  obtain ⟨month, hmonth⟩ : ∃ month, month = (5 * dayOfYear + 2) / 153 := ⟨_, rfl⟩
  have hdate : ofDayNumber n =
      ⟨if (if month < 10 then month + 3 else month - 9) ≤ 2 then yearOfEra + 400 * era + 1
          else yearOfEra + 400 * era,
        (if month < 10 then month + 3 else month - 9).toNat,
        (dayOfYear - (153 * month + 2) / 5 + 1).toNat⟩ := by
    rw [hmonth, hdayOfYear, hyear, hdayOfEra, hera]
    rfl
  have hquarters : (yearOfEra + 400 * era) / 4 = yearOfEra / 4 + 100 * era := by omega
  have hcenturies : (yearOfEra + 400 * era) / 100 = yearOfEra / 100 + 4 * era := by omega
  have heras : (yearOfEra + 400 * era) / 400 = era := by omega
  rw [hdate, dayNumber_fromMarch (by omega) (by omega), hquarters, hcenturies, heras]
  omega

end Date

namespace DateTime

theorem timestamp_ofTimestamp (seconds : Int) : (ofTimestamp seconds).timestamp = seconds := by
  unfold ofTimestamp timestamp
  dsimp only
  rw [Date.dayNumber_ofDayNumber]
  omega

end DateTime

end FilterChain.Calendar
