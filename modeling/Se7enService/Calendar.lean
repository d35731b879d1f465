import Mathlib.Tactic.IntervalCases
set_option autoImplicit false

/-! The proleptic Gregorian calendar, and the eras of 400 years that begin with March. -/

namespace Calendar

structure CivilDate where
  year : Nat
  month : Nat
  day : Nat
  deriving DecidableEq, Repr

def isLeapYear (year : Nat) : Bool := year % 4 = 0 && (year % 100 ≠ 0 || year % 400 = 0)

def daysInMonth (year month : Nat) : Nat :=
  if month = 2 then if isLeapYear year then 29 else 28
  else if month = 4 ∨ month = 6 ∨ month = 9 ∨ month = 11 then 30
  else 31

structure CivilDate.Valid (date : CivilDate) : Prop where
  month : 1 ≤ date.month ∧ date.month ≤ 12
  day : 1 ≤ date.day ∧ date.day ≤ daysInMonth date.year date.month

/-- The day after. -/
def CivilDate.next (date : CivilDate) : CivilDate :=
  if date.day < daysInMonth date.year date.month then { date with day := date.day + 1 }
  else if date.month < 12 then ⟨date.year, date.month + 1, 1⟩
  else ⟨date.year + 1, 1, 1⟩

/-! ### Years that begin with March -/

def daysInEra : Nat := 146097

/-- The days of an era before one of its years. -/
def yearStart (year : Nat) : Nat := 365 * year + year / 4 - year / 100 + year / 400

/-- The year of an era which a day is in. -/
def yearOfDay (day : Nat) : Nat := (day - day / 1460 + day / 36524 - day / 146096) / 365

theorem yearStart_lt (year : Nat) : yearStart year < yearStart (year + 1) := by
  unfold yearStart
  omega

theorem yearStart_mono {year year' : Nat} (h : year ≤ year') : yearStart year ≤ yearStart year' := by
  induction h with
  | refl => exact le_rfl
  | step _ ih => exact ih.trans (yearStart_lt _).le

theorem yearOfDay_mono {day day' : Nat} (h : day ≤ day') : yearOfDay day ≤ yearOfDay day' := by
  induction h with
  | refl => exact le_rfl
  | @step day' _ ih =>
    refine ih.trans ?_
    have hfourth : ∀ n : Nat, n / 146096 = n / 36524 / 4 := fun n => (Nat.div_div_eq_div_mul n 36524 4).symm
    have hstep : day' - day' / 1460 + day' / 36524 - day' / 146096 ≤
        day' + 1 - (day' + 1) / 1460 + (day' + 1) / 36524 - (day' + 1) / 146096 := by
      rw [hfourth, hfourth]
      omega
    exact Nat.div_le_div_right hstep

/-- Both ends of each year are found in it. -/
theorem yearOfDay_ends : ∀ year < 400,
    yearOfDay (yearStart year) = year ∧ yearOfDay (yearStart (year + 1) - 1) = year := by
  decide +kernel

theorem yearOfDay_eq {day year : Nat} (hyear : year < 400) (hstart : yearStart year ≤ day)
    (hend : day < yearStart (year + 1)) : yearOfDay day = year := by
  obtain ⟨hfirst, hlast⟩ := yearOfDay_ends year hyear
  have hlow := yearOfDay_mono hstart
  have hhigh := yearOfDay_mono (Nat.le_sub_one_of_lt hend)
  omega

/-- Every day of an era is in one of its years. -/
theorem exists_year {day : Nat} (h : day < daysInEra) :
    ∃ year < 400, yearStart year ≤ day ∧ day < yearStart (year + 1) := by
  have hfind : ∀ n, day < yearStart n → ∃ year < n, yearStart year ≤ day ∧ day < yearStart (year + 1) := by
    intro n
    induction n with
    | zero => simp [yearStart]
    | succ n ih =>
      intro hn
      by_cases hday : day < yearStart n
      · obtain ⟨year, hyear, hbounds⟩ := ih hday
        exact ⟨year, by omega, hbounds⟩
      · exact ⟨n, by omega, by omega, hn⟩
  exact hfind 400 (h.trans_eq (by decide))

/-- The last day of a year that begins with March is in a leap year of January. -/
theorem yearStart_succ {year : Nat} (h : year < 400) (era : Nat) :
    yearStart (year + 1) = yearStart year + (if isLeapYear (year + 400 * era + 1) then 366 else 365) := by
  unfold yearStart isLeapYear
  split <;> rename_i hleap <;> simp at hleap <;> omega

/-! ### Months that are counted from March -/

def monthStart (index : Nat) : Nat := (153 * index + 2) / 5

def monthOfDay (day : Nat) : Nat := (5 * day + 2) / 153

theorem monthStart_lt (index : Nat) : monthStart index < monthStart (index + 1) := by
  unfold monthStart
  omega

theorem monthOfDay_bounds (day : Nat) :
    monthStart (monthOfDay day) ≤ day ∧ day < monthStart (monthOfDay day + 1) := by
  unfold monthStart monthOfDay
  omega

theorem monthOfDay_eq {day index : Nat} (hstart : monthStart index ≤ day)
    (hend : day < monthStart (index + 1)) : monthOfDay day = index := by
  unfold monthStart at hstart hend
  unfold monthOfDay
  omega

/-- Counted from January. -/
def monthNumber (index : Nat) : Nat := if index < 10 then index + 3 else index - 9

/-- No year ends between two months, unless the first is December. -/
theorem monthNumber_succ {index : Nat} (h : index < 11) (hdecember : index ≠ 9) :
    monthNumber (index + 1) = monthNumber index + 1 ∧ monthNumber index < 12 ∧
      (monthNumber index + 1 ≤ 2 ↔ monthNumber index ≤ 2) := by
  unfold monthNumber
  split <;> split <;> omega

theorem monthStart_succ {index : Nat} (h : index < 11) (year : Nat) :
    monthStart (index + 1) = monthStart index + daysInMonth year (monthNumber index) := by
  interval_cases index <;> simp [monthStart, monthNumber, daysInMonth]

theorem one_le_daysInMonth (year month : Nat) : 1 ≤ daysInMonth year month := by
  unfold daysInMonth
  split
  · split <;> omega
  · split <;> omega

/-! ### Dates -/

/-- The date of a day of a year that begins with March. -/
def marchDate (era year day : Nat) : CivilDate where
  year := year + 400 * era + if monthNumber (monthOfDay day) ≤ 2 then 1 else 0
  month := monthNumber (monthOfDay day)
  day := day - monthStart (monthOfDay day) + 1

section MarchDate

variable {era year day : Nat}

/-- The days of a year that begins with March. -/
def marchYearLength (era year : Nat) : Nat := if isLeapYear (year + 400 * era + 1) then 366 else 365

theorem marchYearLength_eq (era year : Nat) :
    marchYearLength era year = monthStart 11 + daysInMonth (year + 400 * era + 1) 2 := by
  unfold marchYearLength
  cases hleap : isLeapYear (year + 400 * era + 1) <;> simp [monthStart, daysInMonth, hleap]

theorem monthOfDay_le (h : day < marchYearLength era year) : monthOfDay day ≤ 11 := by
  have hlength : marchYearLength era year ≤ 366 := by
    unfold marchYearLength
    split <;> omega
  unfold monthOfDay
  omega

/-- A day is in the month that it is counted in. -/
theorem marchDate_day (h : day < marchYearLength era year) :
    (marchDate era year day).day ≤
      daysInMonth (marchDate era year day).year (marchDate era year day).month := by
  obtain ⟨hstart, hend⟩ := monthOfDay_bounds day
  have hindex := monthOfDay_le h
  simp only [marchDate]
  by_cases hlast : monthOfDay day = 11
  · rw [marchYearLength_eq] at h
    rw [hlast] at hstart ⊢
    simp only [monthNumber, Nat.reduceLT, ite_false, Nat.reduceSub, le_refl, ite_true] at h ⊢
    omega
  · have hbefore : monthOfDay day < 11 := by omega
    have hmonth := monthStart_succ hbefore (year + 400 * era +
      if monthNumber (monthOfDay day) ≤ 2 then 1 else 0)
    omega

theorem marchDate_valid (h : day < marchYearLength era year) : (marchDate era year day).Valid where
  month := by
    have hindex := monthOfDay_le h
    simp only [marchDate, monthNumber]
    split <;> omega
  day := ⟨by simp [marchDate], marchDate_day h⟩

/-- Within a year the next day has the next date. -/
theorem marchDate_succ (h : day + 1 < marchYearLength era year) :
    marchDate era year (day + 1) = (marchDate era year day).next := by
  obtain ⟨hstart, hend⟩ := monthOfDay_bounds day
  have hindex : monthOfDay day ≤ 11 := monthOfDay_le (Nat.lt_of_succ_lt h)
  by_cases hsame : day + 1 < monthStart (monthOfDay day + 1)
  · have hmonth : monthOfDay (day + 1) = monthOfDay day := monthOfDay_eq (by omega) hsame
    have hday := marchDate_day h
    simp only [marchDate, hmonth] at hday
    have hnext : (marchDate era year day).day <
        daysInMonth (marchDate era year day).year (marchDate era year day).month := by
      simp only [marchDate]
      omega
    rw [CivilDate.next, if_pos hnext]
    simp only [marchDate, hmonth, CivilDate.mk.injEq, true_and]
    omega
  · have hlast : monthOfDay day < 11 := by
      have hlength : marchYearLength era year ≤ 366 := by
        unfold marchYearLength
        split <;> omega
      by_contra hnot
      have heleventh : monthOfDay day = 11 := by omega
      rw [heleventh] at hsame
      simp only [monthStart] at hsame
      omega
    have hfirst : day + 1 = monthStart (monthOfDay day + 1) := by omega
    have hmonth : monthOfDay (day + 1) = monthOfDay day + 1 :=
      monthOfDay_eq hfirst.ge (hfirst ▸ monthStart_lt _)
    have hlength := monthStart_succ hlast (marchDate era year day).year
    have hend : ¬ (marchDate era year day).day <
        daysInMonth (marchDate era year day).year (marchDate era year day).month := by
      simp only [marchDate] at hlength ⊢
      omega
    rw [CivilDate.next, if_neg hend]
    simp only [marchDate, hmonth]
    rw [hfirst, Nat.sub_self, Nat.zero_add]
    by_cases hdecember : monthOfDay day = 9
    · simp [hdecember, monthNumber]
    · obtain ⟨hnumber, hbefore, hyear⟩ := monthNumber_succ hlast hdecember
      simp only [hnumber, hbefore, hyear, ite_true]

/-- The first of March comes behind the last day of February. -/
theorem marchDate_next_year (h : day + 1 = marchYearLength era year) :
    (marchDate era year day).next = ⟨year + 400 * era + 1, 3, 1⟩ := by
  have hmonth : monthOfDay day = 11 := by
    unfold marchYearLength at h
    refine monthOfDay_eq ?_ ?_ <;> simp only [monthStart] <;> split at h <;> omega
  rw [marchYearLength_eq] at h
  have hpos := one_le_daysInMonth (year + 400 * era + 1) 2
  have hday : day - monthStart 11 + 1 = daysInMonth (year + 400 * era + 1) 2 := by omega
  simp [marchDate, CivilDate.next, hmonth, monthNumber, hday]

end MarchDate

/-- The date of a day that is counted from the first of March of the year 0. -/
def dateOfDay (day : Nat) : CivilDate :=
  let year := yearOfDay (day % daysInEra)
  marchDate (day / daysInEra) year (day % daysInEra - yearStart year)

/-- The year of a day, and its place in it. -/
theorem dateOfDay_bounds (day : Nat) : ∃ year < 400, yearOfDay (day % daysInEra) = year ∧
    yearStart year ≤ day % daysInEra ∧
    day % daysInEra < yearStart year + marchYearLength (day / daysInEra) year := by
  obtain ⟨year, hyear, hstart, hend⟩ := exists_year (Nat.mod_lt day (by decide : 0 < daysInEra))
  refine ⟨year, hyear, yearOfDay_eq hyear hstart hend, hstart, ?_⟩
  rwa [yearStart_succ hyear (day / daysInEra)] at hend

theorem dateOfDay_valid (day : Nat) : (dateOfDay day).Valid := by
  obtain ⟨year, -, hyear, hstart, hend⟩ := dateOfDay_bounds day
  rw [dateOfDay, hyear]
  exact marchDate_valid (by omega)

theorem dateOfDay_succ (day : Nat) : dateOfDay (day + 1) = (dateOfDay day).next := by
  obtain ⟨year, hlt, hyear, hstart, hend⟩ := dateOfDay_bounds day
  have hmod := Nat.mod_lt day (by decide : 0 < daysInEra)
  have hsplit := Nat.div_add_mod day daysInEra
  have hnext := yearStart_succ hlt (day / daysInEra)
  rw [← marchYearLength] at hnext
  have hbound : yearStart (year + 1) ≤ daysInEra := yearStart_mono (by omega : year + 1 ≤ 400)
  simp only [dateOfDay, hyear]
  by_cases hsame : day % daysInEra + 1 < yearStart (year + 1)
  · obtain ⟨hquotient, hrest⟩ : (day + 1) / daysInEra = day / daysInEra ∧
        (day + 1) % daysInEra = day % daysInEra + 1 := by
      simp only [daysInEra] at hmod hsame hbound ⊢
      omega
    rw [hquotient, hrest, yearOfDay_eq hlt (by omega) hsame, Nat.sub_add_comm hstart]
    exact marchDate_succ (by omega)
  · rw [marchDate_next_year (by omega)]
    have hlast : day % daysInEra + 1 = yearStart (year + 1) := by omega
    by_cases hcentury : year + 1 < 400
    · have hinside : yearStart (year + 1) < daysInEra :=
        (yearStart_lt _).trans_le (yearStart_mono (by omega : year + 1 + 1 ≤ 400))
      obtain ⟨hquotient, hrest⟩ : (day + 1) / daysInEra = day / daysInEra ∧
          (day + 1) % daysInEra = day % daysInEra + 1 := by
        simp only [daysInEra] at hmod hlast hinside ⊢
        omega
      rw [hquotient, hrest, hlast, yearOfDay_eq hcentury le_rfl (yearStart_lt _), Nat.sub_self]
      simp [marchDate, monthOfDay, monthStart, monthNumber]
      omega
    · obtain rfl : year = 399 := by omega
      have hera : yearStart (399 + 1) = daysInEra := by decide
      obtain ⟨hquotient, hrest⟩ : (day + 1) / daysInEra = day / daysInEra + 1 ∧
          (day + 1) % daysInEra = 0 := by
        simp only [daysInEra] at hmod hlast hera ⊢
        omega
      rw [hquotient, hrest]
      simp [marchDate, monthOfDay, monthStart, monthNumber, yearOfDay, yearStart]
      omega

end Calendar
