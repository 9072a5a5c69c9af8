/-
The times that have a date in the calendar.

* `Date.monotone_flattened`, `Date.flattened_div`: the year of a day in the cycle of 400 years;
* `Date.MarchDay`: a day by its cycle, its year there and its day in that year, where years
  start with March;
* `Date.MarchDay.ofDayNumber?_eq`, `Date.MarchDay.dayOfMonth_mem`: the date of such a day, whose
  month has it;
* `Date.isSome_ofDayNumber?`: the days from the first year to the last one have a date;
* `Timestamp.isSome_ofMicros?`: so have the microseconds of these days.
-/
import LeaseQueue.Time.Timestamp
import Mathlib.Tactic

namespace LeaseQueue
namespace Date

/-! ### Years of a cycle -/

/-- The days of a cycle in front of a year. -/
def yearStart (year : Nat) : Nat := 365 * year + year / 4 - year / 100 + year / 400

/-- The days of a cycle as if every year had 365 of them. -/
def flattened (day : Nat) : Nat := day - day / 1460 + day / 36524 - day / 146096

/-- A later day is not before an earlier one when leap days are left out. -/
lemma monotone_flattened : Monotone flattened := by
  refine monotone_nat_of_le_succ fun day => ?_
  simp only [flattened]
  omega

/-- Every day of a cycle lies in a year. -/
lemma exists_year {day : Nat} : ∀ {years : Nat}, day < yearStart years →
    ∃ year < years, yearStart year ≤ day ∧ day < yearStart (year + 1) := by
  intro years
  induction years with
  | zero => exact fun h => absurd h (Nat.not_lt_zero _)
  | succ years ih =>
      intro h
      by_cases hday : day < yearStart years
      · obtain ⟨year, hyear, hmem⟩ := ih hday
        exact ⟨year, hyear.trans (Nat.lt_succ_self years), hmem⟩
      · exact ⟨years, Nat.lt_succ_self years, Nat.le_of_not_lt hday, h⟩

/-- The first and the last day of every year count for that year. -/
lemma flattened_bounds : ∀ year < 400, 365 * year ≤ flattened (yearStart year) ∧
    flattened (yearStart (year + 1) - 1) < 365 * (year + 1) := by
  decide +kernel

/-- The year of a day of the cycle. -/
lemma flattened_div {day year : Nat} (hyear : year < 400) (hfirst : yearStart year ≤ day)
    (hlast : day < yearStart (year + 1)) : flattened day / 365 = year := by
  obtain ⟨hlow, hhigh⟩ := flattened_bounds year hyear
  have hmono₁ : flattened (yearStart year) ≤ flattened day := monotone_flattened hfirst
  have hmono₂ : flattened day ≤ flattened (yearStart (year + 1) - 1) :=
    monotone_flattened (Nat.le_sub_one_of_lt hlast)
  have hle : 365 * year ≤ flattened day := hlow.trans hmono₁
  have hlt : flattened day < 365 * (year + 1) := hmono₂.trans_lt hhigh
  omega

/-- Every month has 28 days. -/
lemma le_daysInMonth (year : Int) (month : Nat) : 28 ≤ daysInMonth year month := by
  rw [daysInMonth]
  split_ifs <;> decide

/-! ### Days by the years from March -/

/-- A day since 1970 lies in a year of a cycle, so many days behind the first of March. -/
structure MarchDay (number cycle : Int) (year day : Nat) : Prop where
  year_lt : year < 400
  day_lt : yearStart year + day < yearStart (year + 1)
  number_eq : number + 719468 = daysPerCycle * cycle + (yearStart year + day : Nat)

/-- Every day is one of these. -/
lemma exists_marchDay (number : Int) : ∃ cycle year day, MarchDay number cycle year day := by
  have hpos : (0 : Int) < daysPerCycle := by decide
  have hday : ((number + 719468) % daysPerCycle).toNat < yearStart 400 := by
    have hnonneg := Int.emod_nonneg (number + 719468) hpos.ne'
    have hlt := Int.emod_lt_of_pos (number + 719468) hpos
    simp only [daysPerCycle, yearStart] at *
    omega
  obtain ⟨year, hyear, hfirst, hlast⟩ := exists_year hday
  refine ⟨(number + 719468) / daysPerCycle, year,
    ((number + 719468) % daysPerCycle).toNat - yearStart year, hyear, by omega, ?_⟩
  have hnonneg := Int.emod_nonneg (number + 719468) hpos.ne'
  have hsplit := Int.mul_ediv_add_emod (number + 719468) daysPerCycle
  omega

/-- The month of a day of a year from March, as far behind March. -/
def monthFromMarch (day : Nat) : Nat := (5 * day + 2) / 153

/-- The day of the month of a day of a year from March. -/
def dayOfMonth (day : Nat) : Nat := day - (153 * monthFromMarch day + 2) / 5 + 1

/-- The month of a day of a year from March. -/
def monthOf (day : Nat) : Nat :=
  if monthFromMarch day < 10 then monthFromMarch day + 3 else monthFromMarch day - 9

namespace MarchDay

variable {number cycle : Int} {year day : Nat}

/-- The year of the calendar, which starts with January. -/
def calendarYear (cycle : Int) (year day : Nat) : Int :=
  (year : Int) + 400 * cycle + if monthOf day ≤ 2 then 1 else 0

/-- The date of a day by its place in the cycle. -/
lemma ofDayNumber?_eq (h : MarchDay number cycle year day) :
    ofDayNumber? number =
      ofParts? (calendarYear cycle year day) (monthOf day) (dayOfMonth day) := by
  obtain ⟨hyear, hday, hnumber⟩ := h
  have hlt : yearStart year + day < 146097 := by
    simp only [yearStart] at *
    omega
  have hpos : (0 : Int) ≤ daysPerCycle := by decide
  have hcycle : (number + 719468).fdiv daysPerCycle = cycle := by
    rw [Int.fdiv_eq_ediv_of_nonneg _ hpos, hnumber]
    simp only [daysPerCycle]
    omega
  have hdayOfCycle : ((number + 719468).fmod daysPerCycle).toNat = yearStart year + day := by
    rw [Int.fmod_eq_emod_of_nonneg _ hpos, hnumber]
    simp only [daysPerCycle]
    omega
  have hyearOfCycle : flattened (yearStart year + day) / 365 = year :=
    flattened_div hyear (Nat.le_add_right _ _) hday
  have hstart : yearStart year + day - (365 * year + year / 4 - year / 100) = day := by
    simp only [yearStart]
    omega
  rw [flattened] at hyearOfCycle
  simp only [ofDayNumber?, hcycle, hdayOfCycle, hyearOfCycle, hstart]
  rfl

/-- A year has 366 days at most, and so many only if February has 29. -/
lemma day_le (h : MarchDay number cycle year day) :
    day ≤ 365 ∧ (day = 365 → isLeapYear ((year : Int) + 400 * cycle + 1) = true) := by
  obtain ⟨hyear, hday, -⟩ := h
  simp only [yearStart, isLeapYear, Bool.and_eq_true, Bool.or_eq_true, beq_iff_eq, bne_iff_ne,
    ne_eq] at *
  omega

/-- The month from March is the one in whose days the day lies. -/
lemma monthFromMarch_spec (h : MarchDay number cycle year day) :
    monthFromMarch day ≤ 11 ∧ (153 * monthFromMarch day + 2) / 5 ≤ day ∧
      day < (153 * (monthFromMarch day + 1) + 2) / 5 := by
  have hday := h.day_le.1
  simp only [monthFromMarch]
  omega

/-- The month is one of the twelve. -/
lemma monthOf_mem (h : MarchDay number cycle year day) : 1 ≤ monthOf day ∧ monthOf day ≤ 12 := by
  have hmonths := h.monthFromMarch_spec.1
  simp only [monthOf]
  by_cases hlt : monthFromMarch day < 10
  · simp only [if_pos hlt]
    omega
  · simp only [if_neg hlt]
    omega

/-- The month has the day. -/
lemma dayOfMonth_mem (h : MarchDay number cycle year day) :
    1 ≤ dayOfMonth day ∧
      dayOfMonth day ≤ daysInMonth (calendarYear cycle year day) (monthOf day) := by
  obtain ⟨hday, hleap⟩ := h.day_le
  obtain ⟨hmonths, hfirst, hlast⟩ := h.monthFromMarch_spec
  refine ⟨Nat.le_add_left _ _, ?_⟩
  rw [calendarYear, dayOfMonth]
  unfold monthOf
  obtain ⟨months, hm⟩ : ∃ months, monthFromMarch day = months := ⟨_, rfl⟩
  rw [hm] at hmonths hfirst hlast ⊢
  interval_cases months
  case «11» =>
    -- the last month of a year from March is February
    by_cases hend : day = 365
    · simp [daysInMonth, hend, hleap hend]
    · have hle : day - (153 * 11 + 2) / 5 + 1 ≤ 28 := by omega
      exact hle.trans (le_daysInMonth _ _)
  all_goals
    simp [daysInMonth]
    omega

/-- January is the month that starts behind 306 days. -/
lemma calendarYear_eq (h : MarchDay number cycle year day) :
    calendarYear cycle year day = (year : Int) + 400 * cycle + if 306 ≤ day then 1 else 0 := by
  have hmonths := h.monthFromMarch_spec.1
  have hjanuary : monthOf day ≤ 2 ↔ 306 ≤ day := by
    rw [monthOf]
    by_cases hlt : monthFromMarch day < 10
    · rw [if_pos hlt]
      simp only [monthFromMarch] at *
      omega
    · rw [if_neg hlt]
      simp only [monthFromMarch] at *
      omega
  rw [calendarYear]
  simp only [hjanuary]

end MarchDay

/-! ### The first and the last day -/

/-- The days of -262143-01-01 and of 262142-12-31. -/
def firstDay : Int := -96465292
def lastDay : Int := 95026236

/-- The days of the years that dates have are those that have a date. -/
theorem isSome_ofDayNumber? (number : Int) :
    (ofDayNumber? number).isSome = true ↔ firstDay ≤ number ∧ number ≤ lastDay := by
  obtain ⟨cycle, year, day, h⟩ := exists_marchDay number
  have hsome : (ofDayNumber? number).isSome = true ↔
      minYear ≤ MarchDay.calendarYear cycle year day ∧
        MarchDay.calendarYear cycle year day ≤ maxYear := by
    rw [h.ofDayNumber?_eq, ofParts?]
    split
    · rename_i hy
      rw [dif_pos h.monthOf_mem, dif_pos h.dayOfMonth_mem]
      exact iff_of_true rfl hy
    · rename_i hy
      exact iff_of_false Bool.false_ne_true hy
  rw [hsome, h.calendarYear_eq]
  obtain ⟨hyear, hday, hnumber⟩ := h
  simp only [daysPerCycle, yearStart] at hday hnumber
  have hjanuary : (if 306 ≤ day then (1 : Int) else 0) = 0 ∧ day < 306 ∨
      (if 306 ≤ day then (1 : Int) else 0) = 1 ∧ 306 ≤ day := by
    split_ifs with hday
    · exact .inr ⟨rfl, hday⟩
    · exact .inl ⟨rfl, Nat.lt_of_not_le hday⟩
  -- only in the two years from March that end and begin the calendar the day matters
  refine and_congr ?_ ?_
  · rcases lt_trichotomy ((year : Int) + 400 * cycle) (minYear - 1) with hlt | heq | hgt <;>
      simp only [minYear, firstDay] at * <;> omega
  · rcases lt_trichotomy ((year : Int) + 400 * cycle) maxYear with hlt | heq | hgt <;>
      simp only [maxYear, lastDay] at * <;> omega

end Date

namespace Timestamp

/-- The first and the last microsecond of the days that have a date. -/
def firstMicros : Int := microsPerDay * Date.firstDay
def lastMicros : Int := microsPerDay * (Date.lastDay + 1) - 1

/-- The microseconds of these days are those that have a time. -/
theorem isSome_ofMicros? (micros : Int) :
    (ofMicros? micros).isSome = true ↔ firstMicros ≤ micros ∧ micros ≤ lastMicros := by
  have hpos : (0 : Int) ≤ microsPerDay := by decide
  have hday : (Date.ofDayNumber? (micros.fdiv microsPerDay)).isSome = true ↔
      firstMicros ≤ micros ∧ micros ≤ lastMicros := by
    rw [Date.isSome_ofDayNumber?, Int.fdiv_eq_ediv_of_nonneg _ hpos]
    simp only [firstMicros, lastMicros, Date.firstDay, Date.lastDay, microsPerDay]
    omega
  have hofDay : (micros.fmod microsPerDay).toNat / 1000000 < 86400 := by
    rw [Int.fmod_eq_emod_of_nonneg _ hpos]
    simp only [microsPerDay]
    omega
  rw [← hday, ofMicros?]
  cases Date.ofDayNumber? (micros.fdiv microsPerDay) with
  | none => exact Iff.rfl
  | some date =>
      rw [Option.bind_some, ofParts?, dif_pos (by omega), dif_pos (by omega), dif_pos (by omega),
        dif_pos (.inl (by simp only [nanosInSecond]; omega))]
      exact Iff.rfl

end Timestamp
end LeaseQueue
