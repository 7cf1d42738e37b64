import Mathlib.Tactic.Linarith
import Mathlib.Tactic.Ring
import Grunt.Foundation.Calendar

/-! # Dates of the Gregorian calendar

The number of a date, counted by the lengths of years and months, and its
agreement with `civilDate`, which goes the other way by eras of 400 years.
-/

namespace Grunt.Foundation.Calendar

def isLeap (year : Int) : Bool := year % 4 = 0 && (year % 100 ≠ 0 || year % 400 = 0)

def daysIn (month : Nat) (year : Int) : Nat :=
  if month = 2 then (if isLeap year then 29 else 28)
  else if month = 4 ∨ month = 6 ∨ month = 9 ∨ month = 11 then 30
  else 31

def daysBefore : Nat → Nat
  | 2 => 31
  | 3 => 59
  | 4 => 90
  | 5 => 120
  | 6 => 151
  | 7 => 181
  | 8 => 212
  | 9 => 243
  | 10 => 273
  | 11 => 304
  | 12 => 334
  | _ => 0

def daysBeforeYear (year : Int) : Int :=
  365 * (year - 1) + (year - 1) / 4 - (year - 1) / 100 + (year - 1) / 400

def numberOf (date : Date) : Int :=
  daysBeforeYear date.year + daysBefore date.month +
    (if 2 < date.month ∧ isLeap date.year then 1 else 0) + date.day - 1 - 719162

example : numberOf ⟨1970, 1, 1⟩ = 0 := by decide

example : numberOf ⟨2024, 2, 29⟩ = 19782 := by decide

structure Date.Valid (date : Date) : Prop where
  month : 1 ≤ date.month ∧ date.month ≤ 12
  day : 1 ≤ date.day ∧ date.day ≤ daysIn date.month date.year

/-! ## The years of an era -/

/-- A day of an era of 400 years, by centuries, cycles of four years and years
that begin on 1 March. A year has its 366th day only before a leap year. -/
theorem exists_dayOfEra {dayOfEra : Int} (low : 0 ≤ dayOfEra) (high : dayOfEra < 146097) :
    ∃ century cycle year day : Int,
      dayOfEra = 36524 * century + 1461 * cycle + 365 * year + day ∧
      0 ≤ century ∧ century ≤ 3 ∧ 0 ≤ cycle ∧ cycle ≤ 24 ∧ 0 ≤ year ∧ year ≤ 3 ∧
      0 ≤ day ∧ day ≤ 365 ∧ (day = 365 → year = 3 ∧ (cycle = 24 → century = 3)) := by
  -- the last day of an era would begin a fifth century, that of a cycle a fifth year
  have ofCentury : ∃ century, 0 ≤ century ∧ century ≤ 3 ∧ 36524 * century ≤ dayOfEra ∧
      (dayOfEra < 36524 * century + 36524 ∨ (century = 3 ∧ dayOfEra = 146096)) := by
    by_cases last : dayOfEra = 146096
    · exact ⟨3, by omega⟩
    · exact ⟨dayOfEra / 36524, by omega⟩
  obtain ⟨century, _, _, _, _⟩ := ofCentury
  have ofCycle : ∃ year, 0 ≤ year ∧ year ≤ 3 ∧
      365 * year ≤ (dayOfEra - 36524 * century) % 1461 ∧
      ((dayOfEra - 36524 * century) % 1461 < 365 * year + 365 ∨
        (year = 3 ∧ (dayOfEra - 36524 * century) % 1461 = 1460)) := by
    by_cases last : (dayOfEra - 36524 * century) % 1461 = 1460
    · exact ⟨3, by omega⟩
    · exact ⟨(dayOfEra - 36524 * century) % 1461 / 365, by omega⟩
  obtain ⟨year, _, _, _, _⟩ := ofCycle
  refine ⟨century, (dayOfEra - 36524 * century) / 1461, year,
    (dayOfEra - 36524 * century) % 1461 - 365 * year, ?_⟩
  omega

theorem yearOfEra_eq {century cycle year day : Int} (century_le : 0 ≤ century ∧ century ≤ 3)
    (cycle_le : 0 ≤ cycle ∧ cycle ≤ 24) (year_le : 0 ≤ year ∧ year ≤ 3)
    (day_le : 0 ≤ day ∧ day ≤ 365)
    (leap : day = 365 → year = 3 ∧ (cycle = 24 → century = 3)) {dayOfEra : Int}
    (same : dayOfEra = 36524 * century + 1461 * cycle + 365 * year + day) :
    (dayOfEra - dayOfEra / 1460 + dayOfEra / 36524 - dayOfEra / 146096) / 365 =
      100 * century + 4 * cycle + year := by
  have centuries : century = 0 ∨ century = 1 ∨ century = 2 ∨ century = 3 := by omega
  have years : year = 0 ∨ year = 1 ∨ year = 2 ∨ year = 3 := by omega
  have eras : dayOfEra / 146096 =
      if century = 3 ∧ cycle = 24 ∧ day = 365 then 1 else 0 := by
    split <;> omega
  have hundreds : dayOfEra / 36524 =
      century + if century = 3 ∧ cycle = 24 ∧ day = 365 then 1 else 0 := by
    split <;> omega
  have cycles : dayOfEra / 1460 = 25 * century + cycle +
      if 1460 ≤ 24 * century + cycle + 365 * year + day then 1 else 0 := by
    split <;> omega
  rw [eras, hundreds, cycles, same]
  split <;> split <;> omega

/-! ## The months of a year -/

def marchDate (year dayOfYear : Int) : Date :=
  let month := (5 * dayOfYear + 2) / 153
  let civilMonth := if month < 10 then month + 3 else month - 9
  { year := year + (if civilMonth ≤ 2 then 1 else 0)
    month := civilMonth.toNat
    day := (dayOfYear - (153 * month + 2) / 5 + 1).toNat }

theorem marchDate_facts (dayOfYear : Fin 366) :
    let date := marchDate 0 (dayOfYear : Nat)
    1 ≤ date.month ∧ date.month ≤ 12 ∧ 1 ≤ date.day ∧
      (date.day ≤ daysIn date.month 1 ∨
        (dayOfYear = 365 ∧ date.month = 2 ∧ date.day = 29)) ∧
      (date.year = if date.month ≤ 2 then 1 else 0) ∧
      (daysBefore date.month + date.day : Int) =
        (dayOfYear : Nat) + 60 - (if date.month ≤ 2 then 365 else 0) := by
  revert dayOfYear
  decide +kernel

theorem daysIn_of_ne_february {month : Nat} (other : month ≠ 2) (year one : Int) :
    daysIn month year = daysIn month one := by
  simp [daysIn, other]

theorem daysIn_february_ge (year : Int) : 28 ≤ daysIn 2 year := by
  simp only [daysIn, if_true]
  split <;> decide

theorem daysBeforeYear_leap (year : Int) :
    daysBeforeYear year + (if isLeap year then 1 else 0) =
      365 * (year - 1) + year / 4 - year / 100 + year / 400 := by
  unfold daysBeforeYear isLeap
  by_cases four : year % 4 = 0 <;> by_cases hundred : year % 100 = 0 <;>
    by_cases era : year % 400 = 0 <;> simp [four, hundred, era] <;> omega

theorem marchDate_year (year dayOfYear : Int) :
    (marchDate year dayOfYear).year = year + (marchDate 0 dayOfYear).year := by
  simp [marchDate]

theorem marchDate_month (year dayOfYear : Int) :
    (marchDate year dayOfYear).month = (marchDate 0 dayOfYear).month := rfl

theorem marchDate_day (year dayOfYear : Int) :
    (marchDate year dayOfYear).day = (marchDate 0 dayOfYear).day := rfl

section March

variable {year dayOfYear : Int} (low : 0 ≤ dayOfYear) (high : dayOfYear ≤ 365)

include low high

theorem numberOf_marchDate :
    numberOf (marchDate year dayOfYear) =
      365 * year + year / 4 - year / 100 + year / 400 - 719468 + dayOfYear := by
  have facts := marchDate_facts ⟨dayOfYear.toNat, by omega⟩
  simp only [Int.toNat_of_nonneg low] at facts
  obtain ⟨one_le, le_twelve, -, -, sameYear, place⟩ := facts
  rw [numberOf, marchDate_year, marchDate_month, marchDate_day, sameYear]
  by_cases early : (marchDate 0 dayOfYear).month ≤ 2
  · rw [if_pos early] at place
    rw [if_pos early, if_neg (fun late => absurd late.1 (by omega)), daysBeforeYear]
    simp only [Int.add_sub_cancel]
    omega
  · have leap := daysBeforeYear_leap year
    rw [if_neg early] at place
    rw [if_neg early, Int.add_zero]
    simp only [show 2 < (marchDate 0 dayOfYear).month by omega, true_and]
    omega

theorem valid_marchDate (leap : dayOfYear = 365 → isLeap (year + 1) = true) :
    (marchDate year dayOfYear).Valid := by
  have facts := marchDate_facts ⟨dayOfYear.toNat, by omega⟩
  simp only [Int.toNat_of_nonneg low] at facts
  obtain ⟨one_le, le_twelve, first, last, sameYear, -⟩ := facts
  refine ⟨⟨one_le, le_twelve⟩, first, ?_⟩
  rw [marchDate_year, marchDate_month, marchDate_day]
  rcases last with inside | ⟨whole, february, day⟩
  · by_cases february : (marchDate 0 dayOfYear).month = 2
    · rw [february] at inside ⊢
      exact le_trans inside (daysIn_february_ge _)
    · rw [daysIn_of_ne_february february _ 1]
      exact inside
  · have last : dayOfYear = 365 := by
      have value : dayOfYear.toNat = 365 := congrArg Fin.val whole
      omega
    rw [sameYear, february, day, if_pos (by decide), daysIn, if_pos rfl, if_pos (leap last)]

end March

/-! ## The date of a number -/

theorem year_parts (era : Int) {century cycle year : Int} (century_le : 0 ≤ century ∧ century ≤ 3)
    (cycle_le : 0 ≤ cycle ∧ cycle ≤ 24) (year_le : 0 ≤ year ∧ year ≤ 3) {whole : Int}
    (same : whole = 100 * century + 4 * cycle + year + era * 400) :
    whole / 4 = 25 * century + cycle + 100 * era ∧ whole / 100 = century + 4 * era ∧
      whole / 400 = era := by
  refine ⟨?_, ?_, ?_⟩ <;> omega

theorem isLeap_after {era century cycle : Int} (cycle_le : 0 ≤ cycle ∧ cycle ≤ 24)
    (last : cycle = 24 → century = 3) :
    isLeap (100 * century + 4 * cycle + 3 + era * 400 + 1) = true := by
  have four : (100 * century + 4 * cycle + 3 + era * 400 + 1) % 4 = 0 := by omega
  by_cases full : cycle = 24
  · have whole : (100 * century + 4 * cycle + 3 + era * 400 + 1) % 400 = 0 := by
      rw [full, last full]
      omega
    simp [isLeap, four, whole]
  · have part : (100 * century + 4 * cycle + 3 + era * 400 + 1) % 100 ≠ 0 := by omega
    simp [isLeap, four, part]

theorem civilDate_eq (number : Int) :
    ∃ year dayOfYear, civilDate number = marchDate year dayOfYear ∧
      0 ≤ dayOfYear ∧ dayOfYear ≤ 365 ∧ (dayOfYear = 365 → isLeap (year + 1) = true) ∧
      number = 365 * year + year / 4 - year / 100 + year / 400 - 719468 + dayOfYear := by
  obtain ⟨century, cycle, year, day, same, century_ge, century_le, cycle_ge, cycle_le, year_ge,
    year_le, day_ge, day_le, leap⟩ := exists_dayOfEra
      (Int.emod_nonneg (number + 719468) (by decide : (146097 : Int) ≠ 0))
      (Int.emod_lt_of_pos (number + 719468) (by decide : (0 : Int) < 146097))
  have yearOfEra := yearOfEra_eq ⟨century_ge, century_le⟩ ⟨cycle_ge, cycle_le⟩
    ⟨year_ge, year_le⟩ ⟨day_ge, day_le⟩ leap same
  have inEra := year_parts 0 ⟨century_ge, century_le⟩ ⟨cycle_ge, cycle_le⟩
    ⟨year_ge, year_le⟩ (by rw [Int.zero_mul, Int.add_zero])
  have parts := year_parts ((number + 719468) / 146097) ⟨century_ge, century_le⟩
    ⟨cycle_ge, cycle_le⟩ ⟨year_ge, year_le⟩ rfl
  have eras := Int.mul_ediv_add_emod (number + 719468) 146097
  refine ⟨100 * century + 4 * cycle + year + (number + 719468) / 146097 * 400, day, ?_,
    day_ge, day_le, ?_, ?_⟩
  · have dayOfYear : (number + 719468) % 146097 -
        (365 * (100 * century + 4 * cycle + year) + (100 * century + 4 * cycle + year) / 4 -
          (100 * century + 4 * cycle + year) / 100) = day := by
      rw [inEra.1, inEra.2.1, same]
      ring
    simp only [civilDate, marchDate, yearOfEra, dayOfYear]
  · intro last
    obtain ⟨rfl, century_eq⟩ := leap last
    exact isLeap_after ⟨cycle_ge, cycle_le⟩ century_eq
  · rw [parts.1, parts.2.1, parts.2.2]
    rw [same] at eras
    linarith

theorem numberOf_civilDate (number : Int) : numberOf (civilDate number) = number := by
  obtain ⟨year, dayOfYear, same, low, high, -, number_eq⟩ := civilDate_eq number
  rw [same, numberOf_marchDate low high, number_eq]

theorem valid_civilDate (number : Int) : (civilDate number).Valid := by
  obtain ⟨year, dayOfYear, same, low, high, leap, -⟩ := civilDate_eq number
  rw [same]
  exact valid_marchDate low high leap

end Grunt.Foundation.Calendar
