import Mathlib.Tactic.IntervalCases
import TopicBroker.Calendar

/-! # The calendar has every day once

A cycle of 400 years has centuries, each of these has groups of four years, and each of these has
years, which start in March here. The day of a number is found by dividing with the lengths of these
parts, and what is left over at the end of a part is the day that a leap year adds. -/

namespace TopicBroker.Date

/-! ## The place of a day in its cycle -/

/-- Where a day of a cycle of 400 years lies. -/
structure Place (dayOfCycle century quad yearOfQuad dayOfYear : Nat) : Prop where
  sum : dayOfCycle = 36524 * century + 1461 * quad + 365 * yearOfQuad + dayOfYear
  century_le : century ≤ 3
  quad_le : quad ≤ 24
  year_le : yearOfQuad ≤ 3
  day_le : dayOfYear ≤ 365
  /-- Only the last year of a group has a day more, and the last group of a century has it only at the
  end of the cycle. -/
  leap : dayOfYear = 365 → yearOfQuad = 3 ∧ (quad ≤ 23 ∨ century = 3)

theorem place_of_lt {dayOfCycle : Nat} (h : dayOfCycle < 146097) :
    let century := min (dayOfCycle / 36524) 3
    let dayOfCentury := dayOfCycle - century * 36524
    let dayOfQuad := dayOfCentury % 1461
    let yearOfQuad := min (dayOfQuad / 365) 3
    Place dayOfCycle century (dayOfCentury / 1461) yearOfQuad (dayOfQuad - yearOfQuad * 365) := by
  intro century dayOfCentury dayOfQuad yearOfQuad
  constructor <;> omega

theorem Place.yearOfCycle {dayOfCycle century quad yearOfQuad dayOfYear : Nat}
    (h : Place dayOfCycle century quad yearOfQuad dayOfYear) :
    century * 100 + quad * 4 + yearOfQuad < 400 ∧
      (century * 100 + quad * 4 + yearOfQuad) / 4 = century * 25 + quad ∧
      (century * 100 + quad * 4 + yearOfQuad) / 100 = century := by
  obtain ⟨-, hcentury, hquad, hyear, -, -⟩ := h
  omega

/-- The year that ends with the day that a leap year adds. -/
theorem Place.isLeapYear {dayOfCycle century quad yearOfQuad dayOfYear : Nat}
    (h : Place dayOfCycle century quad yearOfQuad dayOfYear) (hday : dayOfYear = 365)
    (cycle : Int) :
    isLeapYear (cycle * 400 + (century * 100 + quad * 4 + yearOfQuad : Nat) + 1) = true := by
  obtain ⟨rfl, hlast⟩ := h.leap hday
  obtain ⟨-, hcentury, hquad, -, -, -⟩ := h
  simp only [Date.isLeapYear, Bool.and_eq_true, Bool.or_eq_true, beq_iff_eq, bne_iff_ne]
  omega

/-! ## Years that start in March -/

/-- The date of a day in a year that starts in March. -/
def ofMarchYear (year : Int) (dayOfYear : Nat) : Date :=
  let monthFromMarch := (5 * dayOfYear + 2) / 153
  let month := if monthFromMarch < 10 then monthFromMarch + 3 else monthFromMarch - 9
  { year := if month ≤ 2 then year + 1 else year
    month
    day := dayOfYear - (153 * monthFromMarch + 2) / 5 + 1 }

/-- Every number of days is that of a day in a year of a cycle. -/
theorem exists_place (days : Int) : ∃ century quad yearOfQuad dayOfYear,
    Place ((days + epochOffset) % daysPerCycle).toNat century quad yearOfQuad dayOfYear ∧
      ofDays days = ofMarchYear
        ((days + epochOffset) / daysPerCycle * 400 + (century * 100 + quad * 4 + yearOfQuad : Nat))
        dayOfYear := by
  have hlt : ((days + epochOffset) % daysPerCycle).toNat < 146097 := by
    unfold daysPerCycle
    omega
  exact ⟨_, _, _, _, place_of_lt hlt, rfl⟩

theorem toDays_ofMarchYear (year : Int) {dayOfYear : Nat} (h : dayOfYear ≤ 365) :
    (ofMarchYear year dayOfYear).toDays = year / 400 * daysPerCycle +
      (year % 400 * 365 + year % 400 / 4 - year % 400 / 100 + dayOfYear) - epochOffset := by
  have hmonth : (5 * dayOfYear + 2) / 153 ≤ 11 := by omega
  have hday : (153 * ((5 * dayOfYear + 2) / 153) + 2) / 5 ≤ dayOfYear := by omega
  unfold ofMarchYear toDays
  generalize (5 * dayOfYear + 2) / 153 = monthFromMarch at hmonth hday
  by_cases hlate : monthFromMarch < 10
  · have hnot : ¬ monthFromMarch + 3 ≤ 2 := by omega
    simp only [hlate, if_true, hnot, if_false, Nat.add_sub_cancel]
    omega
  · have hearly : monthFromMarch - 9 ≤ 2 := by omega
    have hback : monthFromMarch - 9 + 9 = monthFromMarch := by omega
    simp only [hlate, if_false, hearly, if_true, hback, Int.add_sub_cancel]
    omega

theorem isValid_ofMarchYear {year : Int} {dayOfYear : Nat} (h : dayOfYear ≤ 365)
    (hleap : dayOfYear = 365 → isLeapYear (year + 1) = true) :
    (ofMarchYear year dayOfYear).isValid = true := by
  have hmonth : (5 * dayOfYear + 2) / 153 ≤ 11 := by omega
  unfold ofMarchYear
  generalize hm : (5 * dayOfYear + 2) / 153 = monthFromMarch at hmonth
  by_cases hlast : monthFromMarch = 11
  · -- February is the only month whose length depends on the year
    subst hlast
    by_cases hyear : isLeapYear (year + 1) = true
    · simp [isValid, daysInMonth, hyear]
      omega
    · have hday : dayOfYear ≠ 365 := fun e => hyear (hleap e)
      simp [isValid, daysInMonth, hyear]
      omega
  · interval_cases monthFromMarch <;> simp [isValid, daysInMonth] at * <;> omega

/-! ## Days and dates -/

/-- The date of a number of days has that number. -/
theorem toDays_ofDays (days : Int) : (ofDays days).toDays = days := by
  obtain ⟨century, quad, yearOfQuad, dayOfYear, hplace, hdate⟩ := exists_place days
  obtain ⟨hlt, hquads, hcenturies⟩ := hplace.yearOfCycle
  obtain ⟨hsum, -, -, -, hday, -⟩ := hplace
  rw [hdate, toDays_ofMarchYear _ hday]
  generalize hyear : century * 100 + quad * 4 + yearOfQuad = yearOfCycle at *
  generalize hcycle : (days + epochOffset) / daysPerCycle = cycle
  have hdiv : (cycle * 400 + (yearOfCycle : Int)) / 400 = cycle := by omega
  have hmod : (cycle * 400 + (yearOfCycle : Int)) % 400 = yearOfCycle := by omega
  rw [hdiv, hmod]
  unfold daysPerCycle at *
  omega

/-- The date of a number of days is in the calendar. -/
theorem isValid_ofDays (days : Int) : (ofDays days).isValid = true := by
  obtain ⟨century, quad, yearOfQuad, dayOfYear, hplace, hdate⟩ := exists_place days
  rw [hdate]
  exact isValid_ofMarchYear hplace.day_le fun hday => hplace.isLeapYear hday _

theorem isValid_iff {d : Date} : d.isValid = true ↔
    (1 ≤ d.month ∧ d.month ≤ 12) ∧ 1 ≤ d.day ∧ d.day ≤ daysInMonth d.year d.month := by
  simp [isValid, and_assoc]

theorem daysInMonth_le (year : Int) (month : Nat) : daysInMonth year month ≤ 31 := by
  unfold daysInMonth
  split
  · split <;> decide
  all_goals decide

/-- The year of a day lies within the years of its cycle. -/
theorem year_ofDays (days : Int) :
    (days + epochOffset) / daysPerCycle * 400 ≤ (ofDays days).year ∧
      (ofDays days).year ≤ (days + epochOffset) / daysPerCycle * 400 + 400 := by
  obtain ⟨century, quad, yearOfQuad, dayOfYear, hplace, hdate⟩ := exists_place days
  have hlt := hplace.yearOfCycle.1
  rw [hdate, ofMarchYear]
  dsimp only
  split <;> omega

end TopicBroker.Date
