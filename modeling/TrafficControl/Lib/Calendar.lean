import Mathlib.Algebra.Ring.Int.Defs
import Mathlib.Algebra.Ring.Nat

set_option autoImplicit false

-- The days of the Gregorian calendar, counted from the first of January of the year 1.
namespace Calendar

/-- A day of a cycle of 400 years: how many days of its year are over, and whether that is a leap year. -/
def yearDay (cycleDay : Nat) : Nat × Bool :=
  let century := cycleDay / 36524 - cycleDay / 36524 / 4
  let centuryDay := cycleDay - 36524 * century
  let leapCycle := centuryDay / 1461
  let leapCycleDay := centuryDay - 1461 * leapCycle
  let year := leapCycleDay / 365 - leapCycleDay / 365 / 4
  (leapCycleDay - 365 * year, year = 3 ∧ (leapCycle ≠ 24 ∨ century = 3))

def monthLengths (leap : Bool) : List Nat := [31, if leap then 29 else 28, 31, 30, 31, 30, 31, 31, 30, 31, 30, 31]

/-- The day of the month, from 1 on. -/
def monthDay : List Nat → Nat → Nat
  | [], day => day + 1
  | length :: lengths, day => if day < length then day + 1 else monthDay lengths (day - length)

def dayOfMonth (day : Int) : Nat :=
  let (yearDay, leap) := yearDay (day % 146097).toNat
  monthDay (monthLengths leap) yearDay

-- 1970-01-01, 2000-02-29 and 1900-03-01
example : [719162, 730178, 693654].map dayOfMonth = [1, 29, 1] := by decide

def yearLength (leap : Bool) : Nat := if leap then 366 else 365

def leap (century leapCycle year : Nat) : Bool := year = 3 ∧ (leapCycle ≠ 24 ∨ century = 3)

/-- Of four equal parts the last may be a day longer. -/
theorem part_eq {length part day : Nat} (parts : part ≤ 3) (days : day < length ∨ day = length ∧ part = 3) (positive : 0 < length) :
    (length * part + day) / length - (length * part + day) / length / 4 = part := by
  have quotient : (length * part + day) / length = part + day / length := Nat.mul_add_div positive part day
  rw [quotient]
  rcases days with short | ⟨rfl, rfl⟩
  · rw [Nat.div_eq_of_lt short]
    omega
  · rw [Nat.div_self positive]

theorem lt_yearLength {century leapCycle year day : Nat} (days : day < yearLength (leap century leapCycle year)) :
    day < 365 ∨ day = 365 ∧ year = 3 ∧ (leapCycle ≠ 24 ∨ century = 3) := by
  unfold yearLength at days
  split at days
  · next isLeap =>
    have facts := of_decide_eq_true isLeap
    omega
  · exact Or.inl days

theorem yearDay_eq {century leapCycle year day : Nat} (centuries : century ≤ 3) (cycles : leapCycle ≤ 24) (years : year ≤ 3)
    (days : day < yearLength (leap century leapCycle year)) :
    yearDay (36524 * century + (1461 * leapCycle + (365 * year + day))) = (day, leap century leapCycle year) := by
  have inYear := lt_yearLength days
  have inCentury : 1461 * leapCycle + (365 * year + day) < 36524 ∨
      1461 * leapCycle + (365 * year + day) = 36524 ∧ century = 3 := by omega
  have inLeapCycle : (1461 * leapCycle + (365 * year + day)) / 1461 = leapCycle := by omega
  unfold yearDay leap
  dsimp only
  rw [part_eq centuries inCentury (by decide), Nat.add_sub_cancel_left, inLeapCycle, Nat.add_sub_cancel_left,
    part_eq years (by omega) (by decide), Nat.add_sub_cancel_left]

/-- Every day of the cycle is a day of one of its years. -/
theorem exists_day {cycleDay : Nat} (inCycle : cycleDay < 146097) : ∃ century leapCycle year day,
    century ≤ 3 ∧ leapCycle ≤ 24 ∧ year ≤ 3 ∧ day < yearLength (leap century leapCycle year) ∧
      cycleDay = 36524 * century + (1461 * leapCycle + (365 * year + day)) := by
  obtain ⟨century, centuryDay, rfl, centuries, inCentury⟩ : ∃ c k, cycleDay = 36524 * c + k ∧ c ≤ 3 ∧ (k < 36524 ∨ k = 36524 ∧ c = 3) := by
    by_cases last : cycleDay = 146096
    · exact ⟨3, 36524, by omega, by omega, by omega⟩
    · exact ⟨cycleDay / 36524, cycleDay % 36524, by omega, by omega, by omega⟩
  obtain ⟨leapCycle, cycleDay, rfl, inLeapCycle⟩ : ∃ q k, centuryDay = 1461 * q + k ∧ k < 1461 :=
    ⟨centuryDay / 1461, centuryDay % 1461, by omega, by omega⟩
  obtain ⟨year, day, rfl, years, inYear⟩ : ∃ y k, cycleDay = 365 * y + k ∧ y ≤ 3 ∧ (k < 365 ∨ k = 365 ∧ y = 3) := by
    by_cases last : cycleDay = 1460
    · exact ⟨3, 365, by omega, by omega, by omega⟩
    · exact ⟨cycleDay / 365, cycleDay % 365, by omega, by omega, by omega⟩
  refine ⟨century, leapCycle, year, day, centuries, by omega, years, ?_, rfl⟩
  unfold yearLength
  split
  · omega
  · next common =>
    have facts : ¬ (year = 3 ∧ (leapCycle ≠ 24 ∨ century = 3)) := fun isLeap => common (decide_eq_true isLeap)
    omega

theorem monthDay_zero (isLeap : Bool) : monthDay (monthLengths isLeap) 0 = 1 := by
  cases isLeap <;> rfl

theorem monthDay_last (isLeap : Bool) : monthDay (monthLengths isLeap) (yearLength isLeap - 1) = 31 := by
  cases isLeap <;> rfl

/-- The next day of a year is the next day of its month, or the first day after a month of 28 days or more. -/
theorem monthDay_succ {isLeap : Bool} {day : Nat} (inYear : day + 1 < yearLength isLeap) :
    monthDay (monthLengths isLeap) (day + 1) = monthDay (monthLengths isLeap) day + 1 ∨
      monthDay (monthLengths isLeap) (day + 1) = 1 ∧ 28 ≤ monthDay (monthLengths isLeap) day := by
  have table : ∀ isLeap, ∀ day < yearLength isLeap, day + 1 < yearLength isLeap →
      monthDay (monthLengths isLeap) (day + 1) = monthDay (monthLengths isLeap) day + 1 ∨
        monthDay (monthLengths isLeap) (day + 1) = 1 ∧ 28 ≤ monthDay (monthLengths isLeap) day := by
    decide +kernel
  exact table isLeap day (by omega) inYear

theorem dayOfMonth_eq {day : Int} {century leapCycle year inYear : Nat} (centuries : century ≤ 3) (cycles : leapCycle ≤ 24)
    (years : year ≤ 3) (days : inYear < yearLength (leap century leapCycle year))
    (cycleDay : day % 146097 = (36524 * century + (1461 * leapCycle + (365 * year + inYear)) : Nat)) :
    dayOfMonth day = monthDay (monthLengths (leap century leapCycle year)) inYear := by
  rw [dayOfMonth, cycleDay, Int.toNat_natCast, yearDay_eq centuries cycles years days]

/-- After the last day of a year comes the first day of one. -/
theorem next_year {century leapCycle year day : Nat} (centuries : century ≤ 3) (cycles : leapCycle ≤ 24) (years : year ≤ 3)
    (last : day + 1 = yearLength (leap century leapCycle year)) : ∃ century' leapCycle' year',
    century' ≤ 3 ∧ leapCycle' ≤ 24 ∧ year' ≤ 3 ∧
      (36524 * century + (1461 * leapCycle + (365 * year + day)) + 1) % 146097 =
        36524 * century' + (1461 * leapCycle' + (365 * year' + 0)) := by
  have long : leap century leapCycle year = true ↔ year = 3 ∧ (leapCycle ≠ 24 ∨ century = 3) := decide_eq_true_iff
  unfold yearLength at last
  split at last
  · next isLeap =>
    obtain ⟨rfl, exceptional⟩ := long.mp isLeap
    by_cases lastCycle : leapCycle = 24
    · exact ⟨0, 0, 0, by omega⟩
    · exact ⟨century, leapCycle + 1, 0, by omega⟩
  · next common =>
    rw [long] at common
    by_cases lastYear : year = 3
    · exact ⟨century + 1, 0, 0, by omega⟩
    · exact ⟨century, leapCycle, year + 1, by omega⟩

theorem dayOfMonth_succ (day : Int) :
    dayOfMonth (day + 1) = dayOfMonth day + 1 ∨ dayOfMonth (day + 1) = 1 ∧ 28 ≤ dayOfMonth day := by
  have inCycle : (day % 146097).toNat < 146097 := by omega
  obtain ⟨century, leapCycle, year, inYear, centuries, cycles, years, days, cycleDay⟩ := exists_day inCycle
  have here : day % 146097 = (36524 * century + (1461 * leapCycle + (365 * year + inYear)) : Nat) := by omega
  rw [dayOfMonth_eq centuries cycles years days here]
  by_cases last : inYear + 1 = yearLength (leap century leapCycle year)
  · right
    obtain ⟨century', leapCycle', year', centuries', cycles', years', next⟩ := next_year centuries cycles years last
    have start : 0 < yearLength (leap century' leapCycle' year') := by
      unfold yearLength
      split <;> decide
    rw [dayOfMonth_eq centuries' cycles' years' start (by omega), monthDay_zero]
    have lastDay := monthDay_last (leap century leapCycle year)
    rw [← last, Nat.add_sub_cancel] at lastDay
    omega
  · have inside : inYear + 1 < yearLength (leap century leapCycle year) := by omega
    have short := lt_yearLength inside
    rw [dayOfMonth_eq centuries cycles years inside (by omega)]
    exact monthDay_succ inside

/-- Two days less than four weeks apart have different days of the month. -/
theorem dayOfMonth_ne {day later : Int} (after : day < later) (soon : later < day + 28) : dayOfMonth later ≠ dayOfMonth day := by
  have walk : ∀ k : Nat, k < 28 → dayOfMonth (day + k) = dayOfMonth day + k ∨
      dayOfMonth (day + k) ≤ k ∧ dayOfMonth (day + k) + 28 ≤ dayOfMonth day + k := by
    intro k small
    induction k with
    | zero => simp
    | succ k ih =>
      have before := ih (by omega)
      have next := dayOfMonth_succ (day + k)
      rw [Int.add_assoc] at next
      push_cast
      omega
  obtain ⟨k, rfl⟩ : ∃ k : Nat, later = day + k := ⟨(later - day).toNat, by omega⟩
  have apart := walk k (by omega)
  omega

section Dates

structure Date where
  year : Int
  month : Nat
  day : Nat
deriving DecidableEq

/-- The month and the day of the month, from 1 on. -/
def monthAndDay : List Nat → Nat → Nat × Nat
  | [], day => (1, day + 1)
  | length :: lengths, day =>
    if day < length then (1, day + 1)
    else
      let (month, dayOfMonth) := monthAndDay lengths (day - length)
      (month + 1, dayOfMonth)

/-- The years of a cycle that are over on one of its days. -/
def cycleYear (cycleDay : Nat) : Nat :=
  let century := cycleDay / 36524 - cycleDay / 36524 / 4
  let centuryDay := cycleDay - 36524 * century
  let leapCycle := centuryDay / 1461
  let leapCycleDay := centuryDay - 1461 * leapCycle
  100 * century + (4 * leapCycle + (leapCycleDay / 365 - leapCycleDay / 365 / 4))

def date (day : Int) : Date :=
  let cycleDay := (day % 146097).toNat
  let (inYear, isLeap) := yearDay cycleDay
  let (month, dayOfMonth) := monthAndDay (monthLengths isLeap) inYear
  ⟨400 * (day / 146097) + cycleYear cycleDay + 1, month, dayOfMonth⟩

def isLeap (year : Int) : Bool := year % 4 = 0 ∧ (year % 100 ≠ 0 ∨ year % 400 = 0)

def daysIn (month : Nat) (year : Int) : Nat := (monthLengths (isLeap year)).getD (month - 1) 0

def dayNumber (date : Date) : Int :=
  let years := date.year - 1
  365 * years + years / 4 - years / 100 + years / 400 +
    (((monthLengths (isLeap date.year)).take (date.month - 1)).sum + date.day - 1 : Nat)

-- 1970-01-01 and 2000-02-29
example : [719162, 730178].map date = [⟨1970, 1, 1⟩, ⟨2000, 2, 29⟩] := by decide

theorem cycleYear_eq {century leapCycle year day : Nat} (centuries : century ≤ 3) (cycles : leapCycle ≤ 24) (years : year ≤ 3)
    (days : day < yearLength (leap century leapCycle year)) :
    cycleYear (36524 * century + (1461 * leapCycle + (365 * year + day))) = 100 * century + (4 * leapCycle + year) := by
  have inYear := lt_yearLength days
  have inCentury : 1461 * leapCycle + (365 * year + day) < 36524 ∨
      1461 * leapCycle + (365 * year + day) = 36524 ∧ century = 3 := by omega
  have inLeapCycle : (1461 * leapCycle + (365 * year + day)) / 1461 = leapCycle := by omega
  unfold cycleYear
  dsimp only
  rw [part_eq centuries inCentury (by decide), Nat.add_sub_cancel_left, inLeapCycle, Nat.add_sub_cancel_left,
    part_eq years (by omega) (by decide)]

theorem isLeap_eq {cycle : Int} {century leapCycle year : Nat} (centuries : century ≤ 3) (cycles : leapCycle ≤ 24)
    (years : year ≤ 3) : isLeap (400 * cycle + (100 * century + (4 * leapCycle + year) : Nat) + 1) = leap century leapCycle year := by
  unfold isLeap leap
  rw [decide_eq_decide]
  omega

structure Date.Valid (date : Date) : Prop where
  month : 1 ≤ date.month ∧ date.month ≤ 12
  day : 1 ≤ date.day ∧ date.day ≤ daysIn date.month date.year

theorem monthAndDay_table : ∀ isLeap, ∀ day < yearLength isLeap,
    (1 ≤ (monthAndDay (monthLengths isLeap) day).1 ∧ (monthAndDay (monthLengths isLeap) day).1 ≤ 12) ∧
    (1 ≤ (monthAndDay (monthLengths isLeap) day).2 ∧
      (monthAndDay (monthLengths isLeap) day).2 ≤
        (monthLengths isLeap).getD ((monthAndDay (monthLengths isLeap) day).1 - 1) 0) ∧
    ((monthLengths isLeap).take ((monthAndDay (monthLengths isLeap) day).1 - 1)).sum +
      (monthAndDay (monthLengths isLeap) day).2 - 1 = day := by
  decide +kernel

theorem date_facts (day : Int) : (date day).Valid ∧ dayNumber (date day) = day := by
  have inCycle : (day % 146097).toNat < 146097 := by omega
  obtain ⟨century, leapCycle, year, inYear, centuries, cycles, years, days, cycleDay⟩ := exists_day inCycle
  have split : date day = ⟨400 * (day / 146097) + (100 * century + (4 * leapCycle + year) : Nat) + 1,
      (monthAndDay (monthLengths (leap century leapCycle year)) inYear).1,
      (monthAndDay (monthLengths (leap century leapCycle year)) inYear).2⟩ := by
    unfold date
    simp only [cycleDay, yearDay_eq centuries cycles years days, cycleYear_eq centuries cycles years days]
  have table := monthAndDay_table (leap century leapCycle year) inYear days
  have isLeap' := @isLeap_eq (day / 146097) century leapCycle year centuries cycles years
  rw [split]
  generalize monthAndDay (monthLengths (leap century leapCycle year)) inYear = found at table
  refine ⟨⟨table.1, table.2.1.1, ?_⟩, ?_⟩
  · unfold daysIn
    rw [isLeap']
    exact table.2.1.2
  · unfold dayNumber
    dsimp only
    rw [isLeap', table.2.2]
    omega

theorem date_valid (day : Int) : (date day).Valid := (date_facts day).1

theorem dayNumber_date (day : Int) : dayNumber (date day) = day := (date_facts day).2

end Dates

end Calendar
