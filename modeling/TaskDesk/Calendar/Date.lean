/-!
# Dates

Calendar dates of the years 1 to 9999 in the Gregorian calendar, extended to
all of these years. Dates are counted from the first day of year 1, which is a
Monday and has the number 1. The day after the last date is no date.

Results:
* `number_next`: the next date has the next number.
* `number_addDays`: adding days adds to the number.
* `next_eq_none_iff`: only the last day of year 9999 has no next date.
-/

namespace TaskDesk

/-- The days of the week. -/
inductive Weekday where
  | monday | tuesday | wednesday | thursday | friday | saturday | sunday
deriving DecidableEq, Repr

namespace Weekday

/-- The days of the week, Monday first. -/
def all : List Weekday := [monday, tuesday, wednesday, thursday, friday, saturday, sunday]

/-- The place in the week: Monday is 0 and Sunday is 6. -/
def index : Weekday → Nat
  | monday => 0
  | tuesday => 1
  | wednesday => 2
  | thursday => 3
  | friday => 4
  | saturday => 5
  | sunday => 6

/-- The day of the week with the given place; places repeat every seven. -/
def ofIndex (n : Nat) : Weekday := all.getD (n % 7) monday

/-- The day of the week with the given place, negative places included. -/
def ofInt (n : Int) : Weekday := ofIndex (n % 7).toNat

theorem index_lt (w : Weekday) : w.index < 7 := by cases w <;> decide

theorem index_ofIndex (n : Nat) : (ofIndex n).index = n % 7 := by
  have key : ∀ m < 7, (ofIndex m).index = m := by decide
  have same : ofIndex n = ofIndex (n % 7) := by simp [ofIndex]
  rw [same]
  exact key _ (Nat.mod_lt _ (by decide))

theorem index_ofInt (n : Int) : ((ofInt n).index : Int) = n % 7 := by
  simp only [ofInt, index_ofIndex]; omega

end Weekday

/-- Whether a year has a 29th of February. -/
def isLeap (year : Nat) : Bool := year % 4 = 0 ∧ (year % 100 ≠ 0 ∨ year % 400 = 0)

/-- The number of days of a month; every number past 12 counts as a month of 31. -/
def monthLength (year month : Nat) : Nat :=
  if month = 2 then if isLeap year then 29 else 28
  else if month = 4 ∨ month = 6 ∨ month = 9 ∨ month = 11 then 30
  else 31

/-- A calendar date. -/
structure Date where
  year : Nat
  month : Nat
  day : Nat
  year_pos : 1 ≤ year := by decide
  year_le : year ≤ 9999 := by decide
  month_pos : 1 ≤ month := by decide
  month_le : month ≤ 12 := by decide
  day_pos : 1 ≤ day := by decide
  day_le : day ≤ monthLength year month := by decide
deriving DecidableEq, Repr

namespace Date

/-- The date with the given parts, if there is one. -/
def ofParts? (year month day : Nat) : Option Date :=
  if h : 1 ≤ year ∧ year ≤ 9999 ∧ 1 ≤ month ∧ month ≤ 12 ∧ 1 ≤ day ∧ day ≤ monthLength year month then
    some ⟨year, month, day, h.1, h.2.1, h.2.2.1, h.2.2.2.1, h.2.2.2.2.1, h.2.2.2.2.2⟩
  else none

theorem ofParts?_eq_some_iff {y m d : Nat} {date : Date} :
    ofParts? y m d = some date ↔ y = date.year ∧ m = date.month ∧ d = date.day := by
  unfold ofParts?
  split
  · obtain ⟨_, _, _, _, _, _, _, _, _⟩ := date
    simp
  · rename_i h
    constructor
    · simp
    · rintro ⟨rfl, rfl, rfl⟩
      exact absurd ⟨date.year_pos, date.year_le, date.month_pos, date.month_le, date.day_pos,
        date.day_le⟩ h

/-! ## Counting days -/

/-- The number of days before a year. -/
def daysBeforeYear (year : Nat) : Nat :=
  365 * (year - 1) + (year - 1) / 4 - (year - 1) / 100 + (year - 1) / 400

/-- The number of days of a year that lie before a month. -/
def daysBeforeMonth (year : Nat) : (month : Nat) → Nat
  | 0 => 0
  | 1 => 0
  | month + 2 => daysBeforeMonth year (month + 1) + monthLength year (month + 1)

/-- The number of a date: the first day of year 1 has the number 1. -/
def number (d : Date) : Nat := daysBeforeYear d.year + daysBeforeMonth d.year d.month + d.day

/-- The day of the week. -/
def weekday (d : Date) : Weekday := Weekday.ofIndex (d.number + 6)

/-- The day after a date. -/
def next (d : Date) : Option Date :=
  if h : d.day < monthLength d.year d.month then
    some { d with day := d.day + 1, day_pos := by omega, day_le := h }
  else if h : d.month < 12 then
    some { d with
      month := d.month + 1, day := 1, month_pos := by omega, month_le := h, day_pos := by omega,
      day_le := by simp only [monthLength]; split <;> (try split) <;> omega }
  else if h : d.year < 9999 then
    some { year := d.year + 1, month := 1, day := 1, year_pos := by omega, year_le := h,
           day_le := by simp [monthLength] }
  else none

/-- The date a number of days later. -/
def addDays (d : Date) : Nat → Option Date
  | 0 => some d
  | n + 1 => (d.addDays n).bind next

theorem daysBeforeMonth_succ (year month : Nat) (h : 1 ≤ month) :
    daysBeforeMonth year (month + 1) = daysBeforeMonth year month + monthLength year month := by
  obtain ⟨m, rfl⟩ : ∃ m, month = m + 1 := ⟨month - 1, by omega⟩
  rfl

theorem daysBeforeMonth_thirteen (year : Nat) :
    daysBeforeMonth year 13 = 365 + if isLeap year then 1 else 0 := by
  have h : daysBeforeMonth year 13 = 337 + monthLength year 2 := by
    simp [daysBeforeMonth, monthLength]; omega
  rw [h]
  simp only [monthLength, if_true]
  split <;> omega

/-- A year has 365 days, and a leap year one more. -/
theorem daysBeforeYear_succ (year : Nat) (h : 1 ≤ year) :
    daysBeforeYear (year + 1) = daysBeforeYear year + daysBeforeMonth year 13 := by
  rw [daysBeforeMonth_thirteen]
  obtain ⟨n, rfl⟩ : ∃ n, year = n + 1 := ⟨year - 1, by omega⟩
  have step : ∀ k, 0 < k → (n + 1) / k = n / k + if (n + 1) % k = 0 then 1 else 0 := by
    intro k hk
    rw [Nat.succ_div]
    simp [Nat.dvd_iff_mod_eq_zero]
  have h4 := step 4 (by decide)
  have h100 := step 100 (by decide)
  have h400 := step 400 (by decide)
  have hle : n / 100 ≤ n / 4 := Nat.div_le_div_left (by decide) (by decide)
  have d4 : (n + 1) % 100 = 0 → (n + 1) % 4 = 0 := by omega
  have d100 : (n + 1) % 400 = 0 → (n + 1) % 100 = 0 := by omega
  simp only [daysBeforeYear, isLeap, decide_eq_true_eq, Nat.add_sub_cancel, h4, h100, h400]
  by_cases a : (n + 1) % 4 = 0 <;> by_cases b : (n + 1) % 100 = 0 <;>
    by_cases c : (n + 1) % 400 = 0 <;> simp [a, b, c] <;> omega

theorem number_next {d e : Date} (h : d.next = some e) : e.number = d.number + 1 := by
  unfold next at h
  split at h
  · cases h; simp only [number]; omega
  · rename_i hd
    have hday := d.day_le
    split at h
    · cases h
      simp only [number, daysBeforeMonth_succ d.year d.month d.month_pos]
      omega
    · split at h
      · cases h
        have hmonth : d.month = 12 := by have := d.month_le; omega
        have h13 : daysBeforeMonth d.year 13 = daysBeforeMonth d.year 12 + monthLength d.year 12 :=
          daysBeforeMonth_succ d.year 12 (by decide)
        have h1 : daysBeforeMonth (d.year + 1) 1 = 0 := by simp [daysBeforeMonth]
        rw [hmonth] at hd hday
        simp only [number, daysBeforeYear_succ d.year d.year_pos, hmonth, h1, h13]
        omega
      · cases h

theorem number_addDays {d e : Date} {n : Nat} (h : d.addDays n = some e) :
    e.number = d.number + n := by
  induction n generalizing e with
  | zero => cases h; rfl
  | succ n ih =>
    obtain ⟨f, hf, he⟩ := Option.bind_eq_some_iff.1 h
    rw [number_next he, ih hf]
    omega

theorem next_eq_none_iff (d : Date) : d.next = none ↔ d.year = 9999 ∧ d.month = 12 ∧ d.day = 31 := by
  have := d.year_le
  have := d.month_le
  have := d.day_le
  have := d.day_pos
  unfold next
  split
  · rename_i hd
    simp only [reduceCtorEq, false_iff]
    rintro ⟨-, hm, hday⟩
    simp [hm, hday, monthLength] at hd
  · split
    · simp only [reduceCtorEq, false_iff]; omega
    · have hm : d.month = 12 := by omega
      split
      · simp only [reduceCtorEq, false_iff]; omega
      · simp only [hm, monthLength] at *
        simp only [true_iff]
        refine ⟨by omega, trivial, by simp at *; omega⟩

/-! ## Order -/

instance : LT Date := ⟨fun d e => d.number < e.number⟩
instance : LE Date := ⟨fun d e => d.number ≤ e.number⟩
instance (d e : Date) : Decidable (d < e) := inferInstanceAs (Decidable (d.number < e.number))
instance (d e : Date) : Decidable (d ≤ e) := inferInstanceAs (Decidable (d.number ≤ e.number))

theorem lt_iff (d e : Date) : d < e ↔ d.number < e.number := Iff.rfl

theorem le_iff (d e : Date) : d ≤ e ↔ d.number ≤ e.number := Iff.rfl

/-! ## Days of the week to come -/

/-- How many days after `d` the next `w` comes: at least one, at most seven. -/
def daysUntil (d : Date) (w : Weekday) : Nat :=
  let days := (w.index + 7 - d.weekday.index) % 7
  if days = 0 then 7 else days

/-- The first date after `d` that falls on `w` (`next_weekday`). -/
def following (d : Date) (w : Weekday) : Option Date := d.addDays (d.daysUntil w)

end Date
end TaskDesk
