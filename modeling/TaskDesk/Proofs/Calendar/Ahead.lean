import Mathlib.Order.Bounds.Basic
import TaskDesk.Draft.DatePhrase
import TaskDesk.Proofs.Calendar.Order

/-!
# Dates ahead

Days have numbers, and numbers go on behind the last date of the calendar. So a day that is
some way ahead can be named by its number whether it is a date or not, and so can its day of
the week. Going ahead from a date gives the date of the day that is meant, as long as the
calendar goes that far.

Results:
* `lands_addDays`: when a day ahead has a date.
* `eq_daysUntil_iff`: the only one of the next seven days that falls on a day of the week.
* `RelativeDate.means_daysFrom`: the day that a relative date means.
-/

namespace TaskDesk

namespace Weekday

theorem index_injective : Function.Injective index := by
  intro v w h
  cases v <;> cases w <;> first | rfl | cases h

theorem index_saturday : saturday.index = 5 := rfl

theorem index_sunday : sunday.index = 6 := rfl

/-- The day of the week of the day with a number, also behind the last date. -/
def ofNumber (n : Nat) : Weekday := ofIndex (n + 6)

theorem ofNumber_eq_iff {n : Nat} {w : Weekday} : ofNumber n = w ↔ (n + 6) % 7 = w.index := by
  rw [← index_injective.eq_iff, ofNumber, index_ofIndex]

end Weekday

namespace Date

theorem index_weekday (d : Date) : d.weekday.index = (d.number + 6) % 7 :=
  Weekday.index_ofIndex _

/-! ## The end of the calendar -/

/-- The last date of the calendar. -/
def last : Date := (ofParts? 9999 12 31).get (by decide)

theorem number_pos (d : Date) : 0 < d.number := Nat.add_pos_right _ d.day_pos

theorem number_le_last (d : Date) : d.number ≤ last.number := by
  rcases d.year_le.lt_or_eq with hyear | hyear
  · exact (lt_of_year_lt (e := last) hyear).le
  rcases d.month_le.lt_or_eq with hmonth | hmonth
  · exact (lt_of_month_lt (e := last) hyear hmonth).le
  have hday := d.day_le
  rw [hmonth] at hday
  rcases hday.lt_or_eq with hday | hday
  · exact (lt_of_day_lt (e := last) hyear hmonth hday).le
  · exact (congrArg number (eq_of_parts (e := last) hyear hmonth hday)).le

theorem eq_last_of_next {d : Date} (h : d.next = none) : d = last := by
  obtain ⟨hyear, hmonth, hday⟩ := (next_eq_none_iff d).1 h
  exact eq_of_parts hyear hmonth hday

/-- Going ahead fails just where it leads behind the last date. -/
theorem addDays_eq_none_iff {d : Date} {n : Nat} :
    d.addDays n = none ↔ last.number < d.number + n := by
  constructor
  · intro h
    -- The first step that fails is one from the last date.
    induction n with
    | zero => cases h
    | succ n ih =>
      rw [addDays] at h
      cases hd : d.addDays n with
      | none =>
        have hbehind := ih hd
        omega
      | some e =>
        rw [hd, Option.bind_some] at h
        have hnumber := number_addDays hd
        rw [eq_last_of_next h] at hnumber
        omega
  · intro h
    cases hd : d.addDays n with
    | none => rfl
    | some e =>
      have hle := number_le_last e
      rw [number_addDays hd] at hle
      omega

/-! ## Days that are meant -/

/-- What is given is the date of the day with the number, or nothing if that day lies behind
    the last date. -/
structure Lands (given : Option Date) (n : Nat) : Prop where
  date : n ≤ last.number → ∃ d, given = some d ∧ d.number = n
  beyond : last.number < n → given = none

theorem lands_addDays (d : Date) (n : Nat) : Lands (d.addDays n) (d.number + n) where
  date h := by
    cases hd : d.addDays n with
    | none => exact absurd (addDays_eq_none_iff.1 hd) (Nat.not_lt.2 h)
    | some e => exact ⟨e, rfl, number_addDays hd⟩
  beyond := addDays_eq_none_iff.2

/-- Of the seven days after a date, one falls on a given day of the week. -/
theorem eq_daysUntil_iff (d : Date) (w : Weekday) {n : Nat} :
    (d.number < n ∧ n ≤ d.number + 7 ∧ Weekday.ofNumber n = w) ↔ n = d.number + d.daysUntil w := by
  have hw := w.index_lt
  rw [Weekday.ofNumber_eq_iff, daysUntil, index_weekday]
  constructor
  · rintro ⟨hlt, hle, hn⟩
    split <;> omega
  · rintro rfl
    split <;> omega

/-- The first day after a date that falls on a given day of the week. -/
theorem isLeast_daysUntil (d : Date) (w : Weekday) :
    IsLeast {n | d.number < n ∧ Weekday.ofNumber n = w} (d.number + d.daysUntil w) := by
  obtain ⟨hlt, hle, hw⟩ := (d.eq_daysUntil_iff w).2 rfl
  refine ⟨⟨hlt, hw⟩, fun n hn => ?_⟩
  by_contra hless
  have hsame := (d.eq_daysUntil_iff w).1 ⟨hn.1, by omega, hn.2⟩
  omega

/-- A Sunday is not the first date, so the day before it is a date. -/
theorem exists_day_before {d : Date} (h : d.weekday = .sunday) :
    ∃ e : Date, e.number + 1 = d.number := by
  have hindex := d.index_weekday
  rw [h, Weekday.index_sunday] at hindex
  have hpos := d.number_pos
  -- The first date is a Monday, so a Sunday is reached from it.
  let first : Date := { year := 1, month := 1, day := 1 }
  have hfirst : first.number = 1 := by decide
  have hlast := number_le_last d
  obtain ⟨e, -, he⟩ := (first.lands_addDays (d.number - 2)).date (by omega)
  exact ⟨e, by omega⟩

end Date

namespace RelativeDate

open Weekday

/-- The first Saturday or Sunday from a date on. -/
def IsWeekend (today : Date) (n : Nat) : Prop :=
  IsLeast {m | today.number ≤ m ∧ (ofNumber m = saturday ∨ ofNumber m = sunday)} n

/-- The day that a relative date means. The next weekend is the first Saturday after the day
    of this weekend. -/
def Means (today : Date) (n : Nat) : RelativeDate → Prop
  | .today => n = today.number
  | tomorrow => n = today.number + 1
  | nextWeek => n = today.number + 7
  | thisWeekend => IsWeekend today n
  | nextWeekend =>
    ∃ weekend, IsWeekend today weekend ∧ IsLeast {m | weekend < m ∧ ofNumber m = saturday} n

theorem isWeekend_daysFrom (today : Date) :
    IsWeekend today (today.number + thisWeekend.daysFrom today.weekday) := by
  have hindex := today.index_weekday
  simp only [IsWeekend, ofNumber_eq_iff, daysFrom, index_saturday, index_sunday]
  refine ⟨⟨by omega, by omega⟩, fun n ⟨hle, hday⟩ => ?_⟩
  omega

theorem isLeast_saturday (today : Date) :
    IsLeast {m | today.number + thisWeekend.daysFrom today.weekday < m ∧ ofNumber m = saturday}
      (today.number + nextWeekend.daysFrom today.weekday) := by
  have hindex := today.index_weekday
  simp only [ofNumber_eq_iff, daysFrom, index_saturday]
  refine ⟨⟨by omega, by omega⟩, fun n ⟨hlt, hday⟩ => ?_⟩
  omega

theorem means_daysFrom (today : Date) (r : RelativeDate) :
    r.Means today (today.number + r.daysFrom today.weekday) := by
  cases r with
  | today => exact rfl
  | tomorrow => exact rfl
  | nextWeek => exact rfl
  | thisWeekend => exact isWeekend_daysFrom today
  | nextWeekend => exact ⟨_, isWeekend_daysFrom today, isLeast_saturday today⟩

theorem lands_resolve (today : Date) (r : RelativeDate) :
    Date.Lands (r.resolve today) (today.number + r.daysFrom today.weekday) :=
  today.lands_addDays _

theorem daysFrom_le (r : RelativeDate) (w : Weekday) : r.daysFrom w ≤ 12 := by
  cases r <;> cases w <;> decide

end RelativeDate
end TaskDesk
