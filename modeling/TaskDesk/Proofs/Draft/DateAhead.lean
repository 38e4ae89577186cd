import TaskDesk.Proofs.Calendar.Ahead
import TaskDesk.Proofs.Draft.DateWord

/-!
# Dates written with words lie ahead

A relative date or the name of a weekday means a day from today on, at most twelve days
ahead. Which day that is follows from the words alone; a text in which they occur gives the
date of that day, and no date only where the calendar ends before it.

Results:
* `DateWord.means_daysFrom`: the day that is meant, by the number of days to it.
* `extractDate_of_isFirstIn`, `extractDate_of_no_words`: what a text gives in which such an
  expression occurs, or none.
* `dates_ahead`: which days are meant, and when they have a date.
-/

namespace TaskDesk

open Phrase

namespace DateWord

/-! ## The day that is meant -/

/-- The day that is meant: for a weekday, the first day after today that falls on it. -/
def Means (today : Date) (n : Nat) : DateWord → Prop
  | relative r => r.Means today n
  | weekday w => IsLeast {m | today.number < m ∧ Weekday.ofNumber m = w} n

/-- How many days ahead that day lies. -/
def daysFrom (today : Date) : DateWord → Nat
  | relative r => r.daysFrom today.weekday
  | weekday w => today.daysUntil w

variable {d : DateWord} {today : Date}

theorem means_daysFrom (d : DateWord) (today : Date) :
    d.Means today (today.number + d.daysFrom today) := by
  cases d with
  | relative r => exact r.means_daysFrom today
  | weekday w => exact today.isLeast_daysUntil w

theorem daysFrom_le (d : DateWord) (today : Date) : d.daysFrom today ≤ 12 := by
  cases d with
  | relative r => exact r.daysFrom_le _
  | weekday w =>
    have hweek := ((today.eq_daysUntil_iff w).2 rfl).2.1
    rw [daysFrom]
    omega

theorem lands_resolve (d : DateWord) (today : Date) :
    Date.Lands (d.resolve today) (today.number + d.daysFrom today) := by
  cases d with
  | relative r => exact r.lands_resolve today
  | weekday w => exact today.lands_addDays _

/-- If the calendar goes on for 13 days, every date that is written with words is in it. -/
theorem isSome_resolve (d : DateWord) {today : Date} (h : (today.addDays 13).isSome = true) :
    (d.resolve today).isSome = true := by
  have hroom : today.number + 13 ≤ Date.last.number := by
    by_contra hbeyond
    rw [Date.addDays_eq_none_iff.2 (Nat.not_le.1 hbeyond)] at h
    cases h
  have hdays := d.daysFrom_le today
  obtain ⟨date, hdate, -⟩ := (d.lands_resolve today).date (by omega)
  rw [hdate]
  rfl

/-! ## Texts -/

/-- The expression occurs in the text, and none that is looked for earlier does. -/
def IsFirstIn (d : DateWord) (t : Text) : Prop :=
  d.phrase.occursIn t = true ∧ ∃ earlier later, all = earlier ++ d :: later ∧
    ∀ e ∈ earlier, e.phrase.occursIn t = false

theorem exists_isFirstIn {t : Text} (h : d.phrase.occursIn t = true) :
    ∃ first : DateWord, first.IsFirstIn t := by
  have hsome : (all.find? fun d => d.phrase.occursIn t).isSome = true :=
    List.find?_isSome.2 ⟨d, d.mem_all, h⟩
  obtain ⟨first, hfirst⟩ := Option.isSome_iff_exists.1 hsome
  obtain ⟨hoccurs, earlier, later, hall, hearlier⟩ := List.find?_eq_some_iff_append.1 hfirst
  exact ⟨first, hoccurs, earlier, later, hall, fun e he => by simpa using hearlier e he⟩

end DateWord

variable {d : DateWord} {t : Text}

/-- The expression that is looked for first is the one that counts. -/
theorem extractDate_of_isFirstIn (h : d.IsFirstIn t) (today : Date) :
    ∃ o, extractDate today t = foundDate (d.resolve today) o := by
  obtain ⟨hoccurs, earlier, later, hall, hearlier⟩ := h
  obtain ⟨o, ho⟩ := Option.isSome_iff_exists.1 hoccurs
  have hfound : (DateWord.all.findSome? fun d => (d.phrase.find? t).map fun o => (d, o)) =
      some (d, o) := by
    refine List.findSome?_eq_some_iff.2 ⟨earlier, d, later, hall, by rw [ho]; rfl, fun e he => ?_⟩
    have hnone := hearlier e he
    rw [occursIn, Option.isSome_eq_false_iff, Option.isNone_iff_eq_none] at hnone
    rw [hnone]
    rfl
  refine ⟨o, ?_⟩
  rw [extractDate_eq, hfound]

/-- Without a date in words, dates in numbers are looked for. -/
theorem extractDate_of_no_words {today : Date}
    (hwords : ∀ d : DateWord, d.phrase.occursIn t = false) :
    extractDate today t =
      .ok (NumericDate.separators.findSome? (NumericDate.find? today.year t)) := by
  rw [extractDate_eq, List.findSome?_eq_none_iff.2 fun d _ => ?_]
  rw [Option.map_eq_none_iff, ← Option.isNone_iff_eq_none, ← Option.isSome_eq_false_iff]
  exact hwords d

/-- Where a date is written with words, the text gives a date of the calendar or fails. -/
theorem extractDate_of_lands {today : Date} {o : Occurrence} {n : Nat}
    (h : extractDate today t = foundDate (d.resolve today) o)
    (hlands : Date.Lands (d.resolve today) n) :
    (n ≤ Date.last.number → ∃ f, extractDate today t = .ok (some f) ∧ f.value.number = n) ∧
      (Date.last.number < n → extractDate today t = .error .beyondCalendar) := by
  rw [h]
  constructor
  · intro hle
    obtain ⟨date, hdate, hnumber⟩ := hlands.date hle
    exact ⟨⟨date, o.residual⟩, by rw [hdate]; rfl, hnumber⟩
  · intro hlt
    rw [hlands.beyond hlt]
    rfl

/-- **Days ahead.** One of the next seven days falls on a given day of the week, and it is
    the one that follows; this weekend is the first Saturday or Sunday from today on, and the
    next one the first Saturday after it; and a text in which a date is written with words
    gives the day that is meant, at most twelve days ahead. Nothing is given just where that
    day lies behind the last date. The day before a Sunday is always a date. -/
theorem dates_ahead (today : Date) :
    (∀ day : Int, ∃ n,
      (∀ m, (today.number < m ∧ m ≤ today.number + 7 ∧
        ((Weekday.ofNumber m).index : Int) = day % 7) ↔ m = n) ∧
      Date.Lands (today.following (.ofInt day)) n) ∧
    (∃ weekend next,
      RelativeDate.IsWeekend today weekend ∧
      Date.Lands (RelativeDate.thisWeekend.resolve today) weekend ∧
      IsLeast {m | weekend < m ∧ Weekday.ofNumber m = .saturday} next ∧
      Date.Lands (RelativeDate.nextWeekend.resolve today) next) ∧
    (∀ t, (∃ d : DateWord, d.phrase.occursIn t = true) → ∃ (d : DateWord) (n : Nat),
      d.IsFirstIn t ∧ d.Means today n ∧ today.number ≤ n ∧ n ≤ today.number + 12 ∧
      (n ≤ Date.last.number → ∃ f, extractDate today t = .ok (some f) ∧ f.value.number = n) ∧
      (Date.last.number < n → extractDate today t = .error .beyondCalendar)) ∧
    (today.weekday = .sunday → ∃ saturday : Date, saturday.number + 1 = today.number) := by
  refine ⟨fun day => ?_, ?_, fun t ⟨d, hd⟩ => ?_, today.exists_day_before⟩
  · refine ⟨_, fun m => ?_, today.lands_addDays _⟩
    rw [← today.eq_daysUntil_iff, ← Weekday.index_ofInt, Int.natCast_inj,
      Weekday.index_injective.eq_iff]
  · exact ⟨_, _, RelativeDate.isWeekend_daysFrom today, RelativeDate.lands_resolve today _,
      RelativeDate.isLeast_saturday today, RelativeDate.lands_resolve today _⟩
  · obtain ⟨first, hfirst⟩ := DateWord.exists_isFirstIn hd
    obtain ⟨o, ho⟩ := extractDate_of_isFirstIn hfirst today
    have hdays := first.daysFrom_le today
    exact ⟨first, _, hfirst, first.means_daysFrom today, by omega, by omega,
      extractDate_of_lands ho (first.lands_resolve today)⟩

/-- From a Sunday on there are a Tuesday in the next seven days and a weekend that is meant, and
    a Saturday before it. On the last date there is no tomorrow. -/
theorem dates_ahead_sunday :
    let today : Date := { year := 2025, month := 1, day := 19 }
    let hike := "hike this weekend".toText
    let call := "call mum tomorrow".toText
    (∃ n, (today.number < n ∧ n ≤ today.number + 7 ∧ ((Weekday.ofNumber n).index : Int) = 8 % 7) ∧
      Date.Lands (today.following (.ofInt 8)) n) ∧
    (∃ (d : DateWord) (n : Nat), d.IsFirstIn hike ∧ d.Means today n ∧
      ∃ f, extractDate today hike = .ok (some f) ∧ f.value.number = n) ∧
    (∃ (d : DateWord) (n : Nat), d.IsFirstIn call ∧ d.Means Date.last n ∧
      Date.last.number < n ∧ extractDate Date.last call = .error .beyondCalendar) ∧
    ∃ saturday : Date, saturday.number + 1 = today.number := by
  intro today hike call
  obtain ⟨hdays, -, htexts, hsunday⟩ := dates_ahead today
  obtain ⟨-, -, hbeyond, -⟩ := dates_ahead Date.last
  refine ⟨?_, ?_, ?_, hsunday (by decide +kernel)⟩
  · obtain ⟨n, hunique, hlands⟩ := hdays 8
    exact ⟨n, (hunique n).2 rfl, hlands⟩
  · obtain ⟨d, n, hfirst, hmeans, -, hle, hfound, -⟩ :=
      htexts hike ⟨.relative .thisWeekend, by decide +kernel⟩
    have hroom : today.number + 12 ≤ Date.last.number := by decide +kernel
    exact ⟨d, n, hfirst, hmeans, hfound (hle.trans hroom)⟩
  · obtain ⟨d, n, hfirst, hmeans, -, -, hfound, hnone⟩ :=
      hbeyond call ⟨.relative .tomorrow, by decide +kernel⟩
    have hfails : extractDate Date.last call = .error .beyondCalendar := by decide +kernel
    have hlt : Date.last.number < n := by
      by_contra hle
      obtain ⟨f, hf, -⟩ := hfound (Nat.not_lt.1 hle)
      rw [hfails] at hf
      cases hf
    exact ⟨d, n, hfirst, hmeans, hlt, hnone hlt⟩

end TaskDesk
