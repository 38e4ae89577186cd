import TaskDesk.Draft.Basic

/-!
# The stages of a reading

A date is looked for first, and where there is one a time is looked for in the text that is
left. Only these two stages can fail, and what comes after them does not ask how they came by
the date and the time: a priority and an opener are looked for in what is then left.

Results:
* `extractTime_cases`: where a time comes from.
* `ofText_of_date`: a reading, from the stage of the time on.
* `ofText_eq_ok`: the stages of a reading that does not fail.
-/

namespace TaskDesk

/-- A time comes from the first occurrence of a phrase for clock times, or from the first name
    of a time. -/
theorem extractTime_cases {t : Text} {f : Found Clock} (h : extractTime t = .ok (some f)) :
    (∃ kind ∈ ClockPhrase.kinds, ∃ o, kind.1.find? t = some o ∧
      ClockPhrase.read? kind.2 o.piece = some f.value ∧ f.residual = o.residual) ∨
    ∃ o, NamedTime.phrase.find? t = some o ∧
      NamedTime.read? (NamedTime.nameIn o.piece) = some f.value ∧ f.residual = o.residual := by
  unfold extractTime at h
  split at h
  · rename_i found hfind
    cases h
    obtain ⟨kind, hkind, hclock⟩ := List.exists_of_findSome?_eq_some hfind
    simp only [ClockPhrase.find?, Option.bind_eq_bind, Option.bind_eq_some_iff] at hclock
    obtain ⟨o, ho, time, htime, heq⟩ := hclock
    cases heq
    exact .inl ⟨kind, hkind, o, ho, htime, rfl⟩
  · split at h
    · cases h
    · rename_i o ho
      simp only at h
      split at h
      · rename_i time htime
        cases h
        exact .inr ⟨o, ho, htime, rfl⟩
      · cases h

namespace Reading

/-- The reading that has the given date and time, where the text is what they have left. -/
def complete (due : Option Date) (time : Option Clock) (t : Text) : Reading :=
  let urgency := extractPriority t
  let t := rest urgency t
  let priority := urgency.map (·.value)
  let opener := withoutOpener? t
  { draft := { title := Text.tidy (opener.getD t), due, hasTime := time.isSome, time, priority }
    notes := (due.map Note.due).toList ++ (time.map Note.time).toList ++
      (priority.map Note.priority).toList ++ (opener.map fun _ => Note.reminder).toList }

variable {today : Date} {t : Text} {r : Reading} {date : Option (Found Date)}

/-- A reading, from the stage of the time on. -/
theorem ofText_of_date (h : extractDate today (Text.trim t) = .ok date) :
    ofText today t =
      (timeWith (date.map (·.value)) (rest date (Text.trim t))).map fun clock =>
        complete (date.map (·.value)) (clock.map (·.value)) (rest clock (rest date (Text.trim t))) := by
  simp only [ofText, h, bind, Except.bind, pure, Except.pure]
  cases timeWith (date.map (·.value)) (rest date (Text.trim t)) <;> rfl

theorem ofText_of_fault {fault : ParseFault} (h : extractDate today (Text.trim t) = .error fault) :
    ofText today t = .error fault := by
  simp only [ofText, h, bind, Except.bind]

/-- **The stages of a reading** that does not fail. -/
theorem ofText_eq_ok :
    ofText today t = .ok r ↔
      ∃ date, extractDate today (Text.trim t) = .ok date ∧
        ∃ clock, timeWith (date.map (·.value)) (rest date (Text.trim t)) = .ok clock ∧
          r = complete (date.map (·.value)) (clock.map (·.value))
            (rest clock (rest date (Text.trim t))) := by
  cases hdate : extractDate today (Text.trim t) with
  | error fault => simp [ofText_of_fault hdate]
  | ok date =>
    rw [ofText_of_date hdate]
    cases hclock : timeWith (date.map (·.value)) (rest date (Text.trim t)) with
    | error fault => simp [hclock, Except.map]
    | ok clock => simp [hclock, Except.map, eq_comm]

end Reading
end TaskDesk
