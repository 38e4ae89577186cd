import TaskDesk.Proofs.Draft.DateAhead
import TaskDesk.Proofs.Draft.Stages

/-!
# Readings on different days

The day on which a text is read tells which date is meant. What is found and cut out depends
on the day in one case only: numbers without a year are a date of the year of that day, and the
29th of February is a date in leap years alone. If these numbers are no date, numbers with
dashes are looked for, and whatever comes after works on another text. So on two days of years
that are both leap years, or both are not, a text has the same reading but for its date.

Results:
* `NumericDate.residual_find?`: numbers are a date on both days or on neither.
* `residual_extractDate`: the same is left of the text on both days.
* `Reading.alike_of_isLeap`: the reading is the same but for the date.
-/

namespace TaskDesk

variable {today today' : Date}

/-! ## Numbers without a year -/

theorem monthLength_of_isLeap {year year' : Nat} (h : isLeap year = isLeap year') (month : Nat) :
    monthLength year month = monthLength year' month := by
  rw [monthLength, monthLength, h]

/-- A month and a day are a date in the years of both days or of neither. -/
theorem Date.isSome_ofParts?_year (h : isLeap today.year = isLeap today'.year) (month day : Nat) :
    (ofParts? today.year month day).isSome = (ofParts? today'.year month day).isSome := by
  have hlength := monthLength_of_isLeap h month
  have hrange := today.year_pos
  have hrange' := today'.year_pos
  have hlast := today.year_le
  have hlast' := today'.year_le
  simp only [ofParts?, hlength]
  by_cases hparts : 1 ≤ month ∧ month ≤ 12 ∧ 1 ≤ day ∧ day ≤ monthLength today'.year month
  · rw [dif_pos ⟨hrange, hlast, hparts⟩, dif_pos ⟨hrange', hlast', hparts⟩]
    rfl
  · rw [dif_neg fun h => hparts h.2.2, dif_neg fun h => hparts h.2.2]

namespace NumericDate

theorem isSome_read? (h : isLeap today.year = isLeap today'.year) (sep : CodePoint)
    (piece : Text) : (read? today.year sep piece).isSome = (read? today'.year sep piece).isSome := by
  unfold read?
  split
  · exact Date.isSome_ofParts?_year h _ _
  · rfl
  · rfl

/-- The first numbers of a kind are a date on both days or on neither. -/
theorem residual_find? (h : isLeap today.year = isLeap today'.year) (t : Text) (sep : CodePoint) :
    (find? today.year t sep).map (·.residual) = (find? today'.year t sep).map (·.residual) := by
  simp only [find?, Option.bind_eq_bind]
  cases (phrase sep).find? t with
  | none => rfl
  | some o =>
    have hread := isSome_read? h sep o.piece
    rw [Option.bind_some, Option.bind_some]
    cases hcase : read? today.year sep o.piece with
    | none =>
      rw [hcase, Option.isSome_none, eq_comm, Option.isSome_eq_false_iff,
        Option.isNone_iff_eq_none] at hread
      rw [hread]
    | some date =>
      rw [hcase, Option.isSome_some, eq_comm, Option.isSome_iff_exists] at hread
      obtain ⟨date', hdate'⟩ := hread
      rw [hdate']
      rfl

end NumericDate

/-- **The same is left of the text** on both days. -/
theorem residual_extractDate (h : isLeap today.year = isLeap today'.year) {t : Text}
    {date date' : Option (Found Date)} (hdate : extractDate today t = .ok date)
    (hdate' : extractDate today' t = .ok date') :
    date.map (·.residual) = date'.map (·.residual) := by
  have hwords {d : Option Date} {o : Phrase.Occurrence} {found : Option (Found Date)}
      (hfound : foundDate d o = .ok found) : found.map (·.residual) = some o.residual := by
    cases d with
    | none => cases hfound
    | some d =>
      cases hfound
      rfl
  rw [extractDate_eq] at hdate hdate'
  split at hdate
  · rename_i d o hfind
    rw [hfind] at hdate'
    rw [hwords hdate, hwords hdate']
  · rename_i hfind
    rw [hfind] at hdate'
    cases hdate
    cases hdate'
    rw [List.map_findSome?, List.map_findSome?]
    congr 1
    funext sep
    exact NumericDate.residual_find? h t sep

/-! ## Readings -/

/-- Two notes are the same, or each of them tells a date. -/
inductive Note.Alike : Note → Note → Prop where
  | due (date date' : Date) : Alike (.due date) (.due date')
  | same (n : Note) : Alike n n

namespace Reading

/-- Two readings are the same but for the date. -/
structure Alike (r r' : Reading) : Prop where
  title : r.draft.title = r'.draft.title
  hasTime : r.draft.hasTime = r'.draft.hasTime
  time : r.draft.time = r'.draft.time
  priority : r.draft.priority = r'.draft.priority
  tags : r.draft.tags = r'.draft.tags
  due : r.draft.due.isSome = r'.draft.due.isSome
  notes : List.Forall₂ Note.Alike r.notes r'.notes

/-- Of the date, all that comes after it only asks whether there is one. -/
theorem alike_complete {due due' : Option Date} (h : due.isSome = due'.isSome)
    (time : Option Clock) (t : Text) : (complete due time t).Alike (complete due' time t) where
  title := rfl
  hasTime := rfl
  time := rfl
  priority := rfl
  tags := rfl
  due := h
  notes := by
    have hsame (notes : List Note) : List.Forall₂ Note.Alike notes notes :=
      List.forall₂_same.2 fun n _ => .same n
    have hdue : List.Forall₂ Note.Alike (due.map Note.due).toList (due'.map Note.due).toList := by
      cases due <;> cases due'
      · exact .nil
      · cases h
      · cases h
      · exact .cons (.due _ _) .nil
    simp only [complete, List.append_assoc]
    exact List.rel_append hdue (hsame _)

theorem timeWith_congr {due due' : Option Date} (h : due.isSome = due'.isSome) (t : Text) :
    timeWith due t = timeWith due' t := by
  rw [timeWith, timeWith, h]

/-- **Readings on different days.** On two days of years that are both leap years, or both are
    not, the readings of a text are the same but for the date. -/
theorem alike_of_isLeap (hleap : isLeap today.year = isLeap today'.year) {t : Text}
    {r r' : Reading} (h : ofText today t = .ok r) (h' : ofText today' t = .ok r') :
    r.Alike r' := by
  obtain ⟨date, hdate, clock, hclock, rfl⟩ := ofText_eq_ok.1 h
  obtain ⟨date', hdate', clock', hclock', rfl⟩ := ofText_eq_ok.1 h'
  have hresidual := residual_extractDate hleap hdate hdate'
  have hrest : rest date (Text.trim t) = rest date' (Text.trim t) := by
    rw [rest, rest, hresidual]
  have hsome : (date.map (·.value)).isSome = (date'.map (·.value)).isSome := by
    have hcut := congrArg Option.isSome hresidual
    simpa only [Option.isSome_map] using hcut
  rw [hrest, timeWith_congr hsome, hclock'] at hclock
  cases hclock
  rw [hrest]
  exact alike_complete hsome _ _

/-- A day that February has in both years, written without the year, and what comes after. -/
theorem alike_of_isLeap_february :
    let today : Date := { year := 2024, month := 1, day := 15 }
    let today' : Date := { year := 2000, month := 12, day := 31 }
    let text := "remind me to pay rent 2/29 3-1 at 12:30 pm urgent".toText
    let reading (due : Date) : Reading :=
      let half : Clock := ⟨12, "30".toText, by decide, by decide +kernel⟩
      { draft := {
          title := "pay rent 3-1".toText, due := some due, hasTime := true, time := some half
          priority := some .high }
        notes := [.due due, .time half, .priority .high, .reminder] }
    let leap : Date := { year := 2024, month := 2, day := 29 }
    let leap' : Date := { year := 2000, month := 2, day := 29 }
    isLeap today.year = isLeap today'.year ∧ ofText today text = .ok (reading leap) ∧
      ofText today' text = .ok (reading leap') ∧ (reading leap).Alike (reading leap') := by
  intro today today' text reading leap leap'
  have h : ofText today text = .ok (reading leap) := by decide +kernel
  have h' : ofText today' text = .ok (reading leap') := by decide +kernel
  exact ⟨by decide, h, h', alike_of_isLeap (by decide) h h'⟩

end Reading
end TaskDesk
