import TaskDesk.Text.Case
import TaskDesk.Text.Digit

/-!
# Times of day

A time of day has an hour from 0 to 23 and two digits of minutes from 0 to 59.
The minutes are kept as they were written, in the digits of any script.

Results:
* `ofParts?_eq_some_iff`: the time with given parts.
-/

namespace TaskDesk

/-- The halves of the day on the 12-hour clock. -/
inductive Period where
  | am | pm
deriving DecidableEq, Repr

namespace Period

/-- The half of the day that a text names, in any case. -/
def ofText? (t : Text) : Option Period :=
  let name := Text.lower t
  if name = "am".toText then some am
  else if name = "pm".toText then some pm
  else none

/-- The hour of the day for an hour on the 12-hour clock, where 12 comes before 1
    (`convert_to_24_hour`). Without a half of the day the hour stays as it is. -/
def hour24 (period : Option Period) (hour : Int) : Int :=
  match period with
  | some pm => if hour = 12 then hour else hour + 12
  | some am => if hour = 12 then 0 else hour
  | none => hour

end Period

/-- A time of day, with the minutes as they are written. -/
structure Clock where
  hour : Nat
  minutes : Text
  hour_le : hour ≤ 23
  minutes_le : Text.number minutes ≤ 59
deriving DecidableEq, Repr

namespace Clock

/-- The time with the given hour and minutes, if there is one (`_clock`). -/
def ofParts? (hour : Int) (minutes : Text) : Option Clock :=
  if h : (0 ≤ hour ∧ hour ≤ 23) ∧ Text.number minutes ≤ 59 then
    some ⟨hour.toNat, minutes, by omega, h.2⟩
  else none

theorem ofParts?_eq_some_iff {hour : Int} {minutes : Text} {c : Clock} :
    ofParts? hour minutes = some c ↔ (c.hour : Int) = hour ∧ c.minutes = minutes := by
  unfold ofParts?
  constructor
  · split
    · rename_i h
      intro heq
      cases heq
      exact ⟨Int.toNat_of_nonneg h.1.1, rfl⟩
    · exact nofun
  · rintro ⟨rfl, rfl⟩
    rw [dif_pos ⟨⟨Int.natCast_nonneg _, Int.ofNat_le.2 c.hour_le⟩, c.minutes_le⟩]
    rfl

/-- The time as `HH:MM`. -/
def toText (c : Clock) : Text := Text.digits 2 c.hour ++ ":".toText ++ c.minutes

end Clock
end TaskDesk
