import TaskDesk.Proofs.Calendar.Order
import TaskDesk.Proofs.Draft.Stages
import TaskDesk.Proofs.Json.Sendable
import TaskDesk.Proofs.Text.Tidy
import TaskDesk.Service.Reply

/-!
# Readings that can be sent

All that a reading holds besides the title is written by the service: dates, names
of priorities and fixed words, which can be written in UTF-8. The minutes of a time
are taken from the text, but they are digits. So only the title decides whether a
reading can be sent.

Results:
* `extractTime_isWritable`: the time that is found in a text can be written.
* `Reading.isSendable_of_ofText`: a reading with an encodable title can be sent.
-/

namespace TaskDesk

theorem isEncodable_of_forall_isDigit {t : Text} (h : ∀ c ∈ t, isDigit c = true) :
    t.isEncodable = true := by
  refine List.all_eq_true.2 fun c hc => ?_
  cases c with
  | char c => rfl
  | half n => exact absurd (h _ hc) (by simp [isDigit, digitValue?])

theorem Text.isEncodable_digits (width n : Nat) : (Text.digits width n).isEncodable = true :=
  List.all_eq_true.2 (Text.forall_mem_digits (by decide) width n)

theorem Date.isEncodable_toIso (d : Date) : d.toIso.isEncodable = true :=
  List.all_eq_true.2 (forall_mem_toIso (by decide) (by decide) d)

theorem Priority.isEncodable_name (p : Priority) : p.name.isEncodable = true := by
  cases p <;> decide

/-! ## Times -/

namespace Clock

/-- The time can be written in UTF-8. -/
def IsWritable (c : Clock) : Prop := c.minutes.isEncodable = true

theorem IsWritable.toText {c : Clock} (h : c.IsWritable) : c.toText.isEncodable = true := by
  have hhour := Text.isEncodable_digits 2 c.hour
  have hcolon : Text.isEncodable ":".toText = true := by decide
  rw [Clock.toText, Text.isEncodable_append, Text.isEncodable_append, hhour, hcolon, h]
  rfl

end Clock

/-- The minutes that are read are digits of the text, or two zeros. -/
theorem ClockPhrase.read?_isWritable {assumed : Option Period} {piece : Text} {c : Clock}
    (h : read? assumed piece = some c) : c.IsWritable := by
  unfold read? at h
  rw [Clock.ofParts?_eq_some_iff] at h
  rw [Clock.IsWritable, h.2]
  split
  · exact isEncodable_of_forall_isDigit fun c hc => List.mem_takeWhile_imp hc
  · exact Text.isEncodable_toText "00"

theorem NamedTime.read?_isWritable {name : Text} {c : Clock} (h : read? name = some c) :
    c.IsWritable := by
  have htable : ∀ entry ∈ table, entry.2.minutes.isEncodable = true := by decide
  obtain ⟨before, after, hsplit, -⟩ := List.lookup_eq_some_iff.1 h
  exact htable _ (hsplit ▸ List.mem_append_right before List.mem_cons_self)

theorem extractTime_isWritable {t : Text} {found : Found Clock}
    (h : extractTime t = .ok (some found)) : found.value.IsWritable := by
  rcases extractTime_cases h with ⟨kind, -, o, -, hread, -⟩ | ⟨o, -, hread, -⟩
  · exact ClockPhrase.read?_isWritable hread
  · exact NamedTime.read?_isWritable hread

/-! ## Readings -/

theorem Note.isEncodable_toText {n : Note} (h : ∀ c, n = .time c → c.IsWritable) :
    n.toText.isEncodable = true := by
  cases n with
  | due d => rw [toText, Text.isEncodable_append, Text.isEncodable_toText, d.isEncodable_toIso]; rfl
  | time c => rw [toText, Text.isEncodable_append, Text.isEncodable_toText, (h c rfl).toText]; rfl
  | priority p =>
    rw [toText, Text.isEncodable_append, Text.isEncodable_toText, p.isEncodable_name]
    rfl
  | reminder => exact Text.isEncodable_toText _

namespace Reading

/-- What a reading consists of: a tidy title, a time that can be written, no tags, and notes
    on what is in the draft. -/
theorem parts_of_ofText {today : Date} {t : Text} {r : Reading} (h : ofText today t = .ok r) :
    (∃ u, r.draft.title = Text.tidy u) ∧ (∀ c ∈ r.draft.time, c.IsWritable) ∧
      r.draft.tags = none ∧ ∀ c, .time c ∈ r.notes → r.draft.time = some c := by
  obtain ⟨date, -, clock, hclock, rfl⟩ := ofText_eq_ok.1 h
  refine ⟨⟨_, rfl⟩, fun c hc => ?_, rfl, fun c hc => ?_⟩
  · obtain ⟨found, hfound, rfl⟩ := Option.map_eq_some_iff.1 hc
    unfold timeWith at hclock
    split at hclock
    · exact extractTime_isWritable (hclock.trans (congrArg _ hfound))
    · cases hclock.trans (congrArg _ hfound)
  · simpa [complete] using hc

/-- **Readings can be sent** if their titles can be encoded. -/
theorem isSendable_of_ofText {today : Date} {t : Text} {r : Reading} (h : ofText today t = .ok r)
    (htitle : r.draft.title.isEncodable = true) : (Contents.reading r).isSendable = true := by
  obtain ⟨-, htime, htags, hnotes⟩ := parts_of_ofText h
  have hdue : ∀ u ∈ r.draft.due.map (·.toIso), u.isEncodable = true := by
    intro u hu
    obtain ⟨d, -, rfl⟩ := Option.map_eq_some_iff.1 hu
    exact d.isEncodable_toIso
  have hclock : ∀ u ∈ r.draft.time.map (·.toText), u.isEncodable = true := by
    intro u hu
    obtain ⟨c, hc, rfl⟩ := Option.map_eq_some_iff.1 hu
    exact (htime c hc).toText
  have hpriority : ∀ u ∈ r.draft.priority.map (·.name), u.isEncodable = true := by
    intro u hu
    obtain ⟨p, -, rfl⟩ := Option.map_eq_some_iff.1 hu
    exact p.isEncodable_name
  have hwords : ∀ u ∈ r.notes.map (·.toText), u.isEncodable = true := by
    rw [List.forall_mem_map]
    intro n hn
    exact Note.isEncodable_toText fun c hc => htime c (hnotes c (hc ▸ hn))
  have hdraft : r.draft.toJson.isSendable = true := by
    apply Json.isSendable_record
    simp [Json.isSendable_text, Json.isSendable_bool, Json.isSendable_null,
      Json.isSendable_ofText? hdue, Json.isSendable_ofText? hclock,
      Json.isSendable_ofText? hpriority, htitle, htags]
  apply Json.isSendable_record
  simp [hdraft, Json.isSendable_ofTexts hwords]

end Reading
end TaskDesk
