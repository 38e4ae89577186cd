import TaskDesk.Proofs.Draft.TimeFree
import TaskDesk.Proofs.Text.Variants

/-!
# The parts of a clock time

A clock time that is found in a text gives an hour, and perhaps minutes and a half of the day.
What stands before the hour and around the half of the day tells nothing. The time that is
read follows from the parts, and there is none where they are out of range.

Results:
* `exists_isWritten`: the parts of what is found.
* `read?_of_isWritten`: the time that is read from the parts.
-/

namespace TaskDesk

open Phrase
open Text (fold)

namespace Period

/-- The name in lower case. -/
def name : Period → Text
  | am => "am".toText
  | pm => "pm".toText

/-- The halves of the day are named in any case. -/
theorem ofText?_of_fold {t : Text} {period : Option Period} (h : fold t = period.elim [] name) :
    ofText? t = period := by
  have hnames : ∀ p : Option Period, ∀ c ∈ p.elim [] name, c.toNat < 128 ∧
      ∀ d ∈ foreignVariants, foldLetter d ≠ c := by
    rintro (_ | _ | _) <;> decide
  have hlower : Text.lower t = period.elim [] name := by
    rw [← h]
    refine Text.lower_eq_fold (fun c hc hforeign => ?_) fun c hc => ?_
    · have hmem : foldLetter c ∈ fold t := List.mem_map_of_mem hc
      exact (hnames period _ (h ▸ hmem)).2 c hforeign rfl
    · exact (hnames period c (h ▸ hc)).1
  rw [ofText?, hlower]
  rcases period with _ | _ | _ <;> decide

end Period

namespace ClockPhrase

/-- The parts of a clock time. -/
structure Parts where
  hour : Text
  minutes : Option Text
  period : Option Period

namespace Parts

/-- The piece gives the parts: the hour behind an opening without digits, the minutes behind a
    colon, and the name of the half of the day, in any case and with blanks around it. -/
def IsWritten (w : Parts) (piece : Text) : Prop :=
  ∃ opening gap name rest,
    piece = opening ++ (w.hour ++ (w.minutes.elim [] (.char ':' :: ·) ++ (gap ++ (name ++ rest)))) ∧
    (∀ c ∈ opening, isDigit c = false) ∧ IsHour w.hour ∧
    (∀ digits ∈ w.minutes, (∀ c ∈ digits, isDigit c = true) ∧ digits.length = 2) ∧
    (∀ c ∈ gap, isBlank c = true) ∧ fold name = w.period.elim [] Period.name ∧
    ∀ c ∈ rest, isBlank c = true

/-- The parts are those of the time. Where no half of the day is given, one can be assumed;
    where no minutes are given, it is the full hour. -/
structure Denotes (w : Parts) (assumed : Option Period) (c : Clock) : Prop where
  hour : (c.hour : Int) = Period.hour24 (w.period.or assumed) (Text.number w.hour)
  minutes : c.minutes = w.minutes.getD "00".toText

end Parts

theorem not_isBlank_of_name {period : Option Period} {name : Text}
    (h : fold name = period.elim [] Period.name) : ∀ c ∈ name, isBlank c = false := by
  have hnames : ∀ p : Period, p.name ∈ ["am".toText, "pm".toText] := by
    rintro (_ | _) <;> decide
  cases period with
  | none =>
    obtain rfl : name = [] := List.map_eq_nil_iff.1 h
    simp
  | some p => exact IsPeriod.not_isBlank (show fold name ∈ _ from h ▸ hnames p)

/-- Neither digits nor colons are in what follows the numbers. -/
theorem plain_of_name {period : Option Period} {gap name rest : Text}
    (hgap : ∀ c ∈ gap, isBlank c = true) (hname : fold name = period.elim [] Period.name)
    (hrest : ∀ c ∈ rest, isBlank c = true) :
    ∀ c ∈ gap ++ (name ++ rest), isDigit c = false ∧ c ≠ .char ':' := by
  have hblank : ∀ c, isBlank c = true → isDigit c = false ∧ c ≠ .char ':' := by
    refine fun c hc => ⟨not_isDigit_of_isBlank hc, ?_⟩
    rintro rfl
    exact absurd hc (by decide)
  have hletters : ∀ p : Option Period, ∀ c ∈ p.elim [] Period.name,
      isDigit c = false ∧ c ≠ foldLetter (.char ':') := by
    rintro (_ | _ | _) <;> decide +kernel
  simp only [List.forall_mem_append]
  refine ⟨fun c hc => hblank c (hgap c hc), fun c hc => ?_, fun c hc => hblank c (hrest c hc)⟩
  have hmem : foldLetter c ∈ fold name := List.mem_map_of_mem hc
  obtain ⟨hdigit, hcolon⟩ := hletters period _ (hname ▸ hmem)
  refine ⟨by rw [← isDigit_foldLetter, hdigit], ?_⟩
  rintro rfl
  exact hcolon rfl

/-- The time that is read from a piece is the one that its parts mean. -/
theorem read?_of_isWritten {w : Parts} {piece : Text} (h : w.IsWritten piece)
    (assumed : Option Period) {c : Clock} : read? assumed piece = some c ↔ w.Denotes assumed c := by
  obtain ⟨opening, gap, name, rest, rfl, hopening, hhour, hminutes, hgap, hname, hrest⟩ := h
  have htail := plain_of_name hgap hname hrest
  have hperiod : Period.ofText? (Text.trim (gap ++ (name ++ rest))) = w.period := by
    rw [Text.trim_between hgap (not_isBlank_of_name hname) hrest, Period.ofText?_of_fold hname]
  -- Of what follows the numbers only the half of the day matters from here on.
  generalize gap ++ (name ++ rest) = tail at htail hperiod
  have hend : tail.head?.any isDigit = false := Text.head?_of_forall fun c hc => (htail c hc).1
  -- The digits of the hour end at the colon, or where the rest begins.
  have hbehind : ((w.minutes.elim [] (.char ':' :: ·)) ++ tail).head?.any isDigit = false := by
    cases w.minutes with
    | none => exact hend
    | some digits => exact (by decide : isDigit ':' = false)
  have hwritten (after : Text) :
      (opening ++ (w.hour ++ after)).dropWhile (fun c => !isDigit c) = w.hour ++ after := by
    refine Text.dropWhile_run (fun c hc => by rw [hopening c hc]; rfl) ?_
    obtain ⟨c, more, hcons⟩ := List.exists_cons_of_ne_nil (List.length_pos_iff.1 hhour.2.1)
    simp [hcons, hhour.1 c (by simp [hcons])]
  have hread : read? assumed
      (opening ++ (w.hour ++ (w.minutes.elim [] (.char ':' :: ·) ++ tail))) =
        Clock.ofParts? (Period.hour24 (w.period.or assumed) (Text.number w.hour))
          (w.minutes.getD "00".toText) := by
    simp only [read?, hwritten, Text.takeWhile_run hhour.1 hbehind,
      Text.dropWhile_run hhour.1 hbehind]
    cases hcase : w.minutes with
    | none =>
      simp only [Option.elim_none, List.nil_append, Option.getD_none]
      split
      · rename_i heq
        exact absurd rfl (htail ':' (by simp)).2
      · rw [hperiod]
    | some digits =>
      have hdigits := (hminutes digits hcase).1
      simp only [Option.elim_some, List.cons_append, Option.getD_some,
        Text.takeWhile_run hdigits hend, Text.dropWhile_run hdigits hend, hperiod]
  rw [hread, Clock.ofParts?_eq_some_iff]
  exact ⟨fun ⟨hhour, hminutes⟩ => ⟨hhour, hminutes⟩, fun hw => ⟨hw.hour, hw.minutes⟩⟩

/-! ## What is found -/

theorem exists_minutes {t : Text} (h : IsMinutes t ∨ t = []) :
    ∃ minutes : Option Text, t = minutes.elim [] (.char ':' :: ·) ∧
      ∀ digits ∈ minutes, (∀ c ∈ digits, isDigit c = true) ∧ digits.length = 2 := by
  rcases h with ⟨digits, rfl, hdigits⟩ | rfl
  · exact ⟨some digits, rfl, by simpa using hdigits⟩
  · exact ⟨none, rfl, by simp⟩

theorem exists_period {t : Text} (h : IsPeriod t ∨ t = []) :
    ∃ period : Option Period, fold t = period.elim [] Period.name := by
  rcases h with h | rfl
  · simp only [IsPeriod, List.mem_cons, List.not_mem_nil, or_false] at h
    rcases h with h | h
    · exact ⟨some .am, h⟩
    · exact ⟨some .pm, h⟩
  · exact ⟨none, rfl⟩

/-- An hour, minutes if they are given, and a half of the day if it is given, behind an opening
    without digits. -/
theorem exists_isWritten_of_append {opening hour minutes gap period rest : Text}
    (hopening : ∀ c ∈ opening, isDigit c = false) (hhour : IsHour hour)
    (hminutes : IsMinutes minutes ∨ minutes = []) (hgap : ∀ c ∈ gap, isBlank c = true)
    (hperiod : IsPeriod period ∨ period = []) (hrest : ∀ c ∈ rest, isBlank c = true) :
    ∃ w : Parts, w.IsWritten (opening ++ (hour ++ (minutes ++ (gap ++ (period ++ rest))))) := by
  obtain ⟨minutes, rfl, hdigits⟩ := exists_minutes hminutes
  obtain ⟨half, hhalf⟩ := exists_period hperiod
  exact ⟨⟨hour, minutes, half⟩, opening, gap, period, rest, rfl, hopening, hhour, hdigits, hgap,
    hhalf, hrest⟩

/-- **The parts of a clock time** that is found. -/
theorem exists_isWritten {kind : Phrase × Option Period} (hkind : kind ∈ kinds) {t : Text}
    {o : Occurrence} (h : kind.1.find? t = some o) : ∃ w : Parts, w.IsWritten o.piece := by
  simp only [kinds, List.mem_cons, List.not_mem_nil, or_false] at hkind
  rcases hkind with rfl | rfl | rfl
  · obtain ⟨_, rest, hpiece, hrest, hstands⟩ := stands_of_afterAt h
    obtain ⟨_, gap, period, rfl, ⟨word, gap', hour, minutes, rfl, hword, hgap', hhour, hminutes⟩,
      hgap, hperiod⟩ := hstands.piece
    have hopening : ∀ c ∈ word ++ gap', isDigit c = false := by
      refine List.forall_mem_append.2
        ⟨fun c hc => ?_, fun c hc => not_isDigit_of_isBlank (hgap'.2 c hc)⟩
      have hmem : foldLetter c ∈ fold word := List.mem_map_of_mem hc
      have hat : ∀ c ∈ "at".toText, isDigit c = false := by decide +kernel
      rw [← isDigit_foldLetter, hat _ (hword ▸ hmem)]
    have hwritten := exists_isWritten_of_append hopening hhour hminutes hgap
      (hperiod.imp_right And.right) hrest
    rw [hpiece]
    simpa using hwritten
  · obtain ⟨hour, minutes, gap, period, hpiece, hhour, hminutes, hgap, hperiod⟩ :=
      (readsWords_twelveHour.stands_of_find? h).1.piece
    have hwritten : ∃ w : Parts,
        w.IsWritten ([] ++ (hour ++ (minutes ++ (gap ++ (period ++ []))))) :=
      exists_isWritten_of_append (by simp) hhour hminutes hgap (.inl hperiod) (by simp)
    rw [hpiece]
    simpa using hwritten
  · obtain ⟨hour, minutes, hpiece, hhour, hminutes⟩ :=
      (readsWords_hourMinutes.stands_of_find? h).1.piece
    have hwritten : ∃ w : Parts, w.IsWritten ([] ++ (hour ++ (minutes ++ ([] ++ ([] ++ []))))) :=
      exists_isWritten_of_append (by simp) hhour (.inl hminutes) (by simp) (.inr rfl) (by simp)
    rw [hpiece]
    simpa using hwritten

end ClockPhrase
end TaskDesk
