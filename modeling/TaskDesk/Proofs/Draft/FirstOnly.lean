import TaskDesk.Proofs.Draft.ClockParts
import TaskDesk.Proofs.Draft.Numbers

/-!
# Only first occurrences count

A phrase for dates in numbers or for clock times can occur many times in a text. Only its first
occurrence is read, and where that is out of range, the next phrase is looked for. So something
is found just where the first occurrence of one of the phrases is in range. What stands behind a
first occurrence that is out of range is never read.

Results:
* `NumericDate.isSome_find?_iff`, `ClockPhrase.isSome_find?_iff`: when a phrase gives a value.
* `extractTime_eq_some_iff`: when a text gives a time.
* `found_iff_first`: when a date in numbers or a time is found, by first occurrences.
-/

namespace TaskDesk

open Phrase

/-- A value is read where the first occurrence of a phrase has one. -/
theorem isSome_found_iff {α : Type} {phrase : Phrase} (hcuts : CutsWords phrase)
    {read : Text → Option α} {IsValue : Text → Prop} {t : Text}
    (hvalue : ∀ o, phrase.find? t = some o → ((read o.piece).isSome = true ↔ IsValue o.piece)) :
    ((phrase.find? t).bind fun o => (read o.piece).bind fun value =>
      some (Found.mk value o.residual)).isSome = true ↔
        ∃ o ∈ (phrase.occurrences t).head?, IsValue o.piece := by
  rw [head?_occurrences hcuts]
  cases hfind : phrase.find? t with
  | none => simp
  | some o =>
    have hread := hvalue o hfind
    cases hcase : read o.piece with
    | none =>
      rw [hcase] at hread
      simpa [hcase] using hread
    | some value =>
      rw [hcase] at hread
      simpa [hcase] using hread

namespace NumericDate

/-- The piece consists of parts that mean a date of the calendar. -/
def IsDate (thisYear : Nat) (sep : CodePoint) (piece : Text) : Prop :=
  ∃ w : Parts, w.IsRegular ∧ piece = w.toText sep ∧ ∃ d, w.Denotes thisYear d

/-- A date is found just where the first occurrence is one. -/
theorem isSome_find?_iff {sep : CodePoint} (hsep : sep ∈ separators) (thisYear : Nat) (t : Text) :
    (find? thisYear t sep).isSome = true ↔
      ∃ o ∈ ((phrase sep).occurrences t).head?, IsDate thisYear sep o.piece := by
  refine isSome_found_iff (cutsWords_phrase sep) fun o ho => ?_
  rw [Option.isSome_iff_exists]
  obtain ⟨w, hw, -⟩ := exists_isFirstIn_of_find? ho
  constructor
  · rintro ⟨d, hd⟩
    rw [hw.piece, read?_toText hsep hw.regular] at hd
    exact ⟨w, hw.regular, hw.piece, d, hd⟩
  · rintro ⟨w', hw', hpiece, d, hd⟩
    rw [hpiece]
    exact ⟨d, (read?_toText hsep hw').2 hd⟩

end NumericDate

namespace ClockPhrase

/-- The piece gives parts that mean a time of day. -/
def IsTime (assumed : Option Period) (piece : Text) : Prop :=
  ∃ (w : Parts) (c : Clock), w.IsWritten piece ∧ w.Denotes assumed c

/-- A time is found just where the first occurrence is one. -/
theorem isSome_find?_iff {kind : Phrase × Option Period} (hkind : kind ∈ kinds) (t : Text) :
    (find? t kind).isSome = true ↔
      ∃ o ∈ (kind.1.occurrences t).head?, IsTime kind.2 o.piece := by
  refine isSome_found_iff (cutsWords_kinds kind hkind) fun o ho => ?_
  rw [Option.isSome_iff_exists]
  constructor
  · rintro ⟨c, hc⟩
    obtain ⟨w, hw⟩ := exists_isWritten hkind ho
    exact ⟨w, c, hw, (read?_of_isWritten hw _).1 hc⟩
  · rintro ⟨w, c, hw, hc⟩
    exact ⟨c, (read?_of_isWritten hw _).2 hc⟩

end ClockPhrase

open NumericDate ClockPhrase

/-- A text gives a time where a clock time is found, or a name that is known. -/
theorem exists_extractTime_iff {t : Text} :
    (∃ f, extractTime t = .ok (some f)) ↔
      (kinds.findSome? (ClockPhrase.find? t)).isSome = true ∨
        ∃ o, NamedTime.phrase.find? t = some o ∧
          (NamedTime.read? (NamedTime.nameIn o.piece)).isSome = true := by
  rw [extractTime]
  cases kinds.findSome? (ClockPhrase.find? t) with
  | some f => simp
  | none =>
    cases NamedTime.phrase.find? t with
    | none => simp
    | some o =>
      cases hname : NamedTime.read? (NamedTime.nameIn o.piece) with
      | none => simp [hname]
      | some c => simp [hname]

/-- **First occurrences.** A text without a date in words gives a date just where the first
    occurrence of one of the phrases for numbers is a date. A text gives a time just where the
    first occurrence of one of the phrases for clock times is a time, or the first name of a
    time is known. -/
theorem found_iff_first (today : Date) (t : Text) :
    ((∀ d : DateWord, d.phrase.occursIn t = false) →
      ((∃ f, extractDate today t = .ok (some f)) ↔
        ∃ sep ∈ separators, ∃ o ∈ ((NumericDate.phrase sep).occurrences t).head?,
          IsDate today.year sep o.piece)) ∧
    ((∃ f, extractTime t = .ok (some f)) ↔
      (∃ kind ∈ kinds, ∃ o ∈ (kind.1.occurrences t).head?, IsTime kind.2 o.piece) ∨
        ∃ o ∈ (NamedTime.phrase.occurrences t).head?,
          (NamedTime.read? (NamedTime.nameIn o.piece)).isSome = true) := by
  constructor
  · intro hwords
    simp only [extractDate_of_no_words hwords, Except.ok.injEq, ← Option.isSome_iff_exists,
      List.findSome?_isSome_iff]
    refine exists_congr fun sep => and_congr_right fun hsep => ?_
    exact NumericDate.isSome_find?_iff hsep today.year t
  · rw [exists_extractTime_iff, List.findSome?_isSome_iff,
      head?_occurrences NamedTime.cutsWords_phrase]
    refine or_congr_left (exists_congr fun kind => and_congr_right fun hkind => ?_)
    exact ClockPhrase.isSome_find?_iff hkind t

/-- Behind a first occurrence that is out of range, one of another phrase is found. -/
theorem found_iff_first_rent :
    let today : Date := { year := 2025, month := 1, day := 15 }
    let dates := "rent 13/45 1-2".toText
    let times := "rent 25:00 at 10:30".toText
    (∀ d : DateWord, d.phrase.occursIn dates = false) ∧
    (∃ f, extractDate today dates = .ok (some f)) ∧
    (∃ sep ∈ separators, ∃ o ∈ ((NumericDate.phrase sep).occurrences dates).head?,
      IsDate today.year sep o.piece) ∧
    (∃ f, extractTime times = .ok (some f)) ∧
      ((∃ kind ∈ kinds, ∃ o ∈ (kind.1.occurrences times).head?, IsTime kind.2 o.piece) ∨
        ∃ o ∈ (NamedTime.phrase.occurrences times).head?,
          (NamedTime.read? (NamedTime.nameIn o.piece)).isSome = true) := by
  intro today dates times
  have hwords : ∀ d ∈ DateWord.all, d.phrase.occursIn dates = false := by decide +kernel
  have hnone (d : DateWord) : d.phrase.occursIn dates = false := hwords d d.mem_all
  have hdate : ∃ f, extractDate today dates = .ok (some f) :=
    ⟨⟨{ year := 2025, month := 1, day := 2 }, "rent 13/45".toText⟩, by decide +kernel⟩
  have htime : ∃ f, extractTime times = .ok (some f) :=
    ⟨⟨⟨10, "30".toText, by decide, by decide +kernel⟩, "rent 25:00".toText⟩, by decide +kernel⟩
  exact ⟨hnone, hdate, ((found_iff_first today dates).1 hnone).1 hdate, htime,
    (found_iff_first today times).2.1 htime⟩

/-- A first occurrence that is out of range hides the second one, which is a date or a time. -/
theorem hidden_behind_first :
    let today : Date := { year := 2025, month := 1, day := 15 }
    let dates := "13/45 1/2".toText
    let times := "25:00 10:30".toText
    ((∀ d : DateWord, d.phrase.occursIn dates = false) ∧
      (∃ sep ∈ separators, ∃ o ∈ (NumericDate.phrase sep).occurrences dates,
        IsDate today.year sep o.piece) ∧
      ¬∃ f, extractDate today dates = .ok (some f)) ∧
    (∃ kind ∈ kinds, ∃ o ∈ kind.1.occurrences times, IsTime kind.2 o.piece) ∧
      ¬∃ f, extractTime times = .ok (some f) := by
  intro today dates times
  have hwords : ∀ d ∈ DateWord.all, d.phrase.occursIn dates = false := by decide +kernel
  have hnodate : extractDate today dates = .ok none := by decide +kernel
  have hnotime : extractTime times = .ok none := by decide +kernel
  refine ⟨⟨fun d => hwords d d.mem_all, ?_, by simp [hnodate]⟩, ?_, by simp [hnotime]⟩
  · refine ⟨'/', by decide, ⟨"13/45 ".toText, "1/2".toText, []⟩, by decide +kernel,
      ⟨"1".toText, "2".toText, none⟩, ⟨?_, ?_, by simp⟩, by decide,
      { year := 2025, month := 1, day := 2 }, ⟨by decide, by decide +kernel, by decide +kernel⟩⟩
    · exact ⟨by decide +kernel, by decide, by decide⟩
    · exact ⟨by decide +kernel, by decide, by decide⟩
  · exact ⟨(hourMinutes, none), by simp [kinds], ⟨"25:00 ".toText, "10:30".toText, []⟩,
      by decide +kernel, ⟨"10".toText, some "30".toText, none⟩,
      ⟨10, "30".toText, by decide, by decide +kernel⟩,
      ⟨[], [], [], [], by decide, by simp, ⟨by decide +kernel, by decide, by decide⟩,
        by rintro _ ⟨⟩; exact ⟨by decide +kernel, by decide⟩, by simp, by decide, by simp⟩,
      by decide +kernel, rfl⟩

end TaskDesk
