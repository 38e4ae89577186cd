import TaskDesk.Draft.TimePhrase
import TaskDesk.Proofs.Phrase.Characters

/-!
# What is read as a time of day

The pieces of a text that are read as a time of day: an hour of one or two digits, minutes
behind a colon, a half of the day after any blanks, and the names of times. All of them
stand as whole words, but for an hour after `at`: without a half of the day, it may end
with blanks.

Results:
* `reads_hour`, `reads_minutes`, `reads_period`, `reads_gap`: the parts of clock times.
* `readsWords_twelveHour`, `readsWords_hourMinutes`, `NamedTime.readsWords_phrase`.
* `reads_front`, `reads_tail`: the two parts of a time after `at`.
* `read?_append`: blanks at the end of a piece do not matter to the time that is read.
* `stands_of_afterAt`, `absent_isAtTime`: where a time after `at` stands as whole words.
* `NamedTime.exists_nameIn`: the name in a piece.
-/

namespace TaskDesk

open Phrase

namespace ClockPhrase

open Text (fold)

/-! ## Parts of clock times -/

/-- The digits of an hour. -/
def IsHour (piece : Text) : Prop :=
  (∀ c ∈ piece, isDigit c = true) ∧ 1 ≤ piece.length ∧ piece.length ≤ 2

/-- A colon and the digits of minutes. -/
def IsMinutes (piece : Text) : Prop :=
  ∃ digits, piece = .char ':' :: digits ∧ (∀ c ∈ digits, isDigit c = true) ∧ digits.length = 2

/-- The name of a half of the day, in any case. -/
def IsPeriod (piece : Text) : Prop := fold piece ∈ ["am".toText, "pm".toText]

theorem reads_hour : Reads hour IsHour := by
  refine (reads_many isDigit 1 (some 2)).congr fun piece => ?_
  simp [IsHour]

theorem reads_minutes : Reads minutes IsMinutes := by
  refine ((reads_one _).seq (reads_many isDigit 2 (some 2))).congr fun piece => ?_
  constructor
  · rintro ⟨_, digits, rfl, ⟨c, rfl, hc⟩, hdigits, hleast, hmost⟩
    obtain rfl : c = ':' := eq_of_beq hc
    exact ⟨digits, rfl, hdigits, Nat.le_antisymm (hmost 2 rfl) hleast⟩
  · rintro ⟨digits, rfl, hdigits, hlength⟩
    exact ⟨[.char ':'], digits, rfl, ⟨':', rfl, rfl⟩, hdigits, hlength.ge, by simp [hlength]⟩

theorem reads_period : Reads period IsPeriod := by
  refine ((reads_letters _).either (reads_letters _)).congr fun piece => ?_
  simp [IsPeriod]

theorem reads_gap : Reads gap fun piece => ∀ c ∈ piece, isBlank c = true :=
  (reads_many isBlank 0 none).congr fun piece => by simp

theorem IsHour.first {piece : Text} (h : IsHour piece) : piece.head?.any isWord = true := by
  cases piece with
  | nil => exact absurd h.2.1 (by simp)
  | cons c piece => exact isWord_of_isDigit (h.1 c List.mem_cons_self)

/-! ## How clock times end -/

/-- Whether a character is the letter, in any case. -/
def isLetter (letter : Char) (c : CodePoint) : Bool := foldLetter c == .char letter

/-- Whether clock times can end with the character: digits, and the last letter of the halves
    of the day. -/
def isClockEnd (c : CodePoint) : Bool := isDigit c || isLetter 'm' c

theorem isWord_of_isClockEnd {c : CodePoint} (h : isClockEnd c = true) : isWord c = true := by
  rcases Bool.or_eq_true_iff.1 h with hdigit | hletter
  · exact isWord_of_isDigit hdigit
  · exact isWord_of_foldLetter (by decide : 'm'.isAlpha = true) (eq_of_beq hletter)

theorem last_of_isClockEnd {piece : Text} (h : piece.getLast?.any isClockEnd = true) :
    piece.getLast?.any isWord = true := by
  cases hlast : piece.getLast? with
  | none => rw [hlast] at h; cases h
  | some c => rw [hlast] at h; exact isWord_of_isClockEnd h

theorem isClockEnd_of_isDigit {piece : Text} (hne : piece ≠ [])
    (h : ∀ c ∈ piece, isDigit c = true) : piece.getLast?.any isClockEnd = true :=
  Text.getLast?_of_forall hne fun c hc => by rw [isClockEnd, h c hc, Bool.true_or]

theorem IsHour.isClockEnd {piece : Text} (h : IsHour piece) :
    piece.getLast?.any isClockEnd = true :=
  isClockEnd_of_isDigit (List.length_pos_iff.1 h.2.1) h.1

theorem IsMinutes.isClockEnd {piece : Text} (h : IsMinutes piece) :
    piece.getLast?.any isClockEnd = true := by
  obtain ⟨digits, rfl, hdigits, hlength⟩ := h
  have hne : digits ≠ [] := by rintro rfl; cases hlength
  exact Text.getLast?_append_any (s := [.char ':']) (isClockEnd_of_isDigit hne hdigits)

theorem IsPeriod.isClockEnd {piece : Text} (h : IsPeriod piece) :
    piece.getLast?.any isClockEnd = true := by
  have hends : ∀ name ∈ ["am".toText, "pm".toText], name.getLast? = some (.char 'm') := by decide
  have hlast := hends _ h
  rw [fold, List.getLast?_map, Option.map_eq_some_iff] at hlast
  obtain ⟨c, hc, hfold⟩ := hlast
  simp [hc, ClockPhrase.isClockEnd, isLetter, hfold]

/-! ## Clock times -/

/-- An hour of the 12-hour clock with its half of the day. -/
def IsTwelveHour (piece : Text) : Prop :=
  ∃ hour minutes gap period, piece = hour ++ (minutes ++ (gap ++ period)) ∧ IsHour hour ∧
    (IsMinutes minutes ∨ minutes = []) ∧ (∀ c ∈ gap, isBlank c = true) ∧ IsPeriod period

/-- Hours and minutes. -/
def IsHourMinutes (piece : Text) : Prop :=
  ∃ hour minutes, piece = hour ++ minutes ∧ IsHour hour ∧ IsMinutes minutes

theorem IsTwelveHour.isClockEnd {piece : Text} (h : IsTwelveHour piece) :
    piece.getLast?.any isClockEnd = true := by
  obtain ⟨h, m, g, p, rfl, -, -, -, hp⟩ := h
  exact Text.getLast?_append_any (Text.getLast?_append_any (Text.getLast?_append_any hp.isClockEnd))

theorem IsHourMinutes.isClockEnd {piece : Text} (h : IsHourMinutes piece) :
    piece.getLast?.any isClockEnd = true := by
  obtain ⟨h, m, rfl, -, hm⟩ := h
  exact Text.getLast?_append_any hm.isClockEnd

theorem readsWords_twelveHour : ReadsWords twelveHour IsTwelveHour := by
  have hread : Reads (inOrder [hour, maybe minutes, gap, period]) IsTwelveHour := by
    refine (reads_hour.seq ((reads_minutes.either .nothing).seq
      (reads_gap.seq reads_period))).congr fun piece => ?_
    constructor
    · rintro ⟨h, _, rfl, hh, m, _, rfl, hm, g, p, rfl, hg, hp⟩
      exact ⟨h, m, g, p, rfl, hh, hm, hg, hp⟩
    · rintro ⟨h, m, g, p, rfl, hh, hm, hg, hp⟩
      exact ⟨h, _, rfl, hh, m, _, rfl, hm, g, p, rfl, hg, hp⟩
  refine hread.whole ⟨?_, fun _ h => last_of_isClockEnd h.isClockEnd⟩
  rintro _ ⟨h, m, g, p, rfl, hh, -, -, -⟩
  exact Text.head?_append_any hh.first

theorem readsWords_hourMinutes : ReadsWords hourMinutes IsHourMinutes := by
  have hread : Reads (inOrder [hour, minutes]) IsHourMinutes := by
    refine (reads_hour.seq reads_minutes).congr fun piece => ?_
    constructor
    · rintro ⟨h, m, rfl, hh, hm⟩
      exact ⟨h, m, rfl, hh, hm⟩
    · rintro ⟨h, m, rfl, hh, hm⟩
      exact ⟨h, m, rfl, hh, hm⟩
  refine hread.whole ⟨?_, fun _ h => last_of_isClockEnd h.isClockEnd⟩
  rintro _ ⟨h, m, rfl, hh, -⟩
  exact Text.head?_append_any hh.first

/-! ## Times after `at` -/

/-- The first part of a time after `at`: an hour, with minutes or without. -/
def front : Phrase := .inOrder [.letters "at".toText, .blanks, hour, .maybe minutes]

/-- The second part: a half of the day after any blanks, or blanks alone. -/
def tail : Phrase := .seq gap (.maybe period)

/-- The word `at`, an hour, and minutes if they are given. -/
def IsFront (piece : Text) : Prop :=
  ∃ word gap hour minutes, piece = word ++ (gap ++ (hour ++ minutes)) ∧ fold word = "at".toText ∧
    IsGap gap ∧ IsHour hour ∧ (IsMinutes minutes ∨ minutes = [])

/-- Any blanks, and a half of the day if it is given. -/
def IsTail (piece : Text) : Prop :=
  ∃ gap period, piece = gap ++ period ∧ (∀ c ∈ gap, isBlank c = true) ∧
    (IsPeriod period ∨ period = [])

/-- The two parts of a time after `at`. -/
theorem ends_parts (p : Place) :
    (inOrder [letters "at".toText, blanks, hour, maybe minutes, gap, maybe period]).ends p =
      (seq front tail).ends p := by
  simp only [front, tail, inOrder, ends, List.flatMap_assoc]

theorem reads_front : Reads front IsFront := by
  refine ((reads_letters _).seq (reads_blanks.seq
    (reads_hour.seq (reads_minutes.either .nothing)))).congr fun piece => ?_
  constructor
  · rintro ⟨w, _, rfl, hw, g, _, rfl, hg, h, m, rfl, hh, hm⟩
    exact ⟨w, g, h, m, rfl, hw, hg, hh, hm⟩
  · rintro ⟨w, g, h, m, rfl, hw, hg, hh, hm⟩
    exact ⟨w, _, rfl, hw, g, _, rfl, hg, h, m, rfl, hh, hm⟩

theorem reads_tail : Reads tail IsTail := by
  refine (reads_gap.seq (reads_period.either .nothing)).congr fun piece => ?_
  constructor
  · rintro ⟨g, p, rfl, hg, hp⟩
    exact ⟨g, p, rfl, hg, hp⟩
  · rintro ⟨g, p, rfl, hg, hp⟩
    exact ⟨g, p, rfl, hg, hp⟩

theorem IsFront.first {piece : Text} (h : IsFront piece) : piece.head?.any isWord = true := by
  obtain ⟨w, g, h, m, rfl, hw, -, -, -⟩ := h
  refine Text.head?_append_any ?_
  rw [← Text.head?_fold, hw]
  decide +kernel

/-- The first part ends with a digit. -/
theorem IsFront.isClockEnd {piece : Text} (h : IsFront piece) :
    piece.getLast?.any isClockEnd = true := by
  obtain ⟨w, g, h, m, rfl, -, -, hh, hm⟩ := h
  refine Text.getLast?_append_any (Text.getLast?_append_any ?_)
  rcases hm with hm | rfl
  · exact Text.getLast?_append_any hm.isClockEnd
  · simpa using hh.isClockEnd

theorem IsFront.last {piece : Text} (h : IsFront piece) : piece.getLast?.any isWord = true :=
  last_of_isClockEnd h.isClockEnd

/-- Among blanks, the second part is nothing but blanks. -/
theorem IsTail.blank {piece : Text} (h : IsTail piece)
    (hlast : piece.getLast?.any isWord = false) : ∀ c ∈ piece, isBlank c = true := by
  obtain ⟨g, p, rfl, hg, hp | rfl⟩ := h
  · exact absurd (last_of_isClockEnd (Text.getLast?_append_any hp.isClockEnd))
      (by rw [hlast]; exact Bool.false_ne_true)
  · simpa using hg

/-- A time after `at` that ends with a word: blanks stand only before a half of the day. -/
def IsAtTime (piece : Text) : Prop :=
  ∃ front gap period, piece = front ++ (gap ++ period) ∧ IsFront front ∧
    (∀ c ∈ gap, isBlank c = true) ∧ (IsPeriod period ∨ (gap = [] ∧ period = []))

theorem IsAtTime.isClockEnd {piece : Text} (h : IsAtTime piece) :
    piece.getLast?.any isClockEnd = true := by
  obtain ⟨f, g, p, rfl, hf, -, hp | ⟨rfl, rfl⟩⟩ := h
  · exact Text.getLast?_append_any (Text.getLast?_append_any hp.isClockEnd)
  · simpa using hf.isClockEnd

theorem wordEnds_isAtTime : WordEnds IsAtTime where
  first := by
    rintro _ ⟨f, g, p, rfl, hf, -, -⟩
    exact Text.head?_append_any hf.first
  last _ h := last_of_isClockEnd h.isClockEnd

/-- Where no time after `at` is found, none stands. -/
theorem absent_isAtTime {t : Text} (h : afterAt.find? t = none) : Absent IsAtTime t := by
  intro o ho
  have hfirst := wordEnds_isAtTime.first _ ho.piece
  have hlast := wordEnds_isAtTime.last _ ho.piece
  obtain ⟨f, g, p, hpiece, hf, hg, hp⟩ := ho.piece
  rw [← ho.text, List.append_assoc] at h
  have hmem : ⟨o.piece.reverse ++ o.before.reverse, o.after⟩ ∈
      afterAt.ends ⟨o.before.reverse ++ [], o.piece ++ o.after⟩ := by
    rw [afterAt, mem_ends_whole, ends_parts, mem_ends_seq]
    refine ⟨?_, ⟨⟨f.reverse ++ o.before.reverse, g ++ p ++ o.after⟩, ?_, ?_⟩, ?_⟩
    · rw [List.append_nil, List.head?_reverse, ho.before, Text.head?_append_any hfirst]
      exact Bool.false_ne_true
    · exact (reads_front _ _).2 ⟨f, hf, by simp [hpiece], by simp⟩
    · exact (reads_tail _ _).2 ⟨g ++ p, ⟨g, p, rfl, hg, hp.imp_right And.right⟩, rfl,
        by simp [hpiece]⟩
    · rw [ho.after, Text.head?_append_any (by rwa [List.head?_reverse])]
      exact Bool.false_ne_true.symm
  rw [ends_eq_nil_of_findFrom h] at hmem
  cases hmem

/-- A time after `at` that is found stands in the text, with blanks behind it that belong to
    what is found. -/
theorem stands_of_afterAt {t : Text} {o : Occurrence} (h : afterAt.find? t = some o) :
    ∃ piece rest, o.piece = piece ++ rest ∧ (∀ c ∈ rest, isBlank c = true) ∧
      Stands IsAtTime t ⟨o.before, piece, rest ++ o.after⟩ := by
  have htext := find?_append h
  have hmem := List.mem_of_head? (head?_ends_of_findFrom h)
  rw [afterAt, mem_ends_whole, ends_parts, mem_ends_seq] at hmem
  obtain ⟨hstart, ⟨r, hr, hq⟩, hend⟩ := hmem
  obtain ⟨f, hf, hafter, -⟩ := (reads_front _ _).1 hr
  obtain ⟨_, ⟨g, p, rfl, hg, hp⟩, hafter', -⟩ := (reads_tail _ _).1 hq
  have hpiece : o.piece = f ++ (g ++ p) := by
    have hsame : o.piece ++ o.after = f ++ (g ++ p) ++ o.after := by
      rw [List.append_assoc, ← hafter']
      exact hafter
    exact List.append_cancel_right hsame
  have hbefore : o.before.getLast?.any isWord = false := by
    rw [List.head?_reverse, hpiece, List.append_assoc, Text.head?_append_any hf.first] at hstart
    simpa using hstart
  rcases hp with hp | rfl
  · refine ⟨o.piece, [], by simp, by simp, htext, ⟨f, g, p, hpiece, hf, hg, .inl hp⟩, hbefore, ?_⟩
    have hlast : o.piece.getLast?.any isWord = true := by
      rw [hpiece]
      exact last_of_isClockEnd (Text.getLast?_append_any (Text.getLast?_append_any hp.isClockEnd))
    rw [Text.head?_append_any (by rwa [List.head?_reverse])] at hend
    simpa using hend.symm
  · rw [List.append_nil] at hpiece
    refine ⟨f, g, hpiece, hg, ?_, ⟨f, [], [], by simp, hf, by simp, .inr ⟨rfl, rfl⟩⟩, hbefore, ?_⟩
    · rw [← htext, hpiece]
      simp
    · cases g with
      | cons c g => exact not_isWord_of_isBlank (hg c List.mem_cons_self)
      | nil =>
        rw [List.append_nil] at hpiece
        rw [hpiece, Text.head?_append_any (by rw [List.head?_reverse]; exact hf.last)] at hend
        simpa using hend.symm

/-! ## Letters and digits -/

section Letters

variable {letter : Char} {c : CodePoint}

theorem not_isLetter_of_isDigit (hletter : isDigit (.char letter) = false) (h : isDigit c = true) :
    (!isLetter letter c) = true := by
  rw [isLetter, Bool.not_eq_true', beq_eq_false_iff_ne]
  intro hfold
  rw [← isDigit_foldLetter, hfold, hletter] at h
  cases h

theorem not_isLetter_of_isBlank (hletter : letter.isAlpha = true) (h : isBlank c = true) :
    (!isLetter letter c) = true := by
  rw [isLetter, Bool.not_eq_true', beq_eq_false_iff_ne]
  intro hfold
  exact absurd (isWord_of_foldLetter hletter hfold) (by simp [not_isWord_of_isBlank h])

theorem not_isLetter_of_fold {other : CodePoint} (hother : other ≠ .char letter)
    (h : foldLetter c = other) : (!isLetter letter c) = true := by
  simpa [isLetter, h] using hother

end Letters

/-- No `t` is in a time of the 12-hour clock. -/
theorem uses_twelveHour : Uses (fun c => !isLetter 't' c) twelveHour := by
  have hdigit : ∀ c, isDigit c = true → (!isLetter 't' c) = true := fun _ =>
    not_isLetter_of_isDigit (by decide)
  have hcolon : ∀ c : CodePoint, (c == ':') = true → (!isLetter 't' c) = true := by
    intro c hc
    rw [eq_of_beq hc]
    decide
  have hblank : ∀ c, isBlank c = true → (!isLetter 't' c) = true := fun _ =>
    not_isLetter_of_isBlank (by decide)
  have hletters : ∀ name ∈ ["am".toText, "pm".toText], Uses (fun c => !isLetter 't' c)
      (letters name) := fun name hname => uses_letters fun c hc _ =>
    not_isLetter_of_fold ((by decide : ∀ name ∈ ["am".toText, "pm".toText], ∀ c ∈ name,
      c ≠ .char 't') name hname c hc)
  exact ⟨trivial, ⟨hdigit, ⟨⟨hcolon, hdigit⟩, trivial⟩, hblank, hletters _ (by simp),
    hletters _ (by simp)⟩, trivial⟩

/-- No letters are in a time of hours and minutes. -/
theorem uses_hourMinutes {letter : Char} (hletter : isDigit (.char letter) = false)
    (hcolon : isLetter letter ':' = false) : Uses (fun c => !isLetter letter c) hourMinutes := by
  have hdigit : ∀ c, isDigit c = true → (!isLetter letter c) = true := fun _ =>
    not_isLetter_of_isDigit hletter
  refine ⟨trivial, ⟨hdigit, fun c hc => ?_, hdigit⟩, trivial⟩
  rw [eq_of_beq hc]
  show (!isLetter letter ':') = true
  rw [hcolon]
  rfl

theorem needs_afterAt : Needs (isLetter 't') afterAt :=
  .inr (.inl (.inl (needs_letters (c := 't') (by decide) fun _ h => beq_iff_eq.2 h)))

theorem needs_twelveHour : Needs (isLetter 'm') twelveHour := by
  have hletters : ∀ name ∈ ["am".toText, "pm".toText], Needs (isLetter 'm') (letters name) :=
    fun name hname => needs_letters (c := 'm')
      ((by decide : ∀ name ∈ ["am".toText, "pm".toText], .char 'm' ∈ name) name hname)
      fun _ h => beq_iff_eq.2 h
  exact .inr (.inl (.inr (.inr (.inr ⟨hletters _ (by simp), hletters _ (by simp)⟩))))

/-- Every clock time has an hour. -/
theorem needs_kinds : ∀ kind ∈ kinds, Needs isDigit kind.1 := by
  have hhour : Needs isDigit hour := ⟨Nat.one_pos, fun _ => id⟩
  intro kind hkind
  simp only [kinds, List.mem_cons, List.not_mem_nil, or_false] at hkind
  rcases hkind with rfl | rfl | rfl
  · exact .inr (.inl (.inr (.inr (.inl hhour))))
  · exact .inr (.inl (.inl hhour))
  · exact .inr (.inl (.inl hhour))

/-! ## The time that is read -/

/-- Blanks at the end of a clock time do not matter. -/
theorem read?_append (assumed : Option Period) {piece rest : Text}
    (hrest : ∀ c ∈ rest, isBlank c = true) : read? assumed (piece ++ rest) = read? assumed piece := by
  have hdigit : ∀ c ∈ rest, isDigit c = false := fun c hc => not_isDigit_of_isBlank (hrest c hc)
  have hhead := Text.head?_of_forall hdigit
  have htrim : ∀ t, Text.trim (t ++ rest) = Text.trim t := Text.trimBy_append_of_forall hrest
  unfold read?
  rw [List.dropWhile_append]
  split
  · rename_i hempty
    rw [List.isEmpty_iff.1 hempty, List.dropWhile_eq_nil_iff.2 fun c hc => by simp [hdigit c hc]]
  · simp only [Text.takeWhile_append_of_head hhead, Text.dropWhile_append_of_head hhead]
    generalize List.dropWhile isDigit (List.dropWhile (fun c => !isDigit c) piece) = after
    have hcolon : ∀ c ∈ rest, c ≠ .char ':' := by
      rintro c hc rfl
      exact absurd (hrest _ hc) (by decide)
    cases after with
    | nil =>
      cases rest with
      | nil => rfl
      | cons c rest =>
        have hempty := htrim []
        rw [List.nil_append] at hempty ⊢
        split
        · rename_i heq
          exact absurd (List.cons.inj heq).1 (hcolon c List.mem_cons_self)
        · simp only [hempty]
    | cons c after =>
      by_cases hc : c = .char ':'
      · subst hc
        simp only [List.cons_append, Text.takeWhile_append_of_head hhead,
          Text.dropWhile_append_of_head hhead, htrim]
      · rw [List.cons_append]
        split
        · rename_i heq
          exact absurd (List.cons.inj heq).1 hc
        · split
          · rename_i heq
            exact absurd (List.cons.inj heq).1 hc
          · simp only [← List.cons_append, htrim]

end ClockPhrase

/-! ## Names of times -/

namespace NamedTime

/-- The words of the names of times, with `in the` before a name and without. -/
def spellings : List (List Text) :=
  table.map (fun entry => ["in".toText, "the".toText, entry.1]) ++ table.map fun entry => [entry.1]

theorem isWordText_spellings : ∀ ws ∈ spellings, ∀ w ∈ ws, IsWordText w := by decide +kernel

theorem readsWords_phrase : ReadsWords phrase (SpellsOneOf spellings) := by
  have hname := reads_oneOf (fun entry : Text × Clock => letters entry.1)
    (fun entry piece => Text.fold piece = entry.1) fun entry (_ : entry ∈ table) =>
      reads_letters entry.1
  have hopener := (reads_letters "in".toText).seq
    (reads_blanks.seq ((reads_letters "the".toText).seq reads_blanks))
  refine readsWords_spelled (((hopener.either .nothing).seq hname).congr fun piece => ?_)
    isWordText_spellings
  constructor
  · rintro ⟨_, name, rfl, ⟨x, _, rfl, hx, g, _, rfl, hg, y, g', rfl, hy, hg'⟩ | rfl, entry, hentry,
      hname⟩
    · refine ⟨["in".toText, "the".toText, entry.1],
        List.mem_append_left _ (List.mem_map_of_mem hentry), x, g, y ++ g' ++ name, by simp, hx, hg,
        y, g', name, rfl, hy, hg', hname⟩
    · exact ⟨[entry.1], List.mem_append_right _ (List.mem_map_of_mem hentry), hname⟩
  · rintro ⟨ws, hws, hspells⟩
    rcases List.mem_append.1 hws with hws | hws
    · obtain ⟨entry, hentry, rfl⟩ := List.mem_map.1 hws
      obtain ⟨x, g, _, rfl, hx, hg, y, g', name, rfl, hy, hg', hname⟩ := hspells
      exact ⟨x ++ (g ++ (y ++ g')), name, by simp,
        .inl ⟨x, _, rfl, hx, g, _, rfl, hg, y, g', rfl, hy, hg'⟩, entry, hentry, hname⟩
    · obtain ⟨entry, hentry, rfl⟩ := List.mem_map.1 hws
      exact ⟨[], piece, rfl, .inr rfl, entry, hentry, hspells⟩

/-- The name in a piece is its last word, with `in the` before it or nothing. -/
theorem exists_nameIn {ws : List Text} (hws : ws ∈ spellings) {piece : Text}
    (h : Spells ws piece) : ∃ front, piece = front ++ nameIn piece ∧
      ws.getLast? = some (Text.fold (nameIn piece)) := by
  have hname (front : Text) {name : Text}
      (hfront : front.getLast?.any (fun c => !isBlank c) = false)
      (hlast : ws.getLast? = some (Text.fold name)) : nameIn (front ++ name) = name := by
    have hword : IsWordText name :=
      .of_fold (isWordText_spellings ws hws _ (List.mem_of_getLast? hlast))
    rw [nameIn, Text.getLast?_tokens front hfront hword.1 fun c hc =>
      not_isBlank_of_isWord (hword.2 c hc)]
    rfl
  rcases List.mem_append.1 hws with hmem | hmem
  · obtain ⟨entry, -, rfl⟩ := List.mem_map.1 hmem
    obtain ⟨x, g, _, rfl, -, -, y, g', name, rfl, -, hg', hfold⟩ := h
    have hlast : ["in".toText, "the".toText, entry.1].getLast? = some (Text.fold name) :=
      congrArg some hfold.symm
    have hgap : (x ++ g ++ (y ++ g')).getLast?.any (fun c => !isBlank c) = false := by
      rw [← List.append_assoc, List.getLast?_append, List.getLast?_eq_some_getLast hg'.1,
        Option.some_or, Option.any_some, hg'.2 _ (List.getLast_mem hg'.1)]
      rfl
    rw [← List.append_assoc, hname _ hgap hlast]
    exact ⟨_, rfl, hlast⟩
  · obtain ⟨entry, -, rfl⟩ := List.mem_map.1 hmem
    have hlast : [entry.1].getLast? = some (Text.fold piece) := congrArg some (Eq.symm h)
    have hwhole : nameIn piece = piece := hname [] rfl hlast
    exact ⟨[], hwhole.symm, by rw [hwhole, hlast]⟩

/-- No digits are in a name of a time. -/
theorem uses_phrase : Uses (fun c => !isDigit c) phrase := by
  have hblank : ∀ c, isBlank c = true → (!isDigit c) = true := fun c hc => by
    rw [not_isDigit_of_isBlank hc]
    rfl
  have hletters : ∀ t : Text, (∀ c ∈ t, isDigit c = false) →
      Uses (fun c => !isDigit c) (letters t) := by
    intro t ht
    refine uses_letters fun c hc d hd => ?_
    rw [← isDigit_foldLetter, hd, ht c hc]
    rfl
  have hnames : ∀ entry ∈ table, ∀ c ∈ entry.1, isDigit c = false := by decide +kernel
  refine ⟨trivial, ⟨⟨⟨hletters _ (by decide), hblank, hletters _ (by decide), hblank⟩, trivial⟩,
    uses_oneOf ?_⟩, trivial⟩
  intro phrase hphrase
  obtain ⟨entry, hentry, rfl⟩ := List.mem_map.1 hphrase
  exact hletters _ (hnames entry hentry)

end NamedTime
end TaskDesk
