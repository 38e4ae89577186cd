import TaskDesk.Proofs.Draft.DateAhead
import TaskDesk.Proofs.Draft.Local
import TaskDesk.Proofs.Phrase.Occurrences
import TaskDesk.Proofs.Text.Split

/-!
# Dates that are written in numbers

A date in numbers consists of a month, a day and perhaps a year, with one separator between
each two. It stands in a text where nothing touches it that could belong to it: no word
character, no stroke and no dash. So it is a whole run of such characters, and at each place
there is at most one. The first one that stands in a text is the one that is found, and its
parts tell the date that is read.

Years of three digits are read too, and mean the years of the first millennium.

Results:
* `mem_ends_phrase`: what is read as a date in numbers, and where.
* `read?_toText`: the date that is read from the parts.
* `find?_phrase_iff`: the first date in numbers that stands in a text is found.
* `extractDate_eq_numbers_iff`: the date of a text that has none in words.
-/

namespace TaskDesk

open Phrase

namespace NumericDate

/-- A number of at least `least` and at most `most` digits of any script. -/
def IsNumber (least most : Nat) (t : Text) : Prop :=
  (∀ c ∈ t, isDigit c = true) ∧ least ≤ t.length ∧ t.length ≤ most

/-- The parts of a date in numbers, as they are written. -/
structure Parts where
  month : Text
  day : Text
  year : Option Text

variable {sep : CodePoint}

namespace Parts

/-- The parts with the separator between each two. -/
def toText (sep : CodePoint) (w : Parts) : Text :=
  Text.join sep (w.month :: w.day :: w.year.toList)

/-- Month and day have one or two digits, and a year has two to four. -/
structure IsRegular (w : Parts) : Prop where
  month : IsNumber 1 2 w.month
  day : IsNumber 1 2 w.day
  year : ∀ y ∈ w.year, IsNumber 2 4 y

/-- The parts are regular, and a year has exactly two or exactly four digits. -/
structure IsExact (w : Parts) : Prop extends IsRegular w where
  year_length : ∀ y ∈ w.year, y.length = 2 ∨ y.length = 4

/-- The parts are those of the date. A year of two digits is one of this century, a longer one
    is meant as it is written, and where there is none, it is the given year. -/
structure Denotes (w : Parts) (thisYear : Nat) (d : Date) : Prop where
  year : d.year = w.year.elim thisYear fun y =>
    if y.length = 2 then 2000 + Text.number y else Text.number y
  month : d.month = Text.number w.month
  day : d.day = Text.number w.day

/-- The parts stand in a text as one piece, and what touches the piece cannot belong to it. -/
structure StandsIn (w : Parts) (sep : CodePoint) (t : Text) (o : Occurrence) : Prop where
  text : o.before ++ o.piece ++ o.after = t
  piece : o.piece = w.toText sep
  regular : w.IsRegular
  before : o.before.getLast?.any adjoins = false
  after : o.after.head?.any adjoins = false

/-- The parts stand in the text, and no others do before them. -/
def IsFirstIn (w : Parts) (sep : CodePoint) (t : Text) (o : Occurrence) : Prop :=
  w.StandsIn sep t o ∧
    ∀ (w' : Parts) (o' : Occurrence), w'.StandsIn sep t o' → o.before.length ≤ o'.before.length

variable {w : Parts}

/-! ## Characters of a date in numbers -/

theorem IsRegular.isExact_iff (h : w.IsRegular) : w.IsExact ↔ ∀ y ∈ w.year, y.length ≠ 3 := by
  constructor
  · intro hexact y hy
    have hlength := hexact.year_length y hy
    omega
  · refine fun hyear => ⟨h, fun y hy => ?_⟩
    have hne := hyear y hy
    obtain ⟨-, hleast, hmost⟩ := h.year y hy
    omega

theorem IsRegular.digits (h : w.IsRegular) :
    ∀ part ∈ w.month :: w.day :: w.year.toList, ∀ c ∈ part, isDigit c = true := by
  simp only [List.forall_mem_cons, Option.mem_toList]
  exact ⟨h.month.1, h.day.1, fun y hy => (h.year y hy).1⟩

theorem not_isDigit_sep (hsep : sep ∈ separators) : isDigit sep = false := by
  have checked : ∀ sep ∈ separators, isDigit sep = false := by decide +kernel
  exact checked sep hsep

/-- The parts of a date are found again between its separators. -/
theorem IsRegular.split_toText (hsep : sep ∈ separators) (h : w.IsRegular) :
    Text.split sep (w.toText sep) = w.month :: w.day :: w.year.toList := by
  refine Text.split_join (by simp) fun part hpart hmem => ?_
  exact absurd (h.digits part hpart sep hmem) (by simp [not_isDigit_sep hsep])

theorem IsRegular.adjoins_toText (hsep : sep ∈ separators) (h : w.IsRegular) :
    ∀ c ∈ w.toText sep, adjoins c = true := by
  have hdigit : ∀ part ∈ w.month :: w.day :: w.year.toList, ∀ c ∈ part, adjoins c = true := by
    intro part hpart c hc
    rw [adjoins, isWord_of_isDigit (h.digits part hpart c hc)]
    rfl
  have hstroke : ∀ sep ∈ separators, adjoins sep = true := by decide +kernel
  obtain ⟨month, day, year⟩ := w
  simp only [List.forall_mem_cons, Option.mem_toList] at hdigit
  obtain ⟨hmonth, hday, hyear⟩ := hdigit
  cases year with
  | none =>
    simp only [toText, Text.join, Option.toList_none, List.forall_mem_append, List.forall_mem_cons]
    exact ⟨hmonth, hstroke sep hsep, hday⟩
  | some year =>
    simp only [toText, Text.join, Option.toList_some, List.forall_mem_append, List.forall_mem_cons]
    exact ⟨hmonth, hstroke sep hsep, hday, hstroke sep hsep, hyear year rfl⟩

end Parts

/-! ## What is read -/

theorem reads_numbers (sep : CodePoint) :
    Reads (numbers sep) fun piece => ∃ w : Parts, w.IsRegular ∧ piece = w.toText sep := by
  have hnumber (least most : Nat) : Reads (many isDigit least (some most)) (IsNumber least most) :=
    (reads_many isDigit least (some most)).congr fun piece => by simp [IsNumber]
  refine ((hnumber 1 2).seq ((reads_one _).seq ((hnumber 1 2).seq
    (((reads_one _).seq (hnumber 2 4)).either .nothing)))).congr fun piece => ?_
  constructor
  · rintro ⟨month, _, rfl, hmonth, _, _, rfl, ⟨c, rfl, hc⟩, day, _, rfl, hday,
      ⟨_, year, rfl, ⟨c', rfl, hc'⟩, hyear⟩ | rfl⟩
    · obtain rfl : c = sep := eq_of_beq hc
      obtain rfl : c' = c := eq_of_beq hc'
      exact ⟨⟨month, day, some year⟩, ⟨hmonth, hday, by simpa using hyear⟩, rfl⟩
    · obtain rfl : c = sep := eq_of_beq hc
      exact ⟨⟨month, day, none⟩, ⟨hmonth, hday, by simp⟩, by simp [Parts.toText, Text.join]⟩
  · rintro ⟨⟨month, day, _ | year⟩, hw, rfl⟩
    · exact ⟨month, _, rfl, hw.month, [sep], _, rfl, ⟨sep, rfl, beq_self_eq_true sep⟩, day, [],
        (List.append_nil day).symm, hw.day, .inr rfl⟩
    · exact ⟨month, _, rfl, hw.month, [sep], _, rfl, ⟨sep, rfl, beq_self_eq_true sep⟩, day, _, rfl,
        hw.day, .inl ⟨[sep], year, rfl, ⟨sep, rfl, beq_self_eq_true sep⟩, hw.year year rfl⟩⟩

/-- A date in numbers is read where its parts are, if nothing touches them. -/
theorem mem_ends_phrase {p q : Place} :
    q ∈ (phrase sep).ends p ↔ ∃ w : Parts, w.IsRegular ∧ p.after = w.toText sep ++ q.after ∧
      q.before = (w.toText sep).reverse ++ p.before ∧ p.before.head?.any adjoins = false ∧
      q.after.head?.any adjoins = false := by
  have hstart : p.passes (fun before _ => !before.any adjoins) = true ↔
      p.before.head?.any adjoins = false := by rw [Place.passes, Bool.not_eq_true']
  rw [guards_phrase sep p]
  by_cases hp : p.before.head?.any adjoins = false
  · rw [if_pos (hstart.2 hp), List.mem_filter, reads_numbers sep p q, Place.passes,
      Bool.not_eq_true']
    constructor
    · rintro ⟨⟨_, ⟨w, hw, rfl⟩, hafter, hbefore⟩, hq⟩
      exact ⟨w, hw, hafter, hbefore, hp, hq⟩
    · rintro ⟨w, hw, hafter, hbefore, -, hq⟩
      exact ⟨⟨_, ⟨w, hw, rfl⟩, hafter, hbefore⟩, hq⟩
  · rw [if_neg (mt hstart.1 hp)]
    constructor
    · exact fun hq => absurd hq List.not_mem_nil
    · rintro ⟨-, -, -, -, hp', -⟩
      exact absurd hp' hp

/-- The date that is read from a piece is the one that its parts mean. -/
theorem read?_toText (hsep : sep ∈ separators) {w : Parts} (h : w.IsRegular) {thisYear : Nat}
    {d : Date} : read? thisYear sep (w.toText sep) = some d ↔ w.Denotes thisYear d := by
  rw [read?, h.split_toText hsep]
  obtain ⟨month, day, year⟩ := w
  cases year with
  | none =>
    show Date.ofParts? _ _ _ = some d ↔ _
    rw [Date.ofParts?_eq_some_iff]
    exact ⟨fun ⟨hyear, hmonth, hday⟩ => ⟨hyear.symm, hmonth.symm, hday.symm⟩,
      fun hd => ⟨hd.year.symm, hd.month.symm, hd.day.symm⟩⟩
  | some year =>
    show Date.ofParts? (fullYear year) _ _ = some d ↔ _
    rw [Date.ofParts?_eq_some_iff]
    exact ⟨fun ⟨hyear, hmonth, hday⟩ => ⟨hyear.symm, hmonth.symm, hday.symm⟩,
      fun hd => ⟨hd.year.symm, hd.month.symm, hd.day.symm⟩⟩

/-! ## The first date of a text -/

/-- At one place of a text at most one date in numbers stands, since it is a whole run. -/
theorem Parts.StandsIn.unique (hsep : sep ∈ separators) {w w' : Parts} {t : Text}
    {o o' : Occurrence} (h : w.StandsIn sep t o) (h' : w'.StandsIn sep t o')
    (hlength : o.before.length = o'.before.length) : o = o' := by
  have hsame := h.text.trans h'.text.symm
  rw [List.append_assoc, List.append_assoc] at hsame
  obtain ⟨hbefore, hrest⟩ := List.append_inj hsame hlength
  have hrun {w : Parts} {o : Occurrence} (h : w.StandsIn sep t o) :
      (o.piece ++ o.after).takeWhile adjoins = o.piece := by
    refine Text.takeWhile_run ?_ h.after
    rw [h.piece]
    exact h.regular.adjoins_toText hsep
  have hpiece : o.piece = o'.piece := by rw [← hrun h, hrest, hrun h']
  obtain ⟨before, piece, after⟩ := o
  obtain ⟨before', piece', after'⟩ := o'
  obtain rfl : before = before' := hbefore
  obtain rfl : piece = piece' := hpiece
  obtain rfl : after = after' := List.append_cancel_left hrest
  rfl

/-- Where all characters adjoin, a date in numbers only stands as the whole text. -/
theorem Parts.StandsIn.piece_eq {w : Parts} {t : Text} {o : Occurrence} (h : w.StandsIn sep t o)
    (hall : ∀ c ∈ t, adjoins c = true) : o.piece = t := by
  rw [← h.text, List.forall_mem_append, List.forall_mem_append] at hall
  have hbefore : o.before = [] := by
    by_contra hne
    exact absurd (Text.getLast?_of_forall hne hall.1.1) (by simp [h.before])
  have hafter : o.after = [] := by
    cases hcons : o.after with
    | nil => rfl
    | cons c rest =>
      have hc := hall.2 c (by simp [hcons])
      exact absurd h.after (by simp [hcons, hc])
  simpa [hbefore, hafter] using h.text

theorem mem_ends_of_stands {w : Parts} {t : Text} {o : Occurrence} (h : w.StandsIn sep t o) :
    ⟨o.piece.reverse ++ o.before.reverse, o.after⟩ ∈
      (phrase sep).ends ⟨o.before.reverse, o.piece ++ o.after⟩ := by
  refine mem_ends_phrase.2 ⟨w, h.regular, by rw [h.piece], by rw [h.piece], ?_, h.after⟩
  rw [List.head?_reverse]
  exact h.before

theorem exists_isFirstIn_of_find? {t : Text} {o : Occurrence} (h : (phrase sep).find? t = some o) :
    ∃ w : Parts, w.IsFirstIn sep t o := by
  obtain ⟨w, hw, hafter, -, hbefore, hnext⟩ :=
    mem_ends_phrase.1 (List.mem_of_head? (head?_ends_of_findFrom h))
  rw [List.head?_reverse] at hbefore
  refine ⟨w, ⟨find?_append h, List.append_cancel_right hafter, hw, hbefore, hnext⟩,
    fun w' o' h' => ?_⟩
  by_contra hlt
  rw [← h'.text, List.append_assoc] at h
  exact not_mem_ends_of_find? h (Nat.not_le.1 hlt) _ (mem_ends_of_stands h')

/-- **The first date in numbers** that stands in a text is what is found. -/
theorem find?_phrase_iff (hsep : sep ∈ separators) {t : Text} {o : Occurrence} :
    (phrase sep).find? t = some o ↔ ∃ w : Parts, w.IsFirstIn sep t o := by
  refine ⟨exists_isFirstIn_of_find?, fun ⟨w, hw, hfirst⟩ => ?_⟩
  cases hfind : (phrase sep).find? t with
  | none =>
    rw [← hw.text, List.append_assoc] at hfind
    have hends := ends_eq_nil_of_findFrom hfind
    rw [List.append_nil] at hends
    exact absurd (mem_ends_of_stands hw) (by rw [hends]; exact List.not_mem_nil)
  | some o' =>
    obtain ⟨w', hw', hfirst'⟩ := exists_isFirstIn_of_find? hfind
    rw [hw.unique hsep hw' (Nat.le_antisymm (hfirst w' o' hw') (hfirst' w o hw))]

theorem find?_eq_some_iff (hsep : sep ∈ separators) {thisYear : Nat} {t : Text} {f : Found Date} :
    find? thisYear t sep = some f ↔
      ∃ (w : Parts) (o : Occurrence), w.IsFirstIn sep t o ∧ w.Denotes thisYear f.value ∧
        f.residual = Text.trim (o.before ++ o.after) := by
  simp only [find?, Option.bind_eq_bind, Option.bind_eq_some_iff, find?_phrase_iff hsep]
  constructor
  · rintro ⟨o, ⟨w, hw⟩, date, hdate, heq⟩
    cases heq
    rw [hw.1.piece, read?_toText hsep hw.1.regular] at hdate
    exact ⟨w, o, hw, hdate, rfl⟩
  · rintro ⟨w, o, hw, hdate, hresidual⟩
    refine ⟨o, ⟨w, hw⟩, f.value, ?_, ?_⟩
    · rw [hw.1.piece, read?_toText hsep hw.1.regular]
      exact hdate
    · obtain ⟨value, residual⟩ := f
      exact congrArg (fun residual => some (Found.mk value residual)) hresidual.symm

end NumericDate

open NumericDate

/-- **Dates in numbers.** A text without a date in words gives a date just where parts stand in
    it that mean this date and are the first of their kind: with strokes, or with dashes where
    the first ones with strokes are no date. The piece is cut out. A year has two to four
    digits, so the parts are exact just where it does not have three. -/
theorem extractDate_eq_numbers_iff {today : Date} {t : Text} {f : Found Date}
    (hwords : ∀ d : DateWord, d.phrase.occursIn t = false) :
    extractDate today t = .ok (some f) ↔
      ∃ sep ∈ separators, ∃ (w : Parts) (o : Occurrence),
        w.IsFirstIn sep t o ∧ w.Denotes today.year f.value ∧
        f.residual = Text.trim (o.before ++ o.after) ∧
        (w.IsExact ↔ ∀ y ∈ w.year, y.length ≠ 3) ∧
        (sep = '-' → ∀ (w' : Parts) (o' : Occurrence), w'.IsFirstIn '/' t o' →
          ∀ d, ¬ w'.Denotes today.year d) := by
  have hstroke : .char '/' ∈ separators := by decide
  have hdash : .char '-' ∈ separators := by decide
  have hnone : NumericDate.find? today.year t '/' = none ↔
      ∀ (w' : Parts) (o' : Occurrence), w'.IsFirstIn '/' t o' →
        ∀ d, ¬ w'.Denotes today.year d := by
    rw [Option.eq_none_iff_forall_ne_some]
    constructor
    · exact fun h w' o' hfirst d hd =>
        h ⟨d, _⟩ ((find?_eq_some_iff hstroke).2 ⟨w', o', hfirst, hd, rfl⟩)
    · intro h f hf
      obtain ⟨w', o', hfirst, hd, -⟩ := (find?_eq_some_iff hstroke).1 hf
      exact h w' o' hfirst _ hd
  have hsearch : separators.findSome? (NumericDate.find? today.year t) = some f ↔
      NumericDate.find? today.year t '/' = some f ∨
        NumericDate.find? today.year t '/' = none ∧
          NumericDate.find? today.year t '-' = some f := by
    rw [separators, List.findSome?_cons, List.findSome?_singleton]
    cases NumericDate.find? today.year t '/' with
    | none => simp
    | some f' => simp
  rw [extractDate_of_no_words hwords, Except.ok.injEq, hsearch, hnone, find?_eq_some_iff hstroke,
    find?_eq_some_iff hdash]
  constructor
  · rintro (⟨w, o, hw, hdate, hresidual⟩ | ⟨hnone, w, o, hw, hdate, hresidual⟩)
    · exact ⟨'/', hstroke, w, o, hw, hdate, hresidual, hw.1.regular.isExact_iff,
        fun hsame => absurd hsame (by decide)⟩
    · exact ⟨'-', hdash, w, o, hw, hdate, hresidual, hw.1.regular.isExact_iff, fun _ => hnone⟩
  · rintro ⟨sep, hsep, w, o, hw, hdate, hresidual, -, hnone⟩
    simp only [separators, List.mem_cons, List.not_mem_nil, or_false] at hsep
    rcases hsep with rfl | rfl
    · exact .inl ⟨w, o, hw, hdate, hresidual⟩
    · exact .inr ⟨hnone rfl, w, o, hw, hdate, hresidual⟩

/-- The numbers with strokes are no date, so the first ones with dashes count. -/
theorem extractDate_numbers_rent :
    let text := "rent 13/1 7-3-26, then 4-5".toText
    let today : Date := { year := 2025, month := 1, day := 15 }
    let date : Date := { year := 2026, month := 7, day := 3 }
    (∀ d : DateWord, d.phrase.occursIn text = false) ∧
      ∃ sep ∈ separators, ∃ (w : Parts) (o : Occurrence),
        w.IsFirstIn sep text o ∧ w.Denotes today.year date ∧
        "rent 13/1 , then 4-5".toText = Text.trim (o.before ++ o.after) ∧
        (w.IsExact ↔ ∀ y ∈ w.year, y.length ≠ 3) ∧
        (sep = '-' → ∀ (w' : Parts) (o' : Occurrence), w'.IsFirstIn '/' text o' →
          ∀ d, ¬ w'.Denotes today.year d) := by
  intro text today date
  have hall : ∀ d ∈ DateWord.all, d.phrase.occursIn text = false := by decide +kernel
  have hwords : ∀ d : DateWord, d.phrase.occursIn text = false := fun d => hall d d.mem_all
  exact ⟨hwords, (extractDate_eq_numbers_iff (f := ⟨date, _⟩) hwords).1 (by decide +kernel)⟩

/-- A year of three digits is read. -/
theorem extractDate_year_of_three_digits :
    let text := "1/2/025".toText
    let today : Date := { year := 2025, month := 1, day := 15 }
    let date : Date := { year := 25, month := 1, day := 2 }
    (∀ d : DateWord, d.phrase.occursIn text = false) ∧
      extractDate today text = .ok (some ⟨date, []⟩) ∧
      ¬∃ sep ∈ separators, ∃ (w : Parts) (o : Occurrence), w.StandsIn sep text o ∧ w.IsExact := by
  intro text today date
  have hall : ∀ d ∈ DateWord.all, d.phrase.occursIn text = false := by decide +kernel
  refine ⟨fun d => hall d d.mem_all, by decide +kernel, ?_⟩
  rintro ⟨sep, hsep, w, o, hw, hexact⟩
  have hsplit := hexact.split_toText hsep
  rw [← hw.piece, hw.piece_eq (by decide +kernel)] at hsplit
  simp only [separators, List.mem_cons, List.not_mem_nil, or_false] at hsep
  rcases hsep with rfl | rfl
  · have hparts : Text.split '/' text = ["1".toText, "2".toText, "025".toText] := by decide +kernel
    rw [hparts] at hsplit
    obtain ⟨month, day, _ | year⟩ := w
    · cases hsplit
    · cases hsplit
      exact absurd (hexact.year_length _ rfl) (by decide)
  · have hparts : Text.split '-' text = [text] := by decide +kernel
    rw [hparts] at hsplit
    exact absurd (congrArg List.length hsplit) (by simp)

end TaskDesk
