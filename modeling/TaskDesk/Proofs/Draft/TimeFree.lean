import TaskDesk.Proofs.Draft.TimeWord
import TaskDesk.Proofs.Phrase.Seam

/-!
# Texts without times

No expression for a time of day stands in a text. Then none stands there when its blanks
are collapsed and trimmed, and when characters follow that belong to no word. Behind such a
text a keyword for a time is the time of the whole text, whatever the text ends with.

Results:
* `TimeFree.of_occursIn`, `TimeFree.tidy`, `TimeFree.append`: texts without times.
* `TimeFree.find?_afterAt`, `TimeFree.find?_named`: what is found behind such a text.
-/

namespace TaskDesk

open Phrase
open Text (words fold)

/-- The kinds of expressions for times. -/
inductive TimeWord where
  | afterAt | twelveHour | hourMinutes | named
deriving DecidableEq, Repr

namespace TimeWord

/-- The pieces of a kind that begin and end with a word. -/
def IsPiece : TimeWord → Text → Prop
  | afterAt => ClockPhrase.IsAtTime
  | twelveHour => ClockPhrase.IsTwelveHour
  | hourMinutes => ClockPhrase.IsHourMinutes
  | named => SpellsOneOf NamedTime.spellings

theorem wordEnds (w : TimeWord) : WordEnds w.IsPiece := by
  cases w with
  | afterAt => exact ClockPhrase.wordEnds_isAtTime
  | twelveHour => exact ClockPhrase.readsWords_twelveHour.toWordEnds
  | hourMinutes => exact ClockPhrase.readsWords_hourMinutes.toWordEnds
  | named => exact NamedTime.readsWords_phrase.toWordEnds

end TimeWord

/-! ## Collapsing blanks -/

namespace ClockPhrase

theorem IsHour.not_isBlank {piece : Text} (h : IsHour piece) : ∀ c ∈ piece, isBlank c = false :=
  fun c hc => not_isBlank_of_isWord (isWord_of_isDigit (h.1 c hc))

theorem IsMinutes.not_isBlank {piece : Text} (h : IsMinutes piece) :
    ∀ c ∈ piece, isBlank c = false := by
  obtain ⟨digits, rfl, hdigits, -⟩ := h
  exact List.forall_mem_cons.2
    ⟨by decide, fun c hc => not_isBlank_of_isWord (isWord_of_isDigit (hdigits c hc))⟩

theorem not_isBlank_of_fold {word piece : Text} (hword : IsWordText word) (h : fold piece = word) :
    ∀ c ∈ piece, isBlank c = false := fun c hc =>
  not_isBlank_of_isWord ((IsWordText.of_fold (h ▸ hword)).2 c hc)

theorem IsPeriod.not_isBlank {piece : Text} (h : IsPeriod piece) :
    ∀ c ∈ piece, isBlank c = false := by
  have hwords : ∀ name ∈ ["am".toText, "pm".toText], IsWordText name := by decide +kernel
  exact not_isBlank_of_fold (hwords _ h) rfl

/-- What has no blanks is not changed when blanks are collapsed. -/
theorem of_collapse {R : Text → Prop} (hR : ∀ {piece}, R piece → ∀ c ∈ piece, isBlank c = false)
    {piece : Text} (h : R (Text.collapse piece)) : R piece := by
  rwa [Text.collapse_eq_self (hR h)] at h

theorem blank_of_collapse {gap : Text} (h : ∀ c ∈ Text.collapse gap, isBlank c = true) :
    ∀ c ∈ gap, isBlank c = true := by
  intro c hc
  cases hblank : isBlank c with
  | true => rfl
  | false => exact absurd (h c (Text.mem_collapse hc hblank)) (by simp [hblank])

theorem isFront_of_collapse {piece : Text} (h : IsFront (Text.collapse piece)) : IsFront piece := by
  obtain ⟨w, g, h, m, hpiece, hw, hg, hh, hm⟩ := h
  obtain ⟨w, _, rfl, rfl, hrest⟩ := Text.collapse_eq_append hpiece
  obtain ⟨g, _, rfl, rfl, hnumbers⟩ := Text.collapse_eq_append hrest
  obtain ⟨h, m, rfl, rfl, rfl⟩ := Text.collapse_eq_append hnumbers
  have hat : IsWordText "at".toText := by decide +kernel
  refine ⟨w, g, h, m, rfl, ?_, ⟨?_, blank_of_collapse hg.2⟩, of_collapse IsHour.not_isBlank hh, ?_⟩
  · exact of_collapse (not_isBlank_of_fold hat) hw
  · rintro rfl
    exact hg.1 rfl
  · rcases hm with hm | hm
    · exact .inl (of_collapse IsMinutes.not_isBlank hm)
    · refine .inr ?_
      by_contra hne
      exact Text.collapse_ne_nil hne hm

end ClockPhrase

namespace TimeWord

open ClockPhrase

/-- No expression for a time comes up when blanks are collapsed. -/
theorem isPiece_of_collapse (w : TimeWord) {piece : Text} (h : w.IsPiece (Text.collapse piece)) :
    w.IsPiece piece := by
  have hnil : ∀ {t : Text}, Text.collapse t = [] → t = [] := fun ht => by
    by_contra hne
    exact Text.collapse_ne_nil hne ht
  cases w with
  | afterAt =>
    obtain ⟨f, g, p, hpiece, hf, hg, hp⟩ := h
    obtain ⟨f, _, rfl, rfl, hrest⟩ := Text.collapse_eq_append hpiece
    obtain ⟨g, p, rfl, rfl, rfl⟩ := Text.collapse_eq_append hrest
    exact ⟨f, g, p, rfl, isFront_of_collapse hf, blank_of_collapse hg,
      hp.imp (of_collapse IsPeriod.not_isBlank) (And.imp hnil hnil)⟩
  | twelveHour =>
    obtain ⟨h, m, g, p, hpiece, hh, hm, hg, hp⟩ := h
    obtain ⟨h, _, rfl, rfl, hrest⟩ := Text.collapse_eq_append hpiece
    obtain ⟨m, _, rfl, rfl, hperiod⟩ := Text.collapse_eq_append hrest
    obtain ⟨g, p, rfl, rfl, rfl⟩ := Text.collapse_eq_append hperiod
    exact ⟨h, m, g, p, rfl, of_collapse IsHour.not_isBlank hh,
      hm.imp (of_collapse IsMinutes.not_isBlank) hnil, blank_of_collapse hg,
      of_collapse IsPeriod.not_isBlank hp⟩
  | hourMinutes =>
    obtain ⟨h, m, hpiece, hh, hm⟩ := h
    obtain ⟨h, m, rfl, rfl, rfl⟩ := Text.collapse_eq_append hpiece
    exact ⟨h, m, rfl, of_collapse IsHour.not_isBlank hh, of_collapse IsMinutes.not_isBlank hm⟩
  | named =>
    obtain ⟨ws, hws, hspells⟩ := h
    exact ⟨ws, hws, spells_of_collapse (NamedTime.isWordText_spellings ws hws) hspells⟩

end TimeWord

/-! ## Texts without times -/

/-- No expression for a time stands in the text. -/
def TimeFree (t : Text) : Prop := ∀ w : TimeWord, Absent w.IsPiece t

namespace TimeFree

variable {s t : Text}

theorem of_occursIn (hclocks : ∀ kind ∈ ClockPhrase.kinds, kind.1.occursIn t = false)
    (hnamed : NamedTime.phrase.occursIn t = false) : TimeFree t := by
  simp only [occursIn, Option.isSome_eq_false_iff, Option.isNone_iff_eq_none] at hclocks hnamed
  simp only [ClockPhrase.kinds, List.forall_mem_cons] at hclocks
  obtain ⟨hat, htwelve, hminutes, -⟩ := hclocks
  intro w
  cases w with
  | afterAt => exact ClockPhrase.absent_isAtTime hat
  | twelveHour => exact ClockPhrase.readsWords_twelveHour.find?_eq_none_iff.1 htwelve
  | hourMinutes => exact ClockPhrase.readsWords_hourMinutes.find?_eq_none_iff.1 hminutes
  | named => exact NamedTime.readsWords_phrase.find?_eq_none_iff.1 hnamed

theorem nil : TimeFree [] := by
  intro w o ho
  have hnil := ho.text
  simp only [List.append_eq_nil_iff] at hnil
  exact w.wordEnds.ne_nil ho.piece hnil.1.2

theorem tidy (h : TimeFree t) : TimeFree (Text.trim (Text.collapse t)) :=
  fun w => ((h w).collapse_of fun _ => w.isPiece_of_collapse).trim

theorem append (h : TimeFree s) (ht : ∀ c ∈ t, isWord c = false) : TimeFree (s ++ t) :=
  fun w => (h w).append w.wordEnds ht

end TimeFree

/-! ## How expressions end -/

namespace TimeWord

open ClockPhrase

variable {piece : Text}

/-- All expressions but names end with a digit or with an `m`. -/
theorem isClockEnd_of_ne_named {w : TimeWord} (hw : w ≠ named) (h : w.IsPiece piece) :
    piece.getLast?.any isClockEnd = true := by
  cases w with
  | afterAt => exact IsAtTime.isClockEnd h
  | twelveHour => exact IsTwelveHour.isClockEnd h
  | hourMinutes => exact IsHourMinutes.isClockEnd h
  | named => exact absurd rfl hw

/-- No expression for a time ends with the word `at`. -/
theorem last_word_ne_at (w : TimeWord) (h : w.IsPiece piece) :
    ((words piece).map fold).getLast? ≠ some "at".toText := by
  by_cases hw : w = named
  · subst hw
    obtain ⟨ws, hws, hspells⟩ := h
    rw [(words_of_spells (NamedTime.isWordText_spellings ws hws) hspells).2.2]
    have hnames : ∀ ws ∈ NamedTime.spellings, ws.getLast? ≠ some "at".toText := by decide +kernel
    exact hnames ws hws
  · obtain ⟨v, hv, hlast⟩ := Text.getLast?_words (w.wordEnds.last _ h)
    have hend := isClockEnd_of_ne_named hw h
    rw [List.getLast?_map, hv, ← hlast] at *
    intro hat
    have hfold : fold v = "at".toText := Option.some.inj hat
    have ht := congrArg List.getLast? hfold
    rw [fold, List.getLast?_map] at ht
    obtain ⟨c, hc, hct⟩ := Option.map_eq_some_iff.1 (ht.trans (by decide : _ = some (.char 't')))
    rw [hc, Option.any_some, isClockEnd, Bool.or_eq_true, ← isDigit_foldLetter, hct, isLetter,
      hct] at hend
    exact absurd hend (by decide)

end TimeWord

/-! ## Keywords behind a text without times -/

namespace ClockPhrase

/-- A keyword with `at`, an hour and a half of the day is a time in any case. -/
theorem isAtTime_of_fold {piece hour period : Text}
    (h : fold piece = "at".toText ++ (" ".toText ++ (hour ++ period))) (hhour : IsHour hour)
    (hperiod : period ∈ ["am".toText, "pm".toText]) : IsAtTime piece := by
  obtain ⟨w, _, rfl, hw, hrest⟩ := List.map_eq_append_iff.1 h
  obtain ⟨g, _, rfl, hg, hrest'⟩ := List.map_eq_append_iff.1 hrest
  obtain ⟨hour', period', rfl, rfl, rfl⟩ := List.map_eq_append_iff.1 hrest'
  obtain ⟨c, _, rfl, hc, hnil⟩ := List.map_eq_cons_iff.1 hg
  obtain rfl := List.map_eq_nil_iff.1 hnil
  refine ⟨w ++ ([c] ++ hour'), [], period', by simp, ⟨w, [c], hour', [], by simp, hw, ?_, ?_, .inr rfl⟩,
    by simp, .inl hperiod⟩
  · rw [foldLetter_eq_space hc]
    exact ⟨by simp, by decide⟩
  · refine ⟨fun d hd => ?_, by simpa using hhour.2⟩
    rw [← isDigit_foldLetter]
    exact hhour.1 _ (List.mem_map_of_mem hd)

/-- Behind the word `at` there is no `t` in a time. -/
theorem IsAtTime.letters {piece : Text} (h : IsAtTime piece) :
    ∃ a t rest, piece = a :: t :: rest ∧ foldLetter a = 'a' ∧ foldLetter t = 't' ∧
      ∀ c ∈ rest, (!isLetter 't' c) = true := by
  have hdigits : ∀ l : Text, (∀ c ∈ l, isDigit c = true) → ∀ c ∈ l, (!isLetter 't' c) = true :=
    fun l hl c hc => not_isLetter_of_isDigit (by decide) (hl c hc)
  have hblanks : ∀ l : Text, (∀ c ∈ l, isBlank c = true) → ∀ c ∈ l, (!isLetter 't' c) = true :=
    fun l hl c hc => not_isLetter_of_isBlank (by decide) (hl c hc)
  have hminutes : ∀ l : Text, (IsMinutes l ∨ l = []) → ∀ c ∈ l, (!isLetter 't' c) = true := by
    rintro l (⟨digits, rfl, hl, -⟩ | rfl)
    · exact List.forall_mem_cons.2 ⟨by decide, hdigits _ hl⟩
    · simp
  have hperiod : ∀ l : Text, IsPeriod l → ∀ c ∈ l, (!isLetter 't' c) = true := by
    intro l hl c hc
    have hnames : ∀ name ∈ ["am".toText, "pm".toText], ∀ c ∈ name, c ≠ .char 't' := by decide
    exact not_isLetter_of_fold (hnames _ hl _ (List.mem_map_of_mem hc)) rfl
  obtain ⟨_, g, p, rfl, ⟨w, g', h, m, rfl, hw, hg', hh, hm⟩, hg, hp⟩ := h
  obtain ⟨a, _, rfl, ha, hrest⟩ := List.map_eq_cons_iff.1 hw
  obtain ⟨t, _, rfl, ht, hnil⟩ := List.map_eq_cons_iff.1 hrest
  obtain rfl := List.map_eq_nil_iff.1 hnil
  refine ⟨a, t, g' ++ (h ++ m) ++ (g ++ p), by simp, ha, ht, ?_⟩
  simp only [List.forall_mem_append]
  refine ⟨⟨hblanks _ hg'.2, hdigits _ hh.1, hminutes _ hm⟩, hblanks _ hg, ?_⟩
  rcases hp with hp | ⟨-, rfl⟩
  · exact hperiod _ hp
  · simp

/-- A time after `at` does not end with another one. -/
theorem IsAtTime.eq_nil {front piece : Text} (h : IsAtTime (front ++ piece)) (hpiece : IsAtTime piece) :
    front = [] := by
  obtain ⟨a, t, rest, hsame, -, ht, hrest⟩ := h.letters
  obtain ⟨a', t', rest', rfl, ha', ht', -⟩ := hpiece.letters
  cases front with
  | nil => rfl
  | cons c front =>
    cases front with
    | nil =>
      obtain ⟨-, rfl, -⟩ := by simpa using hsame
      rw [ht] at ha'
      exact absurd ha' (by decide)
    | cons d front =>
      obtain ⟨-, -, rfl⟩ := by simpa using hsame
      have hmem := hrest t' (by simp)
      simp [isLetter, ht'] at hmem

end ClockPhrase

namespace TimeFree

open ClockPhrase

variable {s k tail : Text}

/-- A keyword that begins with `at` is the time that is found behind a text without times. -/
theorem find?_afterAt (hs : TimeFree s) (hbreak : s.getLast?.any isWord = false) (hk : IsAtTime k)
    (hwords : ((words k).map fold).dropLast = ["at".toText]) (htail : ∀ c ∈ tail, isWord c = false) :
    ∃ o rest, afterAt.find? (s ++ (k ++ tail)) = some o ∧ o.piece = k ++ rest ∧
      ∀ c ∈ rest, isBlank c = true := by
  have hstands : Stands IsAtTime (s ++ (k ++ tail)) ⟨s, k, tail⟩ :=
    ⟨List.append_assoc _ _ _, hk, hbreak, Text.head?_of_forall htail⟩
  cases hfind : afterAt.find? (s ++ (k ++ tail)) with
  | none => exact absurd hstands (absent_isAtTime hfind _)
  | some o =>
    obtain ⟨piece, rest, hpiece, hrest, ho⟩ := stands_of_afterAt hfind
    rw [← List.append_assoc] at ho
    obtain ⟨hend, -, -⟩ := ho.at_end (TimeWord.wordEnds .afterAt) (hs .afterAt) hbreak
      (wordEnds_isAtTime.last k hk) htail fun piece' hpiece' w hw => by
        rw [hwords, List.mem_singleton]
        rintro rfl
        exact TimeWord.last_word_ne_at .afterAt hpiece' hw
    have hat : IsAtTime piece := ho.piece
    have hends : o.before ++ piece = s ++ k := hend
    have hsame : piece = k := by
      rcases List.append_eq_append_iff.1 hends with ⟨x, -, rfl⟩ | ⟨x, -, rfl⟩
      · rw [hat.eq_nil hk, List.nil_append]
      · rw [hk.eq_nil hat, List.nil_append]
    exact ⟨o, rest, rfl, hsame ▸ hpiece, hrest⟩

/-- What is known of the names of times. -/
theorem names_checked : ∀ k ∈ NamedTime.table.map (·.1), IsWordText k ∧ fold k = k ∧
    [k] ∈ NamedTime.spellings ∧ k.getLast?.any isClockEnd = false := by decide +kernel

/-- Behind a text without times, a name of a time ends every expression that stands. -/
theorem at_end_named (hs : TimeFree s) (hbreak : s.getLast?.any isWord = false)
    (hk : k ∈ NamedTime.table.map (·.1)) (htail : ∀ c ∈ tail, isWord c = false) {w : TimeWord}
    {o : Occurrence} (ho : Stands w.IsPiece (s ++ (k ++ tail)) o) :
    o.before ++ o.piece = s ++ k ∧ o.after = tail ∧
      ((words o.piece).map fold <:+ [k] ∨ [k] <:+ (words o.piece).map fold) := by
  obtain ⟨hword, hfold, -, -⟩ := names_checked k hk
  rw [← List.append_assoc] at ho
  have hend := ho.at_end w.wordEnds (hs w) hbreak hword.last htail fun piece' hpiece' v hv => by
    rw [hword.words]
    exact List.not_mem_nil
  rwa [hword.words, List.map_singleton, hfold] at hend

theorem find?_kinds_of_named (hs : TimeFree s) (hbreak : s.getLast?.any isWord = false)
    (hk : k ∈ NamedTime.table.map (·.1)) (htail : ∀ c ∈ tail, isWord c = false) :
    ∀ kind ∈ kinds, kind.1.find? (s ++ (k ++ tail)) = none := by
  obtain ⟨hword, -, -, hlast⟩ := names_checked k hk
  have habsent : ∀ w : TimeWord, w ≠ .named → Absent w.IsPiece (s ++ (k ++ tail)) := by
    intro w hw o ho
    obtain ⟨hend, -, -⟩ := hs.at_end_named hbreak hk htail ho
    have hclock := Text.getLast?_append_any (s := o.before) (w.isClockEnd_of_ne_named hw ho.piece)
    rw [hend, List.getLast?_append, List.getLast?_eq_some_getLast hword.1, Option.some_or,
      ← List.getLast?_eq_some_getLast hword.1, hlast] at hclock
    cases hclock
  simp only [kinds, List.forall_mem_cons]
  refine ⟨?_, ?_, ?_, by simp⟩
  · cases hfind : afterAt.find? (s ++ (k ++ tail)) with
    | none => rfl
    | some o =>
      obtain ⟨piece, rest, -, -, hat⟩ := stands_of_afterAt hfind
      exact absurd hat (habsent .afterAt (by decide) _)
  · exact readsWords_twelveHour.find?_eq_none_iff.2 (habsent .twelveHour (by decide))
  · exact readsWords_hourMinutes.find?_eq_none_iff.2 (habsent .hourMinutes (by decide))

/-- The name in a piece that ends with it. -/
theorem nameIn_of_spells {ws : List Text} (hws : ws ∈ NamedTime.spellings) {before piece : Text}
    (hspells : Spells ws piece) (hlast : ws.getLast? = some k) (hend : before ++ piece = s ++ k) :
    NamedTime.nameIn piece = k := by
  obtain ⟨front, hpiece, hname⟩ := NamedTime.exists_nameIn hws hspells
  have hfold : k = fold (NamedTime.nameIn piece) := Option.some.inj (hlast.symm.trans hname)
  have hlength : (NamedTime.nameIn piece).length = k.length := by rw [hfold, Text.length_fold]
  rw [hpiece, ← List.append_assoc] at hend
  exact (List.append_inj' hend hlength).2

/-- A name of a time is the time that is found behind a text without times. -/
theorem find?_named (hs : TimeFree s) (hbreak : s.getLast?.any isWord = false)
    (hk : k ∈ NamedTime.table.map (·.1)) (htail : ∀ c ∈ tail, isWord c = false) :
    ∃ o, NamedTime.phrase.find? (s ++ (k ++ tail)) = some o ∧ NamedTime.nameIn o.piece = k := by
  obtain ⟨-, hfold, hmem, -⟩ := names_checked k hk
  have hstands : Stands (SpellsOneOf NamedTime.spellings) (s ++ (k ++ tail)) ⟨s, k, tail⟩ :=
    ⟨List.append_assoc _ _ _, ⟨[k], hmem, hfold⟩, hbreak, Text.head?_of_forall htail⟩
  obtain ⟨o, ho, hfind, -⟩ := NamedTime.readsWords_phrase.of_same_end hstands
    fun o' ho' => (hs.at_end_named hbreak hk htail (w := .named) ho').2.1
  obtain ⟨hend, -, hsame⟩ := hs.at_end_named hbreak hk htail (w := .named) ho
  obtain ⟨ws, hws, hspells⟩ := ho.piece
  rw [(words_of_spells (NamedTime.isWordText_spellings ws hws) hspells).2.2] at hsame
  refine ⟨o, hfind, nameIn_of_spells hws hspells ?_ hend⟩
  rcases hsame with ⟨x, hx⟩ | ⟨x, rfl⟩
  · have hne : ws ≠ [] := by rintro rfl; exact hspells
    have hlast := congrArg List.getLast? hx
    rwa [List.getLast?_append, List.getLast?_eq_some_getLast hne, Option.some_or,
      ← List.getLast?_eq_some_getLast hne] at hlast
  · exact List.getLast?_concat

end TimeFree
end TaskDesk
