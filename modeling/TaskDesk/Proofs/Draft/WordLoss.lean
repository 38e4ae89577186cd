import Mathlib.Tactic.Set
import TaskDesk.Proofs.Draft.Stages
import TaskDesk.Proofs.Phrase.WordCut

/-!
# What a reading takes from the words of a text

The title of a draft has the words of the text, without those of the expressions
that were found. Each expression takes one block of neighbouring words, and at
least one word; no word is made, split, merged with another one, or moved. The
expressions are looked for one after the other, so a block may consist of words
that became neighbours when an earlier one went.

Results:
* `extractDate_cut`, `extractTime_cut`, `extractPriority_cut`, `withoutOpener?_cut`:
  what is found is cut out as an occurrence of a phrase that cuts whole words.
* `words_title`: the words of the title, and how many blocks have gone.
-/

namespace TaskDesk

/-! ## Deleting blocks of a list -/

section Blocks

variable {α : Type}

/-- The second list is the first one without one block that is not empty. -/
def LosesBlock (ws ws' : List α) : Prop :=
  ∃ front block back, block ≠ [] ∧ ws = front ++ block ++ back ∧ ws' = front ++ back

/-- The last list is what is left of the first one after `n` blocks have gone, one
    after the other. -/
inductive Deletions : Nat → List α → List α → Prop where
  | none (ws : List α) : Deletions 0 ws ws
  | next {n : Nat} {ws ws' ws'' : List α} :
    LosesBlock ws ws' → Deletions n ws' ws'' → Deletions (n + 1) ws ws''

theorem Deletions.trans {m n : Nat} {ws ws' ws'' : List α} (h : Deletions m ws ws')
    (h' : Deletions n ws' ws'') : Deletions (m + n) ws ws'' := by
  induction h with
  | none ws => rwa [Nat.zero_add]
  | @next m ws ws₁ ws₂ hfirst hmore ih =>
    rw [Nat.add_right_comm]
    exact .next hfirst (ih h')

end Blocks

/-! ## The phrases cut whole words -/

open Phrase

theorem cutsWords_keyword {t : Text} (h : startsWithLetter t = true) : CutsWords (keyword t) :=
  cutsWords_whole (begins_letters h)

theorem RelativeDate.cutsWords_phrase (r : RelativeDate) : CutsWords r.phrase := by
  have two : ∀ first second : Text, startsWithLetter first = true →
      CutsWords (twoWords first second) := fun first second h =>
    cutsWords_whole (begins_seq (begins_letters h) _)
  cases r with
  | today => exact cutsWords_keyword (by decide)
  | tomorrow => exact cutsWords_keyword (by decide)
  | nextWeek => exact two _ _ (by decide)
  | thisWeekend => exact two _ _ (by decide)
  | nextWeekend => exact two _ _ (by decide)

theorem Weekday.cutsWords_phrase (w : Weekday) : CutsWords w.phrase := by
  have hname : startsWithLetter w.name = true := by cases w <;> decide
  have hnext : startsWithLetter "next".toText = true := by decide
  exact cutsWords_whole (begins_maybe_seq (begins_seq (begins_letters hnext) _)
    (begins_letters hname))

theorem NumericDate.not_isWord_of_not_adjoins {o : Option CodePoint}
    (h : (!o.any adjoins) = true) : o.any isWord = false := by
  cases o with
  | none => rfl
  | some c =>
    simp only [Option.any_some, adjoins, Bool.not_eq_true', Bool.or_eq_false_iff] at h
    exact h.1.1

theorem NumericDate.cutsWords_phrase (sep : CodePoint) : CutsWords (phrase sep) := by
  intro p q hq
  obtain ⟨r, hr, hnumbers⟩ := mem_ends_seq.1 hq
  obtain ⟨rfl, hstart⟩ := mem_ends_here.1 hr
  have hdigits : BeginsWord (many isDigit 1 (some 2)) := begins_many @isWord_of_isDigit
  have hbegins := begins_seq hdigits
  refine ⟨not_isWord_of_not_adjoins hstart, hbegins _ r q hnumbers, fun _ => ?_⟩
  obtain ⟨_, -, h⟩ := mem_ends_seq.1 hnumbers
  obtain ⟨_, -, h⟩ := mem_ends_seq.1 h
  obtain ⟨_, -, h⟩ := mem_ends_seq.1 h
  obtain ⟨_, -, h⟩ := mem_ends_seq.1 h
  obtain ⟨rfl, hend⟩ := mem_ends_here.1 h
  exact not_isWord_of_not_adjoins hend

theorem ClockPhrase.cutsWords_kinds : ∀ kind ∈ kinds, CutsWords kind.1 := by
  have hat : startsWithLetter "at".toText = true := by decide
  have hour : BeginsWord hour := begins_many @isWord_of_isDigit
  intro kind hkind
  simp only [kinds, List.mem_cons, List.not_mem_nil, or_false] at hkind
  rcases hkind with rfl | rfl | rfl
  · exact cutsWords_whole (begins_seq (begins_letters hat) _)
  · exact cutsWords_whole (begins_seq hour _)
  · exact cutsWords_whole (begins_seq hour _)

theorem NamedTime.cutsWords_phrase : CutsWords phrase := by
  have hin : startsWithLetter "in".toText = true := by decide
  have hnames : ∀ entry ∈ table, startsWithLetter entry.1 = true := by decide
  apply cutsWords_whole
  apply begins_maybe_seq (begins_seq (begins_letters hin) _)
  apply begins_oneOf
  intro name hname
  obtain ⟨entry, hentry, rfl⟩ := List.mem_map.1 hname
  exact begins_letters (hnames entry hentry)

theorem cutsWords_anyKeyword {keywords : List Text}
    (h : ∀ t ∈ keywords, startsWithLetter t = true) : CutsWords (anyKeyword keywords) := by
  apply cutsWords_whole
  apply begins_oneOf
  intro phrase hphrase
  obtain ⟨t, ht, rfl⟩ := List.mem_map.1 hphrase
  exact begins_letters (h t ht)

/-! ## What is found is cut out -/

/-- The text is cut around an occurrence of a phrase that cuts whole words. -/
def CutFrom (t residual : Text) : Prop :=
  ∃ phrase o, CutsWords phrase ∧ phrase.find? t = some o ∧ residual = o.residual

theorem CutFrom.losesBlock {t residual : Text} (h : CutFrom t residual) :
    LosesBlock (Text.words t) (Text.words residual) := by
  obtain ⟨phrase, o, hcuts, hfind, rfl⟩ := h
  obtain ⟨hne, ht, hresidual⟩ := words_of_find? hcuts hfind
  exact ⟨_, _, _, hne, ht, hresidual⟩

theorem residual_of_foundDate {date : Option Date} {o : Occurrence} {found : Found Date}
    (h : foundDate date o = .ok (some found)) : found.residual = o.residual := by
  unfold foundDate at h
  split at h
  · cases h; rfl
  · cases h

theorem extractDate_cut {today : Date} {t : Text} {found : Found Date}
    (h : extractDate today t = .ok (some found)) : CutFrom t found.residual := by
  unfold extractDate at h
  split at h
  · rename_i r o hfind
    obtain ⟨r', -, ho⟩ := List.exists_of_findSome?_eq_some hfind
    obtain ⟨o', hfind', heq⟩ := Option.map_eq_some_iff.1 ho
    cases heq
    exact ⟨_, o, r.cutsWords_phrase, hfind', residual_of_foundDate h⟩
  · split at h
    · rename_i w o hfind
      obtain ⟨w', -, ho⟩ := List.exists_of_findSome?_eq_some hfind
      obtain ⟨o', hfind', heq⟩ := Option.map_eq_some_iff.1 ho
      cases heq
      exact ⟨_, o, w.cutsWords_phrase, hfind', residual_of_foundDate h⟩
    · obtain ⟨sep, -, hnumbers⟩ := List.exists_of_findSome?_eq_some (Except.ok.inj h)
      simp only [NumericDate.find?, Option.bind_eq_bind, Option.bind_eq_some_iff] at hnumbers
      obtain ⟨o, hfind', date, -, heq⟩ := hnumbers
      cases heq
      exact ⟨_, o, NumericDate.cutsWords_phrase sep, hfind', rfl⟩

theorem extractTime_cut {t : Text} {found : Found Clock}
    (h : extractTime t = .ok (some found)) : CutFrom t found.residual := by
  rcases extractTime_cases h with ⟨kind, hkind, o, hfind, -, hresidual⟩ | ⟨o, hfind, -, hresidual⟩
  · exact ⟨_, o, ClockPhrase.cutsWords_kinds kind hkind, hfind, hresidual⟩
  · exact ⟨_, o, NamedTime.cutsWords_phrase, hfind, hresidual⟩

theorem extractPriority_cut {t : Text} {found : Found Priority}
    (h : extractPriority t = some found) : CutFrom t found.residual := by
  have hletters : ∀ entry ∈ priorityKeywords, ∀ keyword ∈ entry.2,
      startsWithLetter keyword = true := by decide
  obtain ⟨⟨priority, keywords⟩, hentry, ho⟩ := List.exists_of_findSome?_eq_some h
  obtain ⟨o, hfind, rfl⟩ := Option.map_eq_some_iff.1 ho
  exact ⟨_, o, cutsWords_anyKeyword (hletters _ hentry), hfind, rfl⟩

theorem withoutOpener?_cut {t residual : Text} (h : withoutOpener? t = some residual) :
    CutFrom t residual := by
  have hletters : ∀ opener ∈ reminderOpeners, startsWithLetter opener = true := by decide
  obtain ⟨o, hfind, rfl⟩ := Option.map_eq_some_iff.1 h
  exact ⟨_, o, cutsWords_anyKeyword hletters, hfind, rfl⟩

/-! ## The stages of a reading -/

theorem deletions_getD (t : Text) (residual? : Option Text)
    (h : ∀ residual, residual? = some residual → CutFrom t residual) :
    Deletions residual?.toList.length (Text.words t) (Text.words (residual?.getD t)) := by
  cases residual? with
  | none => exact .none _
  | some residual => exact .next (h residual rfl).losesBlock (.none _)

namespace Reading

/-- A stage takes one block where it finds something, and otherwise none. -/
theorem deletions_rest {α : Type} (t : Text) (found : Option (Found α))
    (h : ∀ a, found = some a → CutFrom t a.residual) :
    Deletions found.toList.length (Text.words t) (Text.words (rest found t)) := by
  have hcut : ∀ residual, found.map (·.residual) = some residual → CutFrom t residual := by
    intro residual hresidual
    obtain ⟨a, ha, rfl⟩ := Option.map_eq_some_iff.1 hresidual
    exact h a ha
  have hdeletions := deletions_getD t (found.map (·.residual)) hcut
  rwa [Option.toList_map, List.length_map] at hdeletions

theorem timeWith_cut {due : Option Date} {t : Text} {found : Found Clock}
    (h : timeWith due t = .ok (some found)) : CutFrom t found.residual := by
  unfold timeWith at h
  split at h
  · exact extractTime_cut h
  · cases h

/-- **The words of the title.** They are the words of the text after as many
    blocks have gone, one after the other, as there are notes; and there are at
    most four notes. -/
theorem words_title {today : Date} {t : Text} {r : Reading} (h : ofText today t = .ok r) :
    r.notes.length ≤ 4 ∧
      Deletions r.notes.length (Text.words t) (Text.words r.draft.title) := by
  refine ⟨notes_length_le h, ?_⟩
  simp only [ofText, bind, Except.bind, pure, Except.pure] at h
  split at h
  · cases h
  · rename_i date hdate
    split at h
    · cases h
    · rename_i clock hclock
      cases h
      have due := deletions_rest (Text.trim t) date
        fun found hfound => extractDate_cut (hdate.trans (congrArg _ hfound))
      set dated := rest date (Text.trim t)
      have time := deletions_rest dated clock
        fun found hfound => timeWith_cut (hclock.trans (congrArg _ hfound))
      set timed := rest clock dated
      have urgency := deletions_rest timed _ fun _ => extractPriority_cut
      set ranked := rest (extractPriority timed) timed
      have opener := deletions_getD ranked _ fun _ => withoutOpener?_cut
      have all := due.trans (time.trans (urgency.trans opener))
      rw [Text.words_trim] at all
      simpa [Text.words_tidy, Option.toList_map] using all

/-- All four kinds of expressions in one text. The time ends with the blank after
    it, so that the next word follows right behind the cut. -/
theorem words_title_reminder :
    let text := "remind me to call mom tomorrow at 5 urgent please".toText
    let reading : Reading := {
      draft := {
        title := "call mom please".toText, due := some { year := 2025, month := 1, day := 16 }
        hasTime := true, time := some ⟨5, "00".toText, by decide, by decide⟩
        priority := some .high }
      notes := [.due { year := 2025, month := 1, day := 16 },
        .time ⟨5, "00".toText, by decide, by decide⟩, .priority .high, .reminder] }
    ofText { year := 2025, month := 1, day := 15 } text = .ok reading ∧ reading.notes.length ≤ 4 ∧
      Deletions 4 (Text.words text) (Text.words "call mom please".toText) := by
  intro text reading
  have h : ofText { year := 2025, month := 1, day := 15 } text = .ok reading := by decide +kernel
  exact ⟨h, words_title h⟩

end Reading
end TaskDesk
