import TaskDesk.Proofs.Completion.Exclusive
import TaskDesk.Proofs.Draft.DateWord

/-!
# Dates that are chosen one after the other

Keywords for dates are chosen one after the other, for a text without dates. What each of
them leaves behind, when it is cut again, is a text without dates, also where the text ends
with a word that goes together with the keyword, and where blanks are collapsed. So each
text of the run consists of a text without dates, a keyword, and a space, and has one date,
which is the date of the keyword.

Results:
* `DateFree.strip_append`: what is left where a keyword at the end of a text is cut.
* `dateFree_strip_chooseAll`: what is left after any number of keywords.
* `date_of_chooseAll`: the date of the text after the last keyword.
-/

namespace TaskDesk

open Completion Phrase
open Text (words fold)

/-! ## Texts without dates -/

/-- No date that is written with words stands in the text. -/
def DateFree (t : Text) : Prop := ∀ d : DateWord, Absent (SpellsOneOf d.spellings) t

namespace DateFree

variable {s t : Text}

theorem of_occursIn (hrelative : ∀ r : RelativeDate, r.phrase.occursIn t = false)
    (hweekday : ∀ w : Weekday, w.phrase.occursIn t = false) : DateFree t := by
  have hnone : ∀ d : DateWord, d.phrase.occursIn t = false := by
    intro d
    cases d with
    | relative r => exact hrelative r
    | weekday w => exact hweekday w
  intro d
  rw [← d.readsWords_phrase.find?_eq_none_iff]
  simpa [occursIn] using hnone d

theorem nil : DateFree [] := by
  intro d o ho
  have hnil := ho.text
  simp only [List.append_eq_nil_iff] at hnil
  exact d.readsWords_phrase.ne_nil ho.piece hnil.1.2

theorem tidy (h : DateFree t) : DateFree (Text.trim (Text.collapse t)) :=
  fun d => ((h d).collapse d.isWordText_spellings).trim

theorem append (h : DateFree s) (ht : ∀ c ∈ t, isWord c = false) : DateFree (s ++ t) :=
  fun d => (h d).append d.readsWords_phrase.toWordEnds ht

theorem front (h : DateFree (s ++ t)) (hs : s.getLast?.any isWord = false) : DateFree s :=
  fun d => (h d).of_front d.readsWords_phrase.toWordEnds hs

end DateFree

/-! ## Keywords for dates -/

/-- The keyword is one way to write the date. No other date is written with words that end
    as the keyword does, and none ends with a word that the keyword has before its last. -/
structure DateWord.IsMeantBy (d : DateWord) (k : Text) : Prop where
  spelled : words k ∈ d.spellings
  joined : words k ≠ [] ∧ Text.join ' ' (words k) = k
  only : ∀ d' ∈ DateWord.all, ∀ ws ∈ d'.spellings, (ws <:+ words k ∨ words k <:+ ws) → d' = d
  inner : ∀ w ∈ (words k).dropLast, ∀ d' ∈ DateWord.all, ∀ ws ∈ d'.spellings, ws.getLast? ≠ some w

theorem exists_isMeantBy {k : Text} (hk : k ∈ Category.date.keywords) :
    ∃ d : DateWord, d.IsMeantBy k := by
  have honly : ∀ k ∈ Category.date.keywords, ∃ d ∈ DateWord.all, words k ∈ d.spellings ∧
      ∀ d' ∈ DateWord.all, ∀ ws ∈ d'.spellings, (ws <:+ words k ∨ words k <:+ ws) → d' = d := by
    decide +kernel
  have hjoined : ∀ k ∈ Category.date.keywords, words k ≠ [] ∧ Text.join ' ' (words k) = k := by
    decide +kernel
  have hinner : ∀ k ∈ Category.date.keywords, ∀ w ∈ (words k).dropLast,
      ∀ d ∈ DateWord.all, ∀ ws ∈ d.spellings, ws.getLast? ≠ some w := by decide +kernel
  obtain ⟨d, -, hspelled, honly⟩ := honly k hk
  exact ⟨d, hspelled, hjoined k hk, honly, hinner k hk⟩

namespace DateWord.IsMeantBy

variable {d : DateWord} {s t piece tail : Text}

theorem spells (h : d.IsMeantBy (fold piece)) : SpellsOneOf d.spellings piece := by
  obtain ⟨hne, hjoin⟩ := h.joined
  exact ⟨_, h.spelled, spells_of_fold hne hjoin.symm⟩

/-- **The date at the end.** Behind a text without dates a keyword is the only date. -/
theorem at_end (h : d.IsMeantBy (fold piece)) (hfree : DateFree s) (hs : s.getLast?.any isWord = false)
    (htail : ∀ c ∈ tail, isWord c = false) :
    (∀ d' ≠ d, d'.phrase.find? (s ++ (piece ++ tail)) = none) ∧
      ∃ o, d.phrase.find? (s ++ (piece ++ tail)) = some o ∧
        d.phrase.count (s ++ (piece ++ tail)) = 1 := by
  have hlast : piece.getLast?.any isWord = true := d.readsWords_phrase.last _ h.spells
  have hend : ∀ d' : DateWord, ∀ o, Stands (SpellsOneOf d'.spellings) (s ++ (piece ++ tail)) o →
      o.after = tail ∧ d' = d := by
    intro d' o ho
    rw [← List.append_assoc] at ho
    obtain ⟨-, hafter, hsame⟩ := ho.at_end d'.readsWords_phrase.toWordEnds (hfree d') hs hlast htail
      fun piece' ⟨ws, hws, hspells⟩ => by
        rw [(words_of_spells (d'.isWordText_spellings ws hws) hspells).2.2, ← Text.words_fold]
        exact fun w hlast hw => h.inner w hw d' d'.mem_all ws hws hlast
    obtain ⟨ws, hws, hspells⟩ := ho.piece
    rw [(words_of_spells (d'.isWordText_spellings ws hws) hspells).2.2, ← Text.words_fold] at hsame
    exact ⟨hafter, h.only d' d'.mem_all ws hws hsame⟩
  constructor
  · intro d' hne
    exact d'.readsWords_phrase.find?_eq_none_iff.2 fun o ho => hne (hend d' o ho).2
  · have hstands : Stands (SpellsOneOf d.spellings) (s ++ (piece ++ tail)) ⟨s, piece, tail⟩ :=
      ⟨List.append_assoc _ _ _, h.spells, hs, Text.head?_of_forall htail⟩
    obtain ⟨o, -, hfind, -, hcount⟩ :=
      d.readsWords_phrase.of_same_end hstands fun o ho => (hend d o ho).1
    exact ⟨o, hfind, hcount⟩

end DateWord.IsMeantBy

/-! ## Runs -/

/-- The text after keywords have been chosen for it, one after the other. -/
def Completion.chooseAll (projectNames : List Text) (t : Text) (ks : List Text) : Text :=
  ks.foldl (fun t k => (Completion.apply .create t k projectNames).text) t

variable {s t piece tail : Text}

theorem DateFree.absent_keyword (h : DateFree t) {k : Text} (hk : k ∈ Category.date.keywords) :
    Absent (fold · = k) t := by
  obtain ⟨d, hd⟩ := exists_isMeantBy hk
  intro o ho
  refine h d o ⟨ho.text, DateWord.IsMeantBy.spells ?_, ho.before, ho.after⟩
  rw [ho.piece]
  exact hd

theorem DateFree.strip_eq (h : DateFree t) : strip Category.date.table t = t :=
  Category.date.isTable.strip_of_absent (fun _ => Category.mem_keywords_of_mem_table)
    fun _ hk => h.absent_keyword (Category.mem_keywords_of_mem_table hk)

/-- Where a keyword is cut behind a text without dates, no date is left. -/
theorem DateFree.strip_append (h : DateFree s) (hs : s.getLast?.any isWord = false)
    (hk : fold piece ∈ Category.date.table) (htail : ∀ c ∈ tail, isWord c = false) :
    DateFree (strip Category.date.table (s ++ (piece ++ tail))) := by
  obtain ⟨before, rest, rfl, hbefore, hstrip⟩ :=
    Category.date.isTable.strip_append_keyword (fun _ => Category.mem_keywords_of_mem_table)
      (pairwise_longestFirst _) hk rfl hs
      (fun _ hk => h.absent_keyword (Category.mem_keywords_of_mem_table hk)) htail
  rw [hstrip]
  exact (h.front hbefore).append htail

/-- What a keyword for a date makes of a text of which no date is left when keywords are cut. -/
theorem exists_text_apply_date (h : DateFree (strip Category.date.table t))
    (hk : Category.ofKeyword? piece = some .date) (projectNames : List Text) :
    ∃ s, DateFree s ∧ s.getLast?.any isWord = false ∧
      (Completion.apply .create t piece projectNames).text = s ++ (piece ++ " ".toText) := by
  obtain ⟨gap, hgap, hbreak, htext⟩ := exists_text_apply t hk projectNames
  have hfree : DateFree (withoutKeywords .date t) := by
    rw [withoutKeywords_eq_strip]
    exact h.tidy
  exact ⟨_, hfree.append hgap, hbreak, htext⟩

/-- **The invariant of a run.** No date is left when the keywords are cut. -/
theorem dateFree_strip_chooseAll {ks : List Text} (projectNames : List Text)
    (h : DateFree (strip Category.date.table t))
    (hks : ∀ k ∈ ks, Category.ofKeyword? k = some .date) :
    DateFree (strip Category.date.table (chooseAll projectNames t ks)) := by
  induction ks generalizing t with
  | nil => exact h
  | cons k ks ih =>
    have hk := hks k List.mem_cons_self
    obtain ⟨s, hfree, hs, htext⟩ := exists_text_apply_date h hk projectNames
    have hspace : ∀ c ∈ " ".toText, isWord c = false := by decide
    have hnext := hfree.strip_append hs (Category.fold_mem_table hk) hspace
    rw [← htext] at hnext
    exact ih hnext fun k hk => hks k (List.mem_cons_of_mem _ hk)

/-- No keyword for a date stands in a table that is looked up before. -/
theorem ofKeyword?_date {k : Text} (h : Text.lower k ∈ Category.date.keywords) :
    Category.ofKeyword? k = some .date := by
  have checked : ∀ k ∈ Category.date.keywords,
      Category.all.find? (fun c => c.keywords.contains k) = some .date := by decide +kernel
  exact checked _ h

/-- The date in a text, or why there is none, without the rest of the text. -/
def dateOf (today : Date) (t : Text) : Except ParseFault (Option Date) :=
  (extractDate today t).map (Option.map Found.value)

theorem dateOf_eq {d : DateWord} {o : Occurrence} (hfind : d.phrase.find? t = some o)
    (honly : ∀ d' ≠ d, d'.phrase.find? t = none) (today : Date) :
    dateOf today t = match d.resolve today with
      | some date => .ok (some date)
      | none => .error .beyondCalendar := by
  rw [dateOf, extractDate_of_only hfind honly]
  cases d.resolve today <;> rfl

/-- **The last keyword counts.** Keywords for dates are chosen one after the other for a
    text in which no date is written with words. Then one such date is written in the text,
    and it is the date of the last keyword. -/
theorem date_of_chooseAll {ks : List Text} (projectNames : List Text) (today : Date)
    (hrelative : ∀ r : RelativeDate, r.phrase.occursIn t = false)
    (hweekday : ∀ w : Weekday, w.phrase.occursIn t = false)
    (hks : ∀ k ∈ ks, Text.lower k ∈ Category.date.keywords) (hne : ks ≠ []) :
    dateWordCount (chooseAll projectNames t ks) = 1 ∧
      dateOf today (chooseAll projectNames t ks) = dateOf today (ks.getLast hne) := by
  have hfree := DateFree.of_occursIn hrelative hweekday
  have hstart : DateFree (strip Category.date.table t) := by rwa [hfree.strip_eq]
  have hinit : DateFree (strip Category.date.table (chooseAll projectNames t ks.dropLast)) :=
    dateFree_strip_chooseAll projectNames hstart fun k hk =>
      ofKeyword?_date (hks k (List.dropLast_subset ks hk))
  have hk := ofKeyword?_date (hks _ (List.getLast_mem hne))
  obtain ⟨s, hs, hbreak, htext⟩ := exists_text_apply_date hinit hk projectNames
  have hfinal : chooseAll projectNames t ks = s ++ (ks.getLast hne ++ " ".toText) := by
    rw [← htext]
    conv_lhs => rw [← List.dropLast_append_getLast hne, chooseAll, List.foldl_append]
    rfl
  obtain ⟨d, hd⟩ := exists_isMeantBy (Category.mem_keywords_of_mem_table (Category.fold_mem_table hk))
  have hspace : ∀ c ∈ " ".toText, isWord c = false := by decide
  have hnothing : ∀ c ∈ ([] : Text), isWord c = false := by decide
  obtain ⟨honly, o, hfind, hcount⟩ := hd.at_end hs hbreak hspace
  obtain ⟨honly', o', hfind', -⟩ := hd.at_end .nil rfl hnothing
  simp only [List.nil_append, List.append_nil] at honly' hfind'
  rw [hfinal]
  refine ⟨dateWordCount_eq_one hcount honly, ?_⟩
  rw [dateOf_eq hfind honly, dateOf_eq hfind' honly']

/-- The first keyword makes the last word of the text a part of its date, so that the word
    goes when the next keyword is chosen. -/
theorem date_of_chooseAll_call :
    let text := "call mum next".toText
    let ks := ["Monday".toText, "next week".toText, "FRIDAY".toText]
    let today : Date := { year := 2025, month := 1, day := 15 }
    chooseAll [] text ks = "call mum FRIDAY ".toText ∧
      (dateWordCount (chooseAll [] text ks) = 1 ∧
        dateOf today (chooseAll [] text ks) = dateOf today "FRIDAY".toText) ∧
      dateOf today "FRIDAY".toText = .ok (some { year := 2025, month := 1, day := 17 }) :=
  ⟨by decide +kernel,
    date_of_chooseAll [] _ (fun r => by cases r <;> decide +kernel)
      (fun w => by cases w <;> decide +kernel) (by decide +kernel) (by decide),
    by decide +kernel⟩

end TaskDesk
