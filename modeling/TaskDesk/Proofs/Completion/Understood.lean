import TaskDesk.Proofs.Completion.DateRun
import TaskDesk.Proofs.Draft.DateAhead
import TaskDesk.Proofs.Draft.PriorityWord
import TaskDesk.Proofs.Draft.TimeFree

/-!
# Keywords that are offered and understood

A keyword that is chosen for a new task is read back as what it means. For times and dates
this holds behind every text that has none: the text that is left when keywords are cut and
blanks are collapsed has none either, and the keyword is then the only expression, also
where the text ends with words that go together with it. A keyword for a priority is read
back where it is known as one, and where the text that is left has no priority that is
looked for earlier; `normal` is offered and not known, and cutting it, or collapsing blanks,
can bring the words of another keyword together.

Results:
* `dateOf_keyword`, `timeOf_keyword`, `priorityOf_keyword`: what is read behind a text.
* `understood_iff`: when a keyword that was chosen is understood.
-/

namespace TaskDesk

open Completion Phrase
open Text (words fold)

/-! ## What a category reads -/

namespace Category

/-- What the expressions of a category stand for. -/
@[reducible] def Value : Category → Type
  | priority => Priority
  | time => Clock
  | date => Date

/-- The phrases of a category. -/
def phrases : Category → List Phrase
  | priority => priorityKeywords.map fun entry => anyKeyword entry.2
  | time => ClockPhrase.kinds.map Prod.fst ++ [NamedTime.phrase]
  | date => RelativeDate.all.map (·.phrase) ++ Weekday.all.map (·.phrase) ++
      NumericDate.separators.map NumericDate.phrase

/-- What is found of a category in a text, without the rest of the text. -/
def read (today : Date) : (c : Category) → Text → Except ParseFault (Option c.Value)
  | priority, t => .ok (priorityOf t)
  | time, t => (extractTime t).map (Option.map Found.value)
  | date, t => dateOf today t

theorem ofKeyword?_of_mem {c : Category} {k : Text} (hk : k ∈ c.keywords) :
    ofKeyword? k = some c := by
  have hlower : ∀ c ∈ all, ∀ k ∈ c.keywords, Text.lower k = k := by decide +kernel
  have hk' := hlower c (by cases c <;> decide) k hk
  cases c with
  | priority =>
    rw [ofKeyword?, hk']
    exact List.find?_cons_of_pos (by simpa using hk)
  | time =>
    have hother : ∀ k ∈ time.keywords, k ∉ priority.keywords := by decide +kernel
    rw [ofKeyword?, hk', all, List.find?_cons_of_neg (by simpa using hother k hk)]
    exact List.find?_cons_of_pos (by simpa using hk)
  | date => exact ofKeyword?_date (hk'.symm ▸ hk)

end Category

/-! ## Dates -/

/-- A keyword for a date is the date of every text that it ends, if the text before it has
    none that is written with words. -/
theorem dateOf_keyword {today : Date} (hroom : (today.addDays 13).isSome = true) {k : Text}
    (hk : k ∈ Category.date.keywords) :
    ∃ date, ∀ {s tail : Text}, DateFree s → s.getLast?.any isWord = false →
      (∀ c ∈ tail, isWord c = false) → dateOf today (s ++ (k ++ tail)) = .ok (some date) := by
  have hfold : ∀ k ∈ Category.date.keywords, fold k = k := by decide +kernel
  obtain ⟨d, hd⟩ := exists_isMeantBy hk
  rw [← hfold k hk] at hd
  obtain ⟨date, hdate⟩ := Option.isSome_iff_exists.1 (d.isSome_resolve hroom)
  refine ⟨date, fun hs hbreak htail => ?_⟩
  obtain ⟨honly, o, hfind, -⟩ := hd.at_end hs hbreak htail
  rw [dateOf_eq hfind honly, hdate]

/-! ## Times -/

/-- A keyword for a time is a name of a time, or `at` with an hour and a half of the day. -/
theorem time_keyword_cases {k : Text} (hk : k ∈ Category.time.keywords) :
    k ∈ NamedTime.table.map Prod.fst ∨
      ∃ hour period, k = "at".toText ++ (" ".toText ++ (hour ++ period)) ∧
        ClockPhrase.IsHour hour ∧ period ∈ ["am".toText, "pm".toText] := by
  have shape : ∀ k ∈ Category.time.keywords, k ∈ NamedTime.table.map Prod.fst ∨
      ∃ n ∈ List.range 13, ∃ period ∈ ["am".toText, "pm".toText],
        k = "at".toText ++ (" ".toText ++ (Text.decimal n ++ period)) := by decide +kernel
  have hours : ∀ n ∈ List.range 13, (∀ c ∈ Text.decimal n, isDigit c = true) ∧
      1 ≤ (Text.decimal n).length ∧ (Text.decimal n).length ≤ 2 := by decide +kernel
  rcases shape k hk with hnamed | ⟨n, hn, period, hperiod, rfl⟩
  · exact .inl hnamed
  · exact .inr ⟨_, _, rfl, hours n hn, hperiod⟩

/-- In any case, a keyword for a time is an expression for one. -/
theorem exists_isPiece_of_fold {k piece : Text} (hk : k ∈ Category.time.keywords)
    (h : fold piece = k) : ∃ w : TimeWord, w.IsPiece piece := by
  rcases time_keyword_cases hk with hnamed | ⟨hour, period, rfl, hhour, hperiod⟩
  · exact ⟨.named, [k], (TimeFree.names_checked k hnamed).2.2.1, h⟩
  · exact ⟨.afterAt, ClockPhrase.isAtTime_of_fold h hhour hperiod⟩

theorem TimeFree.strip_eq {t : Text} (h : TimeFree t) : strip Category.time.table t = t := by
  refine Category.time.isTable.strip_of_absent (fun _ => Category.mem_keywords_of_mem_table)
    fun k hk o ho => ?_
  obtain ⟨w, hw⟩ := exists_isPiece_of_fold (Category.mem_keywords_of_mem_table hk) ho.piece
  exact h w o ⟨ho.text, hw, ho.before, ho.after⟩

/-- A keyword for a time is the time of every text that it ends, if the text before it has
    none. -/
theorem timeOf_keyword {today : Date} {k : Text} (hk : k ∈ Category.time.keywords) :
    ∃ clock : Clock, ∀ {s tail : Text}, TimeFree s → s.getLast?.any isWord = false →
      (∀ c ∈ tail, isWord c = false) →
        Category.time.read today (s ++ (k ++ tail)) = .ok (some clock) := by
  by_cases hnamed : k ∈ NamedTime.table.map Prod.fst
  · have hread : ∀ k ∈ NamedTime.table.map Prod.fst, (NamedTime.read? k).isSome = true := by
      decide +kernel
    obtain ⟨clock, hclock⟩ := Option.isSome_iff_exists.1 (hread k hnamed)
    refine ⟨clock, fun {s tail} hs hbreak htail => ?_⟩
    have hkinds := hs.find?_kinds_of_named hbreak hnamed htail
    obtain ⟨o, hfind, hname⟩ := hs.find?_named hbreak hnamed htail
    have hclocks : ClockPhrase.kinds.findSome? (ClockPhrase.find? (s ++ (k ++ tail))) = none := by
      refine List.findSome?_eq_none_iff.2 fun kind hkind => ?_
      rw [ClockPhrase.find?, hkinds kind hkind]
      rfl
    rw [Category.read, extractTime, hclocks]
    simp only [hfind, hname, hclock]
    rfl
  · have hread : ∀ k ∈ Category.time.keywords, k ∉ NamedTime.table.map Prod.fst →
        (ClockPhrase.read? (some .am) k).isSome = true ∧
          ((words k).map fold).dropLast = ["at".toText] ∧ fold k = k := by decide +kernel
    obtain ⟨hclock, hwords, hfold⟩ := hread k hk hnamed
    obtain ⟨clock, hclock⟩ := Option.isSome_iff_exists.1 hclock
    obtain ⟨hour, period, hshape, hhour, hperiod⟩ := (time_keyword_cases hk).resolve_left hnamed
    have hat := ClockPhrase.isAtTime_of_fold (hfold.trans hshape) hhour hperiod
    refine ⟨clock, fun hs hbreak htail => ?_⟩
    obtain ⟨o, rest, hfind, hpiece, hrest⟩ := hs.find?_afterAt hbreak hat hwords htail
    rw [Category.read, extractTime, ClockPhrase.kinds, List.findSome?_cons, ClockPhrase.find?]
    simp only [Option.bind_eq_bind, hfind, Option.bind_some, hpiece,
      ClockPhrase.read?_append _ hrest, hclock]
    rfl

/-! ## Priorities -/

/-- A text that ends with a keyword has the priorities of the text before it, and those that
    know the keyword. -/
theorem priorityOf_keyword {k : Text} (hk : k ∈ Category.priority.keywords) {s tail : Text}
    (hbreak : s.getLast?.any isWord = false) (htail : ∀ c ∈ tail, isWord c = false) :
    priorityOf (s ++ (k ++ tail)) =
      (priorityKeywords.find? fun entry =>
        (anyKeyword entry.2).occursIn s || decide (k ∈ entry.2)).map Prod.fst := by
  have checked : ∀ k ∈ Category.priority.keywords, fold k = k ∧ k.getLast?.any isWord = true ∧
      ∀ entry ∈ priorityKeywords, ∀ t ∈ entry.2,
        ((words t <:+ words k ∨ words k <:+ words t) → t = k) ∧
        ∀ w ∈ (words k).dropLast, (words t).getLast? ≠ some w := by decide +kernel
  obtain ⟨hfold, hlast, hothers⟩ := checked k hk
  rw [priorityOf_eq, ← List.head?_filter, ← List.head?_filter, List.filter_congr]
  intro entry hentry
  exact occursIn_anyKeyword_append (readsWords_priorityKeywords entry hentry) hbreak hlast hfold
    htail (fun t ht => (hothers entry hentry t ht).1)
    fun t ht w hw hinner => (hothers entry hentry t ht).2 w hinner hw

/-- The keyword is known as one of a priority, and the text has no priority that is looked
    for earlier. -/
def Prevails (k t : Text) : Prop :=
  ∃ own, priorityOf k = some own ∧ ∀ p, priorityOf t = some p → own.turn ≤ p.turn

/-- Behind a text a keyword is read back just where it prevails. -/
theorem exists_priorityOf_iff {k : Text} (hk : k ∈ Category.priority.keywords) {s gap tail : Text}
    (hgap : ∀ c ∈ gap, isWord c = false) (hbreak : (s ++ gap).getLast?.any isWord = false)
    (htail : ∀ c ∈ tail, isWord c = false) :
    (∃ p, priorityOf (s ++ gap ++ (k ++ tail)) = some p ∧ priorityOf k = some p) ↔
      Prevails k s := by
  have hnodup : (priorityKeywords.map Prod.fst).Nodup := by decide
  have hempty : ∀ entry ∈ priorityKeywords, (anyKeyword entry.2).occursIn [] = false := by
    decide +kernel
  have hwhole : priorityOf (s ++ gap ++ (k ++ tail)) = (priorityKeywords.find? fun entry =>
      (anyKeyword entry.2).occursIn s || decide (k ∈ entry.2)).map Prod.fst := by
    rw [priorityOf_keyword hk hbreak htail, ← List.head?_filter, ← List.head?_filter,
      List.filter_congr]
    intro entry hentry
    rw [(readsWords_priorityKeywords entry hentry).occursIn_append hgap]
  have hown : priorityOf k =
      (priorityKeywords.find? fun entry => decide (k ∈ entry.2)).map Prod.fst := by
    have halone : priorityOf ([] ++ (k ++ [])) = _ := priorityOf_keyword hk rfl (by simp)
    rw [List.nil_append, List.append_nil] at halone
    rw [halone, ← List.head?_filter, ← List.head?_filter, List.filter_congr]
    intro entry hentry
    rw [hempty entry hentry, Bool.false_or]
  simp only [Prevails, hwhole, priorityOf_eq s]
  constructor
  · rintro ⟨p, hp, hkp⟩
    exact ⟨p, hkp, (find?_or_eq_iff hnodup (hown ▸ hkp)).1 hp⟩
  · rintro ⟨p, hkp, hturn⟩
    exact ⟨p, (find?_or_eq_iff hnodup (hown ▸ hkp)).2 hturn, hkp⟩

/-! ## Keywords that were chosen -/

/-- **Keywords that are understood.** For a text of which no phrase of its category occurs, a
    keyword of a time or a date that is chosen is always read back as what it means alone, and
    one of a priority just where it prevails over what is left of the text. -/
theorem understood_iff {c : Category} {k t : Text} (hk : k ∈ c.keywords)
    (hnone : ∀ phrase ∈ c.phrases, phrase.occursIn t = false) {today : Date}
    (hroom : (today.addDays 13).isSome = true) (projectNames : List Text) :
    (∃ v : c.Value, c.read today (Completion.apply .create t k projectNames).text = .ok (some v) ∧
        c.read today k = .ok (some v)) ↔
      (c = .priority → Prevails k (withoutKeywords .priority t)) := by
  obtain ⟨gap, hgap, hbreak, htext⟩ :=
    exists_text_apply t (Category.ofKeyword?_of_mem hk) projectNames
  have hspace : ∀ c ∈ " ".toText, isWord c = false := by decide
  have hnothing : ∀ c ∈ ([] : Text), isWord c = false := by simp
  rw [htext]
  cases c with
  | priority =>
    have hiff := exists_priorityOf_iff hk hgap hbreak hspace
    simp only [Category.read, Except.ok.injEq, hiff, true_imp_iff]
  | time =>
    obtain ⟨clock, hclock⟩ := timeOf_keyword hk
    have hfree : TimeFree t := TimeFree.of_occursIn
      (fun kind hkind => hnone kind.1 (List.mem_append_left _ (List.mem_map_of_mem hkind)))
      (hnone _ (List.mem_append_right _ (List.mem_singleton.2 rfl)))
    have hleft : TimeFree (withoutKeywords .time t ++ gap) := by
      rw [withoutKeywords_eq_strip, hfree.strip_eq]
      exact hfree.tidy.append hgap
    have halone := hclock .nil rfl hnothing
    rw [List.nil_append, List.append_nil] at halone
    exact iff_of_true ⟨clock, hclock hleft hbreak hspace, halone⟩ (by simp)
  | date =>
    obtain ⟨date, hdate⟩ := dateOf_keyword hroom hk
    have hfree : DateFree t := DateFree.of_occursIn
      (fun r => hnone _ (List.mem_append_left _ (List.mem_append_left _
        (List.mem_map_of_mem (by cases r <;> decide)))))
      fun w => hnone _ (List.mem_append_left _ (List.mem_append_right _
        (List.mem_map_of_mem (by cases w <;> decide))))
    have hleft : DateFree (withoutKeywords .date t ++ gap) := by
      rw [withoutKeywords_eq_strip, hfree.strip_eq]
      exact hfree.tidy.append hgap
    have halone := hdate .nil rfl hnothing
    rw [List.nil_append, List.append_nil] at halone
    exact iff_of_true ⟨date, hdate hleft hbreak hspace, halone⟩ (by simp)

/-- The text ends with words that make one expression with the keyword. -/
theorem understood_iff_evening :
    let text := "call mum in  the".toText
    let today : Date := { year := 2025, month := 1, day := 15 }
    (Completion.apply .create text "evening".toText []).text = "call mum in the evening ".toText ∧
      ∃ v : Category.time.Value,
        Category.time.read today (Completion.apply .create text "evening".toText []).text =
            .ok (some v) ∧
          Category.time.read today "evening".toText = .ok (some v) :=
  ⟨by decide +kernel,
    (understood_iff (c := .time) (by decide) (by decide +kernel) (by decide +kernel) []).2
      (by simp)⟩

/-- The keyword `normal` is offered and not known. Cutting it brings the words of a keyword
    together that is looked for earlier, and so does collapsing two spaces. -/
theorem not_understood_normal :
    let today : Date := { year := 2025, month := 1, day := 15 }
    let text := fun input chosen : String =>
      (Completion.apply .create input.toText chosen.toText []).text
    (∀ input ∈ ["call mum", "when i normal can", "tidy up high  priority"],
      ∀ phrase ∈ Category.priority.phrases, phrase.occursIn input.toText = false) ∧
    (∀ chosen ∈ ["normal", "moderate"], chosen.toText ∈ Category.priority.keywords) ∧
    (text "call mum" "normal" = "call mum normal ".toText ∧
      ¬∃ v : Priority, Category.priority.read today (text "call mum" "normal") = .ok (some v)) ∧
    (text "when i normal can" "moderate" = "when i can moderate ".toText ∧
      priorityOf (text "when i normal can" "moderate") = some .low) ∧
    (text "tidy up high  priority" "moderate" = "tidy up high priority moderate ".toText ∧
      priorityOf (text "tidy up high  priority" "moderate") = some .high) ∧
    priorityOf "moderate".toText = some .medium := by
  have hnormal : priorityOf (Completion.apply .create "call mum".toText "normal".toText []).text =
      none := by decide +kernel
  refine ⟨by decide +kernel, by decide +kernel, ⟨by decide +kernel, ?_⟩, by decide +kernel,
    by decide +kernel, by decide +kernel⟩
  rintro ⟨v, hv⟩
  rw [Category.read, hnormal] at hv
  cases hv

end TaskDesk
