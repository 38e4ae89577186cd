import TaskDesk.Draft.Basic
import TaskDesk.Proofs.Draft.DateWord
import TaskDesk.Proofs.Draft.PriorityWord
import TaskDesk.Proofs.Draft.TimeWord
import TaskDesk.Proofs.Draft.WordLoss
import TaskDesk.Proofs.Phrase.Alone
import TaskDesk.Proofs.Phrase.Seam

/-!
# What is found is told by the piece that is cut

A date, a time, a priority or an opener is told by one piece of the text and by nothing
else: the same is found in the piece alone, and nothing is left of it. Expressions that are
looked for earlier, and are not found in the text or have no value there, are not found in
the piece: a piece of whole words has no more expressions of words than the text, and
numbers of different kinds are told apart by a character that one of them needs and the
other one lacks. A time after `at` may end with blanks. In the piece alone they are left,
and trimming takes them.

Results:
* `extractDate_alone`, `extractTime_alone`, `extractPriority_alone`,
  `withoutOpener?_alone`: what is found in the piece alone.
* `isLocal_extractions`: each extraction is local to the piece it cuts.
-/

namespace TaskDesk

open Phrase

/-! ## Extractions that are local -/

/-- What is found is told by the characters from some position up to a later one. The text
    without them, trimmed, is the residual; and in these characters alone the same value is
    found, with nothing left. Where nothing is found, the text stays as it is. -/
def IsLocal {α : Type} (extract : Text → Except ParseFault (Option (Found α))) : Prop :=
  ∀ t found, extract t = .ok found →
    (found = none → Reading.rest found t = t) ∧
    ∀ f, found = some f → ∃ i j, i < j ∧ j ≤ t.length ∧
      Reading.rest found t = Text.trim (t.take i ++ t.drop j) ∧
      extract ((t.take j).drop i) = .ok (some ⟨f.value, []⟩)

/-- The value is found in a piece of the text alone, and the residual is the text without
    the piece. -/
def FoundAlone {α : Type} (extract : Text → Except ParseFault (Option (Found α))) (t : Text)
    (f : Found α) : Prop :=
  ∃ o : Occurrence, o.before ++ o.piece ++ o.after = t ∧ o.piece ≠ [] ∧
    f.residual = o.residual ∧ extract o.piece = .ok (some ⟨f.value, []⟩)

theorem isLocal_of_alone {α : Type} {extract : Text → Except ParseFault (Option (Found α))}
    (h : ∀ {t f}, extract t = .ok (some f) → FoundAlone extract t f) : IsLocal extract := by
  intro t found hfound
  refine ⟨fun hnone => by rw [hnone]; rfl, ?_⟩
  rintro f rfl
  obtain ⟨o, rfl, hne, hresidual, halone⟩ := h hfound
  have hpos := List.length_pos_iff.2 hne
  refine ⟨o.before.length, (o.before ++ o.piece).length, ?_, ?_, ?_, ?_⟩
  · rw [List.length_append]
    omega
  · simp
  · rw [List.drop_left, List.append_assoc, List.take_left]
    exact hresidual
  · rwa [List.take_left, List.drop_left]

/-! ## Pieces of whole words -/

/-- What does not stand in the text does not stand in a piece of whole words. -/
theorem Phrase.Absent.piece {R : Text → Prop} {t : Text} (h : Absent R t) {o : Occurrence}
    (ho : o.before ++ o.piece ++ o.after = t) (hbefore : o.before.getLast?.any isWord = false)
    (hafter : o.after.head?.any isWord = false) : Absent R o.piece :=
  ((ho ▸ h : Absent R (o.before ++ o.piece ++ o.after)).left hafter).right hbefore

/-- The first of some phrases that is found in a text is the first one in its piece. -/
theorem findSome?_alone {ι β : Type} {l : List ι} {phrase : ι → Phrase} {R : ι → Text → Prop}
    (hreads : ∀ i ∈ l, ReadsWords (phrase i) (R i))
    (halone : ∀ i ∈ l, ∀ {t : Text} {o : Occurrence}, (phrase i).find? t = some o →
      (phrase i).find? o.piece = some ⟨[], o.piece, []⟩)
    {found : ι → Occurrence → β} {t : Text} {b : β}
    (h : (l.findSome? fun i => ((phrase i).find? t).map (found i)) = some b) :
    ∃ i ∈ l, ∃ o, (phrase i).find? t = some o ∧ b = found i o ∧
      (l.findSome? fun i => ((phrase i).find? o.piece).map (found i)) =
        some (found i ⟨[], o.piece, []⟩) := by
  obtain ⟨earlier, i, later, rfl, hi, hearlier⟩ := List.findSome?_eq_some_iff.1 h
  obtain ⟨o, ho, rfl⟩ := Option.map_eq_some_iff.1 hi
  have hmem : i ∈ earlier ++ i :: later := by simp
  refine ⟨i, hmem, o, ho, rfl, ?_⟩
  refine List.findSome?_eq_some_iff.2 ⟨earlier, i, later, rfl, ?_, fun j hj => ?_⟩
  · rw [halone i hmem ho]
    rfl
  · have hstands := ((hreads i hmem).stands_of_find? ho).1
    have hj' : j ∈ earlier ++ i :: later := List.mem_append_left _ hj
    have habsent := (hreads j hj').find?_eq_none_iff.1 (Option.map_eq_none_iff.1 (hearlier j hj))
    rw [Option.map_eq_none_iff, (hreads j hj').find?_eq_none_iff]
    exact habsent.piece hstands.text hstands.before hstands.after

/-! ## Dates -/

theorem DateWord.find?_alone (d : DateWord) {t : Text} {o : Occurrence}
    (h : d.phrase.find? t = some o) : d.phrase.find? o.piece = some ⟨[], o.piece, []⟩ := by
  have hreads := d.readsWords_phrase
  cases d with
  | relative r =>
    cases r with
    | today => exact hreads.find?_alone (isFree_letters _) h
    | tomorrow => exact hreads.find?_alone (isFree_letters _) h
    | nextWeek => exact hreads.find?_alone rfl h
    | thisWeekend => exact hreads.find?_alone rfl h
    | nextWeekend => exact hreads.find?_alone rfl h
  | weekday w => exact hreads.find?_alone (isFree_letters _) h

namespace NumericDate

/-- The numbers of a date with their separators. -/
def numbers (sep : CodePoint) : Phrase :=
  .inOrder [.many isDigit 1 (some 2), .one (· == sep), .many isDigit 1 (some 2),
    .maybe (.inOrder [.one (· == sep), .many isDigit 2 (some 4)])]

theorem guards_phrase (sep : CodePoint) :
    Guards (fun before _ => !before.any adjoins) (fun _ after => !after.any adjoins)
      (numbers sep) (phrase sep) := by
  intro p
  rw [← guards_inOrder]
  simp only [phrase, numbers, inOrder, ends, List.flatMap_assoc]

theorem phrase_alone {sep : CodePoint} {t : Text} {o : Occurrence}
    (h : (phrase sep).find? t = some o) : (phrase sep).find? o.piece = some ⟨[], o.piece, []⟩ :=
  Phrase.find?_alone (guards_phrase sep) rfl (cutsWords_phrase sep) h rfl rfl

/-- A date of numbers stands as whole words. -/
theorem not_isWord_around {sep : CodePoint} {t : Text} {o : Occurrence}
    (h : (phrase sep).find? t = some o) :
    o.before.getLast?.any isWord = false ∧ o.after.head?.any isWord = false := by
  have hmem := List.mem_of_head? (head?_ends_of_findFrom h)
  have hstart := (guards_phrase sep).passes_of_mem_ends hmem
  rw [guards_phrase, if_pos hstart] at hmem
  refine ⟨?_, not_isWord_of_not_adjoins (List.mem_filter.1 hmem).2⟩
  rw [← List.head?_reverse]
  exact not_isWord_of_not_adjoins hstart

/-- Without its separator there is no date of numbers. -/
theorem find?_piece_of_ne {thisYear : Nat} {sep other : CodePoint} (hother : isDigit other = false)
    (hne : other ≠ sep) {t : Text} {o : Occurrence} (h : (phrase sep).find? t = some o) :
    find? thisYear o.piece other = none := by
  have hdigit : ∀ c, isDigit c = true → (c != other) = true := by
    rintro c hc
    refine bne_iff_ne.2 ?_
    rintro rfl
    exact absurd hc (by simp [hother])
  have hsep : ∀ c : CodePoint, (c == sep) = true → (c != other) = true := fun c hc =>
    bne_iff_ne.2 fun hc' => hne (hc'.symm.trans (eq_of_beq hc))
  have huses : Uses (fun c => !(c == other)) (phrase sep) :=
    ⟨trivial, hdigit, hsep, hdigit, ⟨⟨hsep, hdigit⟩, trivial⟩, trivial⟩
  have hneeds : Needs (· == other) (phrase other) := .inr (.inr (.inl fun _ hc => hc))
  rw [find?, huses.find?_piece hneeds h]
  rfl

end NumericDate

theorem value_of_foundDate {date : Option Date} {o : Occurrence} {f : Found Date}
    (h : foundDate date o = .ok (some f)) : date = some f.value := by
  unfold foundDate at h
  split at h
  · cases h
    rfl
  · cases h

theorem extractDate_alone {today : Date} {t : Text} {f : Found Date}
    (h : extractDate today t = .ok (some f)) : FoundAlone (extractDate today) t f := by
  rw [extractDate_eq] at h
  split at h
  · rename_i d o hfind
    obtain ⟨d', -, o', ho, heq, halone⟩ := findSome?_alone (fun d _ => d.readsWords_phrase)
      (fun d _ => d.find?_alone) hfind
    cases heq
    refine ⟨o, find?_append ho, d.readsWords_phrase.cutsWords.piece_ne_nil ho,
      residual_of_foundDate h, ?_⟩
    rw [extractDate_eq, halone]
    dsimp only
    rw [value_of_foundDate h]
    rfl
  · rename_i hwords
    obtain ⟨sep, hsep, hfind⟩ := List.exists_of_findSome?_eq_some (Except.ok.inj h)
    simp only [NumericDate.find?, Option.bind_eq_bind, Option.bind_eq_some_iff] at hfind
    obtain ⟨o, ho, date, hdate, heq⟩ := hfind
    cases heq
    obtain ⟨hbefore, hafter⟩ := NumericDate.not_isWord_around ho
    have hnone : ∀ d ∈ DateWord.all, d.phrase.find? o.piece = none := by
      intro d hd
      have habsent := List.findSome?_eq_none_iff.1 hwords d hd
      rw [Option.map_eq_none_iff, d.readsWords_phrase.find?_eq_none_iff] at habsent
      rw [d.readsWords_phrase.find?_eq_none_iff]
      exact habsent.piece (find?_append ho) hbefore hafter
    have hwords' : (DateWord.all.findSome? fun d => (d.phrase.find? o.piece).map fun o => (d, o)) =
        none :=
      List.findSome?_eq_none_iff.2 fun d hd => Option.map_eq_none_iff.2 (hnone d hd)
    refine ⟨o, find?_append ho, (NumericDate.cutsWords_phrase sep).piece_ne_nil ho, rfl, ?_⟩
    rw [extractDate_eq, hwords']
    have hdigits : ∀ sep ∈ NumericDate.separators, isDigit sep = false := by decide +kernel
    refine congrArg Except.ok (findSome?_of_only hsep (fun other hother hne =>
      NumericDate.find?_piece_of_ne (hdigits other hother) hne ho) ?_)
    simp only [NumericDate.find?, Option.bind_eq_bind, NumericDate.phrase_alone ho,
      Option.bind_some, hdate]
    rfl

/-! ## Times of day -/

namespace ClockPhrase

theorem head?_of_forall_eq {α : Type} {l : List α} {a : α} (ha : a ∈ l) (h : ∀ x ∈ l, x = a) :
    l.head? = some a := by
  cases l with
  | nil => cases ha
  | cons x l => exact congrArg some (h x List.mem_cons_self)

/-- Among blanks the second part of a time after `at` is empty: at every other end there is
    a blank on each side, or nothing behind the last blank. -/
theorem head?_ends_tail {before rest : Text} (hbefore : before.head?.any isWord = true)
    (hrest : ∀ c ∈ rest, isBlank c = true) :
    ((tail.ends ⟨before, rest⟩).filter
      (·.passes fun before after => before.any isWord != after.any isWord)).head? =
        some ⟨before, rest⟩ := by
  have hword : ∀ l : Text, (∀ c ∈ l, isBlank c = true) → ∀ c ∈ l, isWord c = false :=
    fun l hl c hc => not_isWord_of_isBlank (hl c hc)
  refine head?_of_forall_eq (List.mem_filter.2 ⟨?_, ?_⟩) ?_
  · exact (reads_tail _ _).2 ⟨[], ⟨[], [], rfl, by simp, .inr rfl⟩, rfl, rfl⟩
  · simp [Place.passes, hbefore, Text.head?_of_forall (hword rest hrest)]
  · rintro ⟨before', after⟩ hq
    obtain ⟨hends, hpasses⟩ := List.mem_filter.1 hq
    obtain ⟨read, -, hread, hbefore'⟩ := (reads_tail _ _).1 hends
    simp only at hread hbefore'
    subst hbefore' hread
    obtain ⟨hread, hafter⟩ := List.forall_mem_append.1 hrest
    cases hreversed : read.reverse with
    | nil => simp [List.reverse_eq_nil_iff.1 hreversed]
    | cons c more =>
      have hmem : c ∈ read := by
        rw [← List.mem_reverse, hreversed]
        exact List.mem_cons_self
      simp [Place.passes, hreversed, hword read hread c hmem,
        Text.head?_of_forall (hword after hafter)] at hpasses

/-- A time after `at` is found in its piece, but for blanks that the piece may end with. -/
theorem afterAt_alone {t : Text} {o : Occurrence} (h : afterAt.find? t = some o) :
    ∃ kept rest, o.piece = kept ++ rest ∧ (∀ c ∈ rest, isBlank c = true) ∧
      afterAt.find? o.piece = some ⟨[], kept, rest⟩ := by
  have hcuts : CutsWords afterAt := cutsWords_kinds (afterAt, some .am) (by simp [kinds])
  have hfree : (inOrder [letters "at".toText, blanks, hour, maybe minutes, gap,
    maybe period]).isFree = true := rfl
  cases hlast : o.piece.getLast?.any isWord with
  | true =>
    exact ⟨o.piece, [], by simp, by simp, find?_alone_whole hfree hcuts h hlast⟩
  | false =>
    have hfirst : (none : Option CodePoint).any isWord != o.piece.head?.any isWord := by
      rw [hcuts.first_of_find? h]
      rfl
    obtain ⟨kept, rest, hpiece, hfront, htail, hnext⟩ := exists_front_alone
      (guards_inOrder _ _ _) ends_parts rfl rfl hfree hcuts h hfirst (by simp [hlast])
    obtain ⟨front, hIsFront, -, hbefore⟩ := (reads_front _ _).1 hfront
    obtain ⟨tail, hIsTail, hafter, -⟩ := (reads_tail _ _).1 htail
    obtain rfl : kept = front := by simpa using hbefore
    obtain rfl : rest = tail := by simpa using hafter
    -- The piece ends with the blanks of its second part, of which there is one at least.
    have hne : rest ≠ [] := by
      rintro rfl
      rw [hpiece, List.append_nil, hIsFront.last] at hlast
      cases hlast
    have hblank : ∀ c ∈ rest, isBlank c = true := by
      refine hIsTail.blank ?_
      rwa [hpiece, List.getLast?_append_of_ne_nil _ hne] at hlast
    have hhead := hnext _ (head?_ends_tail (by simpa using hIsFront.last) hblank)
    have hkept : kept ≠ [] := by
      rintro rfl
      cases hIsFront.first
    rw [hpiece] at hhead ⊢
    exact ⟨kept, rest, rfl, hblank, find?_of_head?_ends rest hkept hhead⟩

/-- A clock time is found in its piece, with nothing left. -/
theorem find?_kind_alone : ∀ kind ∈ kinds, ∀ {t : Text} {f : Found Clock}, find? t kind = some f →
    ∃ o, kind.1.find? t = some o ∧ f.residual = o.residual ∧
      find? o.piece kind = some ⟨f.value, []⟩ := by
  intro kind hkind t f hfind
  simp only [find?, Option.bind_eq_bind, Option.bind_eq_some_iff] at hfind
  obtain ⟨o, ho, time, htime, heq⟩ := hfind
  cases heq
  refine ⟨o, ho, rfl, ?_⟩
  have hpiece : ∃ kept rest, o.piece = kept ++ rest ∧ (∀ c ∈ rest, isBlank c = true) ∧
      kind.1.find? o.piece = some ⟨[], kept, rest⟩ := by
    simp only [kinds, List.mem_cons, List.not_mem_nil, or_false] at hkind
    rcases hkind with rfl | rfl | rfl
    · exact afterAt_alone ho
    · exact ⟨o.piece, [], by simp, by simp, readsWords_twelveHour.find?_alone rfl ho⟩
    · exact ⟨o.piece, [], by simp, by simp, readsWords_hourMinutes.find?_alone rfl ho⟩
  obtain ⟨kept, rest, hsplit, hrest, hkept⟩ := hpiece
  rw [hsplit, read?_append _ hrest] at htime
  have hleft : Text.trim rest = [] := Text.trimBy_append_of_forall hrest []
  simp only [find?, Option.bind_eq_bind, hkept, Option.bind_some, htime]
  show some (Found.mk time (Text.trim rest)) = _
  rw [hleft]

/-- In the piece of a clock time no kind is found that is looked for earlier. -/
theorem findSome?_kinds_alone : ∀ kind ∈ kinds, ∀ {t : Text} {o : Occurrence} {f : Found Clock},
    kind.1.find? t = some o → find? o.piece kind = some f →
      kinds.findSome? (find? o.piece) = some f := by
  have hnone : ∀ {kind : Phrase × Option Period} {piece : Text}, kind.1.find? piece = none →
      find? piece kind = none := by
    intro kind piece h
    rw [find?, h]
    rfl
  have hnoT : Uses (fun c => !isLetter 't' c) hourMinutes :=
    uses_hourMinutes (by decide) (by decide)
  have hnoM : Uses (fun c => !isLetter 'm' c) hourMinutes :=
    uses_hourMinutes (by decide) (by decide)
  intro kind hkind t o f ho hfind
  simp only [kinds, List.mem_cons, List.not_mem_nil, or_false] at hkind
  rcases hkind with rfl | rfl | rfl
  · rw [kinds, List.findSome?_cons, hfind]
  · have hat := uses_twelveHour.find?_piece needs_afterAt ho
    rw [kinds, List.findSome?_cons, hnone hat, List.findSome?_cons, hfind]
  · have hat := hnoT.find?_piece needs_afterAt ho
    have htwelve := hnoM.find?_piece needs_twelveHour ho
    rw [kinds, List.findSome?_cons, hnone hat, List.findSome?_cons, hnone htwelve,
      List.findSome?_cons, hfind]

end ClockPhrase

theorem NamedTime.phrase_alone {t : Text} {o : Occurrence} (h : NamedTime.phrase.find? t = some o) :
    NamedTime.phrase.find? o.piece = some ⟨[], o.piece, []⟩ :=
  NamedTime.readsWords_phrase.find?_alone rfl h

theorem extractTime_alone {t : Text} {f : Found Clock} (h : extractTime t = .ok (some f)) :
    FoundAlone extractTime t f := by
  unfold extractTime at h
  split at h
  · rename_i found hfind
    cases h
    obtain ⟨kind, hkind, hclock⟩ := List.exists_of_findSome?_eq_some hfind
    obtain ⟨o, ho, hresidual, halone⟩ := ClockPhrase.find?_kind_alone kind hkind hclock
    refine ⟨o, find?_append ho, (ClockPhrase.cutsWords_kinds kind hkind).piece_ne_nil ho,
      hresidual, ?_⟩
    rw [extractTime, ClockPhrase.findSome?_kinds_alone kind hkind ho halone]
  · split at h
    · cases h
    · rename_i o hfind
      simp only at h
      split at h
      · rename_i time htime
        cases h
        have hclocks : ClockPhrase.kinds.findSome? (ClockPhrase.find? o.piece) = none := by
          refine List.findSome?_eq_none_iff.2 fun kind hkind => ?_
          rw [ClockPhrase.find?,
            NamedTime.uses_phrase.find?_piece (ClockPhrase.needs_kinds kind hkind) hfind]
          rfl
        refine ⟨o, find?_append hfind, NamedTime.cutsWords_phrase.piece_ne_nil hfind, rfl, ?_⟩
        simp only [extractTime, hclocks, NamedTime.phrase_alone hfind, htime]
        rfl
      · cases h

/-! ## Priorities and openers -/

theorem anyKeyword_alone {keywords : List Text} (hne : keywords ≠ [])
    (hreads : ReadsWords (anyKeyword keywords) (Text.fold · ∈ keywords)) {t : Text} {o : Occurrence}
    (h : (anyKeyword keywords).find? t = some o) :
    (anyKeyword keywords).find? o.piece = some ⟨[], o.piece, []⟩ := by
  refine hreads.find?_alone (isFree_oneOf (by simpa using hne) fun phrase hphrase => ?_) h
  obtain ⟨t, -, rfl⟩ := List.mem_map.1 hphrase
  exact isFree_letters t

theorem extractPriority_alone {t : Text} {f : Found Priority} (h : extractPriority t = some f) :
    FoundAlone (fun t => .ok (extractPriority t)) t f := by
  have hne : ∀ entry ∈ priorityKeywords, entry.2 ≠ [] := by decide
  obtain ⟨entry, hentry, o, ho, rfl, halone⟩ := findSome?_alone readsWords_priorityKeywords
    (fun entry hentry => anyKeyword_alone (hne entry hentry)
      (readsWords_priorityKeywords entry hentry)) h
  exact ⟨o, find?_append ho, (readsWords_priorityKeywords entry hentry).cutsWords.piece_ne_nil ho,
    rfl, congrArg Except.ok halone⟩

theorem withoutOpener?_alone {t residual : Text} (h : withoutOpener? t = some residual) :
    FoundAlone (fun t => .ok ((withoutOpener? t).map (Found.mk ()))) t ⟨(), residual⟩ := by
  obtain ⟨o, ho, rfl⟩ := Option.map_eq_some_iff.1 h
  refine ⟨o, find?_append ho, readsWords_reminderOpeners.cutsWords.piece_ne_nil ho, rfl, ?_⟩
  simp only [withoutOpener?, anyKeyword_alone (by decide) readsWords_reminderOpeners ho]
  rfl

/-- **Extractions are local.** A date, a time, a priority and an opener are each told by the
    piece that is cut out of the text. -/
theorem isLocal_extractions :
    (∀ today, IsLocal (extractDate today)) ∧ IsLocal extractTime ∧
      IsLocal (fun t => .ok (extractPriority t)) ∧
      IsLocal fun t => .ok ((withoutOpener? t).map (Found.mk ())) := by
  refine ⟨fun today => isLocal_of_alone extractDate_alone, isLocal_of_alone extractTime_alone,
    isLocal_of_alone fun h => extractPriority_alone (Except.ok.inj h),
    isLocal_of_alone fun h => ?_⟩
  obtain ⟨residual, hresidual, rfl⟩ := Option.map_eq_some_iff.1 (Except.ok.inj h)
  exact withoutOpener?_alone hresidual

/-- A date, a time, a priority and an opener, each found in one text and in a piece of it. -/
theorem isLocal_extractions_call :
    let today : Date := { year := 2025, month := 1, day := 15 }
    let tomorrow : Date := { year := 2025, month := 1, day := 16 }
    let five : Clock := ⟨17, "00".toText, by decide, by decide⟩
    let t := "remind me to call mum tomorrow at 5pm asap".toText
    (∃ i j, i < j ∧ j ≤ t.length ∧
      "remind me to call mum  at 5pm asap".toText = Text.trim (t.take i ++ t.drop j) ∧
      extractDate today ((t.take j).drop i) = .ok (some ⟨tomorrow, []⟩)) ∧
    (∃ i j, i < j ∧ j ≤ t.length ∧
      "remind me to call mum tomorrow  asap".toText = Text.trim (t.take i ++ t.drop j) ∧
      extractTime ((t.take j).drop i) = .ok (some ⟨five, []⟩)) ∧
    (∃ i j, i < j ∧ j ≤ t.length ∧
      "remind me to call mum tomorrow at 5pm".toText = Text.trim (t.take i ++ t.drop j) ∧
      extractPriority ((t.take j).drop i) = some ⟨.high, []⟩) ∧
    ∃ i j, i < j ∧ j ≤ t.length ∧
      "call mum tomorrow at 5pm asap".toText = Text.trim (t.take i ++ t.drop j) ∧
      withoutOpener? ((t.take j).drop i) = some [] := by
  intro today tomorrow five t
  obtain ⟨hdate, htime, hpriority, hopener⟩ := isLocal_extractions
  refine ⟨(hdate today t _ (by decide +kernel)).2 ⟨tomorrow, _⟩ rfl,
    (htime t _ (by decide +kernel)).2 ⟨five, _⟩ rfl, ?_, ?_⟩
  · obtain ⟨i, j, hij, hj, hrest, halone⟩ :=
      (hpriority t (some ⟨.high, "remind me to call mum tomorrow at 5pm".toText⟩)
        (by decide +kernel)).2 _ rfl
    exact ⟨i, j, hij, hj, hrest, Except.ok.inj halone⟩
  · obtain ⟨i, j, hij, hj, hrest, halone⟩ :=
      (hopener t (some ⟨(), "call mum tomorrow at 5pm asap".toText⟩) (by decide +kernel)).2 _ rfl
    obtain ⟨residual, hresidual, heq⟩ := Option.map_eq_some_iff.1 (Except.ok.inj halone)
    cases heq
    exact ⟨i, j, hij, hj, hrest, hresidual⟩

/-- Behind the blank of this time there is no half of the day, since the word goes on. -/
example :
    let five : Clock := ⟨5, "00".toText, by decide, by decide⟩
    extractTime "call at 5 pmx".toText = .ok (some ⟨five, "call pmx".toText⟩) ∧
      extractTime "at 5 ".toText = .ok (some ⟨five, []⟩) := by
  decide +kernel

end TaskDesk
