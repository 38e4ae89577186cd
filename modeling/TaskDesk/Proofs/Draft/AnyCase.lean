import TaskDesk.Proofs.Draft.ClockParts
import TaskDesk.Proofs.Draft.ForeignName
import TaskDesk.Proofs.Draft.Stages
import TaskDesk.Proofs.Draft.WordLoss
import TaskDesk.Proofs.Phrase.AnyCase

/-!
# Readings of folded texts

Each stage of a reading finds the same in a folded text, and leaves the folded rest. Only the
halves of the day and the names of times are looked up in lower case, which on ASCII texts is
folding. So two ASCII texts with the same lower case have the same reading, but for the case of
the title.

Results:
* `extractDate_fold`, `extractTime_fold`, `extractPriority_fold`, `withoutOpener?_fold`: the
  stages of a reading.
* `Reading.ofText_fold`: the reading of a folded ASCII text.
* `Reading.agreeInAnyCase`: readings of texts with the same lower case.
-/

namespace TaskDesk

open Phrase
open Text (fold)

/-- The value is found in the folded text. -/
def Found.fold {α : Type} (f : Found α) : Found α := { f with residual := Text.fold f.residual }

/-- Where each member gives the folded value, so does the first that gives a value. -/
theorem findSome?_map {α β γ : Type} {l : List α} {f : α → Option β} {f' : α → Option γ}
    {g : β → γ} (h : ∀ a ∈ l, f' a = (f a).map g) : l.findSome? f' = (l.findSome? f).map g := by
  induction l with
  | nil => rfl
  | cons a l ih =>
    obtain ⟨ha, hl⟩ := List.forall_mem_cons.1 h
    rw [List.findSome?_cons, List.findSome?_cons, ha, ih hl]
    cases f a <;> rfl

/-! ## Dates -/

theorem DateWord.ignoresCase_phrase (d : DateWord) : d.phrase.IgnoresCase := by
  cases d with
  | relative r =>
    cases r <;> simp [phrase, RelativeDate.phrase, RelativeDate.twoWords, inOrder]
  | weekday w => simp [phrase, Weekday.phrase, inOrder]

namespace NumericDate

theorem adjoins_foldLetter (c : CodePoint) : adjoins (foldLetter c) = adjoins c := by
  rw [adjoins, isWord_foldLetter, foldLetter_beq_mark (by decide), foldLetter_beq_mark (by decide),
    adjoins]

theorem ignoresCase_phrase {sep : CodePoint} (hsep : sep ∈ separatingMarks) :
    (phrase sep).IgnoresCase := by
  have hany (c : Option CodePoint) : (c.map foldLetter).any adjoins = c.any adjoins := by
    simp only [Option.any_map, adjoins_foldLetter]
  have hbefore : IgnoresCase (here fun before _ => !before.any adjoins) := fun before _ =>
    congrArg not (hany before)
  have hafter : IgnoresCase (here fun _ after => !after.any adjoins) := fun _ after =>
    congrArg not (hany after)
  simp [phrase, inOrder, ignoresCase_mark hsep, hbefore, hafter]

theorem read?_fold {sep : CodePoint} (hsep : sep ∈ separatingMarks) (thisYear : Nat)
    (piece : Text) : read? thisYear sep (fold piece) = read? thisYear sep piece := by
  rw [read?, read?, Text.split_fold hsep]
  rcases Text.split sep piece with _ | ⟨_, _ | ⟨_, _ | ⟨_, _ | _⟩⟩⟩ <;>
    simp [fullYear, Text.number_fold, Text.length_fold]

theorem find?_fold {sep : CodePoint} (hsep : sep ∈ separatingMarks) (thisYear : Nat) (t : Text) :
    find? thisYear (fold t) sep = (find? thisYear t sep).map Found.fold := by
  simp only [find?, Phrase.find?_fold (ignoresCase_phrase hsep), Option.bind_eq_bind,
    Option.bind_map]
  cases (phrase sep).find? t with
  | none => rfl
  | some o =>
    simp only [Option.bind_some, Function.comp_apply, Occurrence.residual_fold]
    rw [Occurrence.fold, read?_fold hsep]
    cases read? thisYear sep o.piece <;> rfl

end NumericDate

/-- **The date** in a folded text. -/
theorem extractDate_fold (today : Date) (t : Text) :
    extractDate today (fold t) = (extractDate today t).map (Option.map Found.fold) := by
  have hwords : (DateWord.all.findSome? fun d => (d.phrase.find? (fold t)).map fun o => (d, o)) =
      (DateWord.all.findSome? fun d => (d.phrase.find? t).map fun o => (d, o)).map
        fun found => (found.1, found.2.fold) :=
    findSome?_map fun d _ => by
      rw [Phrase.find?_fold d.ignoresCase_phrase, Option.map_map, Option.map_map]
      rfl
  have hmarks : ∀ sep ∈ NumericDate.separators, sep ∈ separatingMarks := by decide
  have hnumbers : NumericDate.separators.findSome? (NumericDate.find? today.year (fold t)) =
      (NumericDate.separators.findSome? (NumericDate.find? today.year t)).map Found.fold :=
    findSome?_map fun sep hsep => NumericDate.find?_fold (hmarks sep hsep) today.year t
  rw [extractDate_eq, extractDate_eq, hwords, hnumbers]
  cases DateWord.all.findSome? fun d => (d.phrase.find? t).map fun o => (d, o) with
  | none => rfl
  | some found =>
    obtain ⟨d, o⟩ := found
    simp only [Option.map_some, foundDate, Occurrence.residual_fold]
    cases d.resolve today <;> rfl

/-! ## Times -/

namespace ClockPhrase

theorem ignoresCase {kind : Phrase × Option Period} (h : kind ∈ kinds) : kind.1.IgnoresCase := by
  have hcolon : IgnoresCase (.one (· == ':')) := ignoresCase_mark (by decide)
  simp only [kinds, List.mem_cons, List.not_mem_nil, or_false] at h
  rcases h with rfl | rfl | rfl <;>
    simp [afterAt, twelveHour, hourMinutes, hour, minutes, gap, period, inOrder, oneOf, hcolon]

/-- The parts of a clock time are those of the folded piece. -/
theorem Parts.IsWritten.fold {w : Parts} {piece : Text} (h : w.IsWritten piece) :
    w.IsWritten (Text.fold piece) := by
  obtain ⟨opening, gap, name, rest, rfl, hopening, hhour, hminutes, hgap, hname, hrest⟩ := h
  have hcolon : Text.fold (w.minutes.elim [] (.char ':' :: ·)) =
      w.minutes.elim [] (.char ':' :: ·) := by
    cases hcase : w.minutes with
    | none => rfl
    | some digits =>
      exact congrArg (.char ':' :: ·) (Text.fold_of_isDigit (hminutes digits hcase).1)
  refine ⟨Text.fold opening, Text.fold gap, Text.fold name, Text.fold rest, ?_,
    (Text.forall_mem_fold isDigit_foldLetter).2 hopening, hhour, hminutes,
    (Text.forall_mem_fold isBlank_foldLetter).2 hgap, ?_,
    (Text.forall_mem_fold isBlank_foldLetter).2 hrest⟩
  · simp only [Text.fold_append, hcolon, Text.fold_of_isDigit hhour.1]
  · rw [Text.fold_fold, hname]

theorem find?_fold {kind : Phrase × Option Period} (hkind : kind ∈ kinds) (t : Text) :
    find? (fold t) kind = (find? t kind).map Found.fold := by
  simp only [find?, Phrase.find?_fold (ignoresCase hkind), Option.bind_eq_bind, Option.bind_map]
  cases ho : kind.1.find? t with
  | none => rfl
  | some o =>
    obtain ⟨w, hw⟩ := exists_isWritten hkind ho
    have hread : read? kind.2 (fold o.piece) = read? kind.2 o.piece := Option.ext fun c => by
      rw [read?_of_isWritten hw.fold, read?_of_isWritten hw]
    simp only [Option.bind_some, Function.comp_apply, Occurrence.residual_fold]
    rw [Occurrence.fold, hread]
    cases read? kind.2 o.piece <;> rfl

end ClockPhrase

namespace NamedTime

theorem ignoresCase_phrase : phrase.IgnoresCase := by
  have hnames : IgnoresCase (oneOf (table.map fun entry => .letters entry.1)) :=
    ignoresCase_oneOf (List.forall_mem_map.2 fun entry _ => ignoresCase_letters entry.1)
  simp [phrase, inOrder, hnames]

theorem nameIn_fold (piece : Text) : nameIn (fold piece) = fold (nameIn piece) := by
  rw [nameIn, Text.tokens_fold, List.getLast?_map, nameIn]
  cases (Text.tokens piece).getLast? <;> rfl

/-- The name in an ASCII piece that is found is listed, and so is the folded name. -/
theorem exists_read? {t : Text} (h : Text.IsAscii t) {o : Occurrence}
    (ho : phrase.find? t = some o) : ∃ time, read? (nameIn o.piece) = some time ∧
      read? (nameIn o.fold.piece) = some time := by
  have hspells := (readsWords_phrase.stands_of_find? ho).1.piece
  have hfold := fold_nameIn hspells
  obtain ⟨ws, hws, hspells⟩ := hspells
  obtain ⟨front, hpiece, -⟩ := exists_nameIn hws hspells
  have hname : Text.IsAscii (nameIn o.piece) := by
    have hascii := (isAscii_of_find? h ho).1
    rw [hpiece] at hascii
    exact (Text.IsAscii.append_iff.1 hascii).2
  have hlisted : read? (nameIn o.piece) ≠ none := fun hnone => by
    obtain ⟨c, hc, hforeign⟩ := (read?_eq_none_iff hfold).1 hnone
    have hascii := hname c hc
    rcases hforeign with rfl | rfl <;> exact absurd hascii (by decide)
  obtain ⟨time, htime⟩ := Option.ne_none_iff_exists'.1 hlisted
  refine ⟨time, htime, ?_⟩
  rw [Occurrence.fold, nameIn_fold, read?, hname.lower_fold, ← read?, htime]

end NamedTime

/-- **The time** in a folded ASCII text. -/
theorem extractTime_fold {t : Text} (h : Text.IsAscii t) :
    extractTime (fold t) = (extractTime t).map (Option.map Found.fold) := by
  have hclock : ClockPhrase.kinds.findSome? (ClockPhrase.find? (fold t)) =
      (ClockPhrase.kinds.findSome? (ClockPhrase.find? t)).map Found.fold :=
    findSome?_map fun kind hkind => ClockPhrase.find?_fold hkind t
  rw [extractTime, extractTime, hclock, Phrase.find?_fold NamedTime.ignoresCase_phrase]
  cases ClockPhrase.kinds.findSome? (ClockPhrase.find? t) with
  | some found => rfl
  | none =>
    cases ho : NamedTime.phrase.find? t with
    | none => rfl
    | some o =>
      obtain ⟨time, htime, hfold⟩ := NamedTime.exists_read? h ho
      simp only [Option.map_some, Option.map_none, htime, hfold, Occurrence.residual_fold]
      rfl

/-! ## Priorities and openers -/

theorem ignoresCase_anyKeyword (keywords : List Text) : (anyKeyword keywords).IgnoresCase := by
  rw [anyKeyword, ignoresCase_whole]
  exact ignoresCase_oneOf (List.forall_mem_map.2 fun t _ => ignoresCase_letters t)

theorem extractPriority_fold (t : Text) :
    extractPriority (fold t) = (extractPriority t).map Found.fold := by
  refine findSome?_map fun ⟨priority, keywords⟩ _ => ?_
  simp only [find?_fold (ignoresCase_anyKeyword keywords), Option.map_map]
  congr 1
  funext o
  simp only [Function.comp_apply, Occurrence.residual_fold, Found.fold]

theorem withoutOpener?_fold (t : Text) : withoutOpener? (fold t) = (withoutOpener? t).map fold := by
  simp only [withoutOpener?, find?_fold (ignoresCase_anyKeyword reminderOpeners), Option.map_map]
  congr 1
  funext o
  exact o.residual_fold

/-! ## Readings -/

namespace Reading

/-- The reading with the title folded. -/
def fold (r : Reading) : Reading := { r with draft := { r.draft with title := Text.fold r.draft.title } }

theorem rest_fold {α : Type} (found : Option (Found α)) (t : Text) :
    rest (found.map Found.fold) (Text.fold t) = Text.fold (rest found t) := by
  cases found <;> rfl

theorem timeWith_fold (due : Option Date) {t : Text} (h : Text.IsAscii t) :
    timeWith due (Text.fold t) = (timeWith due t).map (Option.map Found.fold) := by
  cases due with
  | none => rfl
  | some _ => exact extractTime_fold h

theorem value_fold {α : Type} (found : Option (Found α)) :
    (found.map Found.fold).map (·.value) = found.map (·.value) := by
  cases found <;> rfl

/-- What is left of an ASCII text is ASCII. -/
theorem isAscii_rest {α : Type} {found : Option (Found α)} {t : Text} (h : Text.IsAscii t)
    (hcut : ∀ f ∈ found, CutFrom t f.residual) : Text.IsAscii (rest found t) := by
  cases found with
  | none => exact h
  | some f =>
    obtain ⟨phrase, o, -, ho, hresidual⟩ := hcut f rfl
    rw [rest, Option.map_some, Option.getD_some, hresidual]
    exact (isAscii_of_find? h ho).2

theorem isAscii_rest_date {t : Text} (h : Text.IsAscii t) {today : Date}
    {date : Option (Found Date)} (hdate : extractDate today t = .ok date) :
    Text.IsAscii (rest date t) :=
  isAscii_rest h fun _ hf => extractDate_cut (hdate.trans (congrArg Except.ok hf))

theorem isAscii_title_complete {t : Text} (h : Text.IsAscii t) (due : Option Date)
    (time : Option Clock) : Text.IsAscii (complete due time t).draft.title := by
  have hpriority : Text.IsAscii (rest (extractPriority t) t) :=
    isAscii_rest h fun _ => extractPriority_cut
  refine Text.IsAscii.tidy ?_
  cases hopener : withoutOpener? (rest (extractPriority t) t) with
  | none => exact hpriority
  | some residual =>
    obtain ⟨phrase, o, -, ho, hresidual⟩ := withoutOpener?_cut hopener
    rw [Option.getD_some, hresidual]
    exact (isAscii_of_find? hpriority ho).2

theorem complete_fold (due : Option Date) (time : Option Clock) (t : Text) :
    complete due time (Text.fold t) = (complete due time t).fold := by
  have hopener := withoutOpener?_fold (rest (extractPriority t) t)
  simp only [complete, extractPriority_fold, rest_fold, hopener, value_fold]
  cases withoutOpener? (rest (extractPriority t) t) <;> simp [fold, Text.tidy_fold]

/-- **The reading of a folded ASCII text.** -/
theorem ofText_fold {t : Text} (h : Text.IsAscii t) (today : Date) :
    ofText today (Text.fold t) = (ofText today t).map Reading.fold := by
  have hdate := extractDate_fold today (Text.trim t)
  rw [← Text.trim_fold] at hdate
  cases hfound : extractDate today (Text.trim t) with
  | error fault =>
    rw [hfound] at hdate
    rw [ofText_of_fault hfound, ofText_of_fault hdate]
    rfl
  | ok date =>
    rw [hfound] at hdate
    have hrest := isAscii_rest_date h.trim hfound
    rw [ofText_of_date hfound, ofText_of_date hdate, value_fold, Text.trim_fold, rest_fold,
      timeWith_fold _ hrest]
    cases timeWith (date.map (·.value)) (rest date (Text.trim t)) with
    | error fault => rfl
    | ok clock =>
      simp only [Except.map, value_fold, rest_fold, complete_fold]

/-- The title of an ASCII text is ASCII. -/
theorem isAscii_title {t : Text} (h : Text.IsAscii t) {today : Date} {r : Reading}
    (hr : ofText today t = .ok r) : Text.IsAscii r.draft.title := by
  obtain ⟨date, hdate, clock, hclock, rfl⟩ := ofText_eq_ok.1 hr
  have hrest := isAscii_rest_date h.trim hdate
  refine isAscii_title_complete (isAscii_rest hrest fun f hf => ?_) _ _
  cases date with
  | none =>
    cases hclock
    cases hf
  | some _ => exact extractTime_cut (hclock.trans (congrArg Except.ok hf))

/-- Two readings are the same but for the case of the title. -/
structure AgreeInAnyCase (r r' : Reading) : Prop where
  title : Text.lower r.draft.title = Text.lower r'.draft.title
  due : r.draft.due = r'.draft.due
  hasTime : r.draft.hasTime = r'.draft.hasTime
  time : r.draft.time = r'.draft.time
  priority : r.draft.priority = r'.draft.priority
  tags : r.draft.tags = r'.draft.tags
  notes : r.notes = r'.notes

theorem AgreeInAnyCase.of_fold {r r' : Reading} (h : Text.IsAscii r.draft.title)
    (h' : Text.IsAscii r'.draft.title) (hfold : r.fold = r'.fold) : r.AgreeInAnyCase r' := by
  obtain ⟨⟨title, due, hasTime, time, priority, tags⟩, notes⟩ := r
  obtain ⟨⟨title', due', hasTime', time', priority', tags'⟩, notes'⟩ := r'
  simp only [fold, Reading.mk.injEq, Draft.mk.injEq] at hfold
  obtain ⟨⟨htitle, hdue, hhas, htime, hpriority, htags⟩, hnotes⟩ := hfold
  refine ⟨?_, hdue, hhas, htime, hpriority, htags, hnotes⟩
  rw [h.lower_eq_fold, h'.lower_eq_fold, htitle]

/-- **Readings in any case.** Two ASCII texts with the same lower case have readings that are the
    same but for the case of the title, or both have none, for the same fault. -/
theorem agreeInAnyCase {t t' : Text} (h : Text.IsAscii t) (h' : Text.IsAscii t')
    (hlower : Text.lower t = Text.lower t') (today : Date) :
    (∃ r r', ofText today t = .ok r ∧ ofText today t' = .ok r' ∧ r.AgreeInAnyCase r') ∨
      ∃ fault, ofText today t = .error fault ∧ ofText today t' = .error fault := by
  have hfold : (ofText today t).map fold = (ofText today t').map fold := by
    rw [← ofText_fold h, ← ofText_fold h', ← h.lower_eq_fold, ← h'.lower_eq_fold, hlower]
  cases hread : ofText today t with
  | error fault =>
    cases hread' : ofText today t' with
    | error fault' =>
      rw [hread, hread'] at hfold
      cases hfold
      exact .inr ⟨fault, rfl, rfl⟩
    | ok r' =>
      rw [hread, hread'] at hfold
      cases hfold
  | ok r =>
    cases hread' : ofText today t' with
    | error fault' =>
      rw [hread, hread'] at hfold
      cases hfold
    | ok r' =>
      rw [hread, hread'] at hfold
      exact .inl ⟨r, r', rfl, rfl, .of_fold (isAscii_title h hread) (isAscii_title h' hread')
        (Except.ok.inj hfold)⟩

/-- A text with a date, a time, a priority and an opener, in two ways to write it. -/
theorem agreeInAnyCase_reminder :
    let today : Date := { year := 2025, month := 1, day := 15 }
    let text := "REMIND me to CALL Mum Next FRIDAY in THE Evening, URGENT".toText
    let text' := "remind ME To call mUM nEXT friDay IN the eVENING, urgEnt".toText
    (Text.IsAscii text ∧ Text.IsAscii text' ∧ Text.lower text = Text.lower text') ∧
      ∃ r r', ofText today text = .ok r ∧ ofText today text' = .ok r' ∧ r.AgreeInAnyCase r' := by
  intro today text text'
  have h : Text.IsAscii text := by decide +kernel
  have h' : Text.IsAscii text' := by decide +kernel
  have hlower : Text.lower text = Text.lower text' := by decide +kernel
  have hok : (ofText today text).isOk = true := by decide +kernel
  refine ⟨⟨h, h', hlower⟩, (agreeInAnyCase h h' hlower today).resolve_right ?_⟩
  rintro ⟨fault, hfault, -⟩
  rw [hfault] at hok
  cases hok

end Reading
end TaskDesk
