import TaskDesk.Proofs.Draft.DateAhead
import TaskDesk.Proofs.Draft.Stages
import TaskDesk.Proofs.Draft.TimeWord
import TaskDesk.Proofs.Text.Variants

/-!
# Names of times with foreign letters

A name of a time is found in any case, with the variants of its letters from outside ASCII,
but it is looked up in lower case. Of these variants only the dotted capital and the dotless
small i are letters of names, and their lower case is not ASCII. So a name with one of them is
found and not listed. As long as the calendar goes on for 13 days, this is the only way in
which the reading of a text fails.

Results:
* `NamedTime.read?_eq_none_iff`: which names are found and not listed.
* `extractTime_eq_error_iff`: when looking for a time fails.
* `ofText_ok_iff`: which texts have a reading, and how the others fail.
-/

namespace TaskDesk

open Phrase
open Text (fold)

namespace NamedTime

/-- A variant of the letter i from outside ASCII is in the name. -/
def HasForeignI (name : Text) : Prop := ∃ c ∈ name, c = '\u0130' ∨ c = '\u0131'

/-- Of the names that are found, those with a foreign i are not listed. -/
theorem read?_eq_none_iff {name : Text} (h : fold name ∈ table.map (·.1)) :
    read? name = none ↔ HasForeignI name := by
  have hnames : ∀ entry ∈ table, ∀ c ∈ entry.1, c.toNat < 128 ∧
      foldLetter '\u017f' ≠ c ∧ foldLetter '\u212a' ≠ c := by decide
  obtain ⟨entry, hentry, hname⟩ := List.mem_map.1 h
  rw [read?, List.lookup_eq_none_iff]
  constructor
  · intro hnone
    by_contra hplain
    have hlower : Text.lower name = fold name := by
      refine Text.lower_eq_fold (fun c hc hforeign => ?_) fun c hc => ?_
      · have hmem : foldLetter c ∈ fold name := List.mem_map_of_mem hc
        obtain ⟨-, hlong, hkelvin⟩ := hnames entry hentry _ (hname ▸ hmem)
        simp only [foreignVariants, List.mem_cons, List.not_mem_nil, or_false] at hforeign
        rcases hforeign with rfl | rfl | rfl | rfl
        · exact hplain ⟨_, hc, .inl rfl⟩
        · exact hplain ⟨_, hc, .inr rfl⟩
        · exact hlong rfl
        · exact hkelvin rfl
      · exact (hnames entry hentry c (hname ▸ hc)).1
    have hne := hnone entry hentry
    rw [hlower, hname, bne_self_eq_false] at hne
    cases hne
  · rintro ⟨c, hc, hforeign⟩ entry hentry
    obtain ⟨d, hd, hlarge⟩ := Text.exists_mem_lower_of_foreign hc hforeign
    refine bne_iff_ne.2 fun heq => ?_
    have hsmall := (hnames entry hentry d (heq ▸ hd)).1
    omega

/-- The name in a piece that is found is listed, but for the variants of its letters. -/
theorem fold_nameIn {piece : Text} (h : SpellsOneOf spellings piece) :
    fold (nameIn piece) ∈ table.map (·.1) := by
  have hlisted : ∀ ws ∈ spellings, ∀ k ∈ ws.getLast?, k ∈ table.map (·.1) := by decide +kernel
  obtain ⟨ws, hws, hspells⟩ := h
  obtain ⟨-, -, hlast⟩ := exists_nameIn hws hspells
  exact hlisted ws hws _ hlast

end NamedTime

/-- Looking for a time fails just where no clock time is found and the first name of a time
    has a foreign i. -/
theorem extractTime_eq_error_iff {t : Text} {fault : ParseFault} :
    extractTime t = .error fault ↔
      (∀ kind ∈ ClockPhrase.kinds, ClockPhrase.find? t kind = none) ∧
        ∃ o, NamedTime.phrase.find? t = some o ∧
          NamedTime.HasForeignI (NamedTime.nameIn o.piece) ∧
          fault = .unlistedTime (NamedTime.nameIn o.piece) := by
  rw [extractTime, ← List.findSome?_eq_none_iff]
  cases ClockPhrase.kinds.findSome? (ClockPhrase.find? t) with
  | some f => simp
  | none =>
    cases hfind : NamedTime.phrase.find? t with
    | none => simp
    | some o =>
      have hspells := (NamedTime.readsWords_phrase.stands_of_find? hfind).1.piece
      have hread := NamedTime.read?_eq_none_iff (NamedTime.fold_nameIn hspells)
      cases hcase : NamedTime.read? (NamedTime.nameIn o.piece) with
      | none =>
        rw [hcase] at hread
        simp [hcase, hread.1 rfl, eq_comm]
      | some c =>
        rw [hcase] at hread
        simp [hcase, mt hread.2]

/-- Looking for a date does not fail if the calendar goes on for 13 days. -/
theorem exists_extractDate {today : Date} (hroom : (today.addDays 13).isSome = true) (t : Text) :
    ∃ found, extractDate today t = .ok found := by
  by_cases hwords : ∃ d : DateWord, d.phrase.occursIn t = true
  · obtain ⟨d, hd⟩ := hwords
    obtain ⟨first, hfirst⟩ := DateWord.exists_isFirstIn hd
    obtain ⟨o, ho⟩ := extractDate_of_isFirstIn hfirst today
    obtain ⟨date, hdate⟩ := Option.isSome_iff_exists.1 (first.isSome_resolve hroom)
    exact ⟨_, ho.trans (by rw [hdate]; rfl)⟩
  · exact ⟨_, extractDate_of_no_words fun d => by simpa using mt (Exists.intro d) hwords⟩

namespace Reading

/-- The text gives a date, in the rest no clock time is found, and the first name of a time
    there is this one and has a foreign i. -/
def StumblesOn (today : Date) (t name : Text) : Prop :=
  ∃ (f : Found Date) (o : Occurrence), extractDate today (Text.trim t) = .ok (some f) ∧
    (∀ kind ∈ ClockPhrase.kinds, ClockPhrase.find? f.residual kind = none) ∧
    NamedTime.phrase.find? f.residual = some o ∧ NamedTime.nameIn o.piece = name ∧
    NamedTime.HasForeignI name

/-- Behind a date, a reading fails just where looking for a time in the rest does. -/
theorem ofText_eq_error_iff_extractTime {today : Date} {t : Text} {found : Option (Found Date)}
    (h : extractDate today (Text.trim t) = .ok found) {fault : ParseFault} :
    ofText today t = .error fault ↔
      ∃ f, found = some f ∧ extractTime f.residual = .error fault := by
  rw [ofText_of_date h]
  cases found with
  | none => simp [timeWith, Except.map]
  | some f =>
    have htime : timeWith (some f.value) f.residual = extractTime f.residual := rfl
    have hrest : rest (some f) (Text.trim t) = f.residual := rfl
    simp only [Option.map_some, hrest, htime, Option.some.injEq, exists_eq_left']
    cases extractTime f.residual with
    | error fault' => simp [Except.map]
    | ok clock => simp [Except.map]

/-- A reading fails just where it stumbles on a name, and that name is the fault. -/
theorem ofText_eq_error_iff {today : Date} (hroom : (today.addDays 13).isSome = true) {t : Text}
    {fault : ParseFault} :
    ofText today t = .error fault ↔
      ∃ name, StumblesOn today t name ∧ fault = .unlistedTime name := by
  obtain ⟨found, hfound⟩ := exists_extractDate hroom (Text.trim t)
  simp only [ofText_eq_error_iff_extractTime hfound, extractTime_eq_error_iff, StumblesOn, hfound,
    Except.ok.injEq]
  constructor
  · rintro ⟨f, rfl, hkinds, o, ho, hforeign, rfl⟩
    exact ⟨_, ⟨f, o, rfl, hkinds, ho, rfl, hforeign⟩, rfl⟩
  · rintro ⟨_, ⟨f, o, rfl, hkinds, ho, rfl, hforeign⟩, rfl⟩
    exact ⟨f, rfl, hkinds, o, ho, hforeign, rfl⟩

/-- **Readings.** A text has a reading unless it gives a date and no clock time, and the first
    name of a time in the rest has a foreign i. Then this name is the fault. -/
theorem ofText_ok_iff {today : Date} (hroom : (today.addDays 13).isSome = true) (t : Text) :
    ((∃ r, ofText today t = .ok r) ↔ ¬∃ name, StumblesOn today t name) ∧
      ∀ fault, ofText today t = .error fault ↔
        ∃ name, StumblesOn today t name ∧ fault = .unlistedTime name := by
  refine ⟨?_, fun fault => ofText_eq_error_iff hroom⟩
  constructor
  · rintro ⟨r, hr⟩ ⟨name, hname⟩
    have herror := (ofText_eq_error_iff hroom).2 ⟨name, hname, rfl⟩
    rw [hr] at herror
    cases herror
  · intro hnone
    cases hread : ofText today t with
    | ok r => exact ⟨r, rfl⟩
    | error fault =>
      obtain ⟨name, hname, -⟩ := (ofText_eq_error_iff hroom).1 hread
      exact absurd ⟨name, hname⟩ hnone

/-- Where a clock time is found, the names of times are not read. -/
theorem not_stumblesOn_evening :
    let today : Date := { year := 2025, month := 1, day := 15 }
    let text := "call mum tomorrow even\u0131ng at 7pm".toText
    (today.addDays 13).isSome = true ∧ ¬∃ name, StumblesOn today text name := by
  intro today text
  have hroom : (today.addDays 13).isSome = true := by decide +kernel
  have hok : (ofText today text).isOk = true := by decide +kernel
  refine ⟨hroom, (ofText_ok_iff hroom text).1.1 ?_⟩
  cases hread : ofText today text with
  | ok r => exact ⟨r, rfl⟩
  | error fault =>
    rw [hread] at hok
    cases hok

/-- A dotless i in the name of a time makes the reading fail. -/
theorem ofText_fails_evening :
    let today : Date := { year := 2025, month := 1, day := 15 }
    (today.addDays 13).isSome = true ∧
      ¬∃ r, ofText today "call mum tomorrow even\u0131ng".toText = .ok r := by
  intro today
  have hfault : ofText today "call mum tomorrow even\u0131ng".toText =
      .error (.unlistedTime "even\u0131ng".toText) := by decide +kernel
  refine ⟨by decide +kernel, ?_⟩
  rintro ⟨r, hr⟩
  rw [hfault] at hr
  cases hr

end Reading
end TaskDesk
