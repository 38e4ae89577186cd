import TaskDesk.Draft.DatePhrase
import TaskDesk.Proofs.Phrase.Standing
import TaskDesk.Proofs.Text.Fold

/-!
# What phrases read

The pieces that a phrase reads, for each way to build one: letters read what folds to
them, blanks read blanks, and compound phrases read what their parts read. Keywords and
the expressions for dates read words that fold to given words, in keywords with the same
characters between them, in dates with any blanks.

Results:
* `reads_letters`, `reads_blanks`, `Reads.seq`, `Reads.either`: what parts of phrases read.
* `Reads.whole`: a phrase that cuts no word reads pieces where they stand.
* `readsWords_keyword`, `RelativeDate.readsWords_phrase`, `Weekday.readsWords_phrase`.
* `words_of_spells`: the words of a piece that spells words.
-/

namespace TaskDesk
namespace Phrase

open Text (fold words)

/-! ## Parts of phrases -/

/-- The pieces that the phrase reads are those of the class. -/
def Reads (phrase : Phrase) (R : Text → Prop) : Prop :=
  ∀ p q, q ∈ phrase.ends p ↔
    ∃ piece, R piece ∧ p.after = piece ++ q.after ∧ q.before = piece.reverse ++ p.before

/-- A gap between words. -/
def IsGap (gap : Text) : Prop := gap ≠ [] ∧ ∀ c ∈ gap, isBlank c = true

namespace Reads

variable {first second : Phrase} {R S : Text → Prop}

theorem congr (h : Reads first R) (hsame : ∀ piece, R piece ↔ S piece) : Reads first S := by
  intro p q
  simp only [h p q, hsame]

theorem nothing : Reads nothing (· = []) := by
  rintro ⟨before, after⟩ ⟨before', after'⟩
  simp [ends, and_comm, eq_comm]

theorem seq (h₁ : Reads first R) (h₂ : Reads second S) :
    Reads (seq first second) fun piece => ∃ x y, piece = x ++ y ∧ R x ∧ S y := by
  intro p q
  simp only [mem_ends_seq, h₁ p, h₂ _ q]
  constructor
  · rintro ⟨r, ⟨x, hx, hp, hr⟩, y, hy, hr', hq⟩
    exact ⟨x ++ y, ⟨x, y, rfl, hx, hy⟩, by simp [hp, hr'], by simp [hq, hr]⟩
  · rintro ⟨_, ⟨x, y, rfl, hx, hy⟩, hp, hq⟩
    exact ⟨⟨x.reverse ++ p.before, y ++ q.after⟩, ⟨x, hx, by simp [hp], rfl⟩, y, hy, rfl,
      by simp [hq]⟩

theorem either (h₁ : Reads first R) (h₂ : Reads second S) :
    Reads (either first second) fun piece => R piece ∨ S piece := by
  intro p q
  simp only [mem_ends_either, h₁ p q, h₂ p q, or_and_right, exists_or]

end Reads

theorem reads_one (test : CodePoint → Bool) :
    Reads (one test) fun piece => ∃ c, piece = [c] ∧ test c = true := by
  intro p q
  rw [mem_ends_one]
  constructor
  · rintro ⟨c, hc, hafter, hbefore⟩
    exact ⟨[c], ⟨c, rfl, hc⟩, hafter, hbefore⟩
  · rintro ⟨_, ⟨c, rfl, hc⟩, hafter, hbefore⟩
    exact ⟨c, hc, hafter, hbefore⟩

theorem reads_letters (t : Text) : Reads (letters t) (fold · = t) := by
  induction t with
  | nil => exact Reads.nothing.congr fun piece => by simp [fold]
  | cons c rest ih =>
    refine ((reads_one _).seq ih).congr fun piece => ?_
    constructor
    · rintro ⟨_, y, rfl, ⟨d, rfl, hd⟩, rfl⟩
      exact congrArg (· :: fold y) (eq_of_beq hd)
    · intro h
      obtain ⟨d, y, rfl, hd, hy⟩ := List.map_eq_cons_iff.1 h
      exact ⟨[d], y, rfl, ⟨d, rfl, beq_iff_eq.2 hd⟩, hy⟩

theorem mem_runEnds_here {least : Nat} {found : List Place} {before after : Text} {q : Place} :
    q ∈ (if least = 0 then ⟨before, after⟩ :: found else found) ↔
      q ∈ found ∨ (least = 0 ∧ after = q.after ∧ q.before = before) := by
  obtain ⟨before', after'⟩ := q
  split
  · rename_i h
    simp [h, or_comm, and_comm, eq_comm]
  · rename_i h
    simp [h]

/-- A run ends behind any number of characters that pass the test, if they are enough and
    not too many. -/
theorem mem_runEnds {test : CodePoint → Bool} {least : Nat} {most : Option Nat}
    {found : List Place} {before after : Text} {q : Place} :
    q ∈ runEnds test least most found before after ↔
      q ∈ found ∨ ∃ piece, (∀ c ∈ piece, test c = true) ∧ least ≤ piece.length ∧
        (∀ m ∈ most, piece.length ≤ m) ∧ after = piece ++ q.after ∧
        q.before = piece.reverse ++ before := by
  induction after generalizing least most found before with
  | nil =>
    rw [runEnds, mem_runEnds_here]
    refine or_congr_right ⟨?_, ?_⟩
    · rintro ⟨hleast, hafter, hbefore⟩
      exact ⟨[], by simp, by omega, by simp, hafter, hbefore⟩
    · rintro ⟨piece, -, hleast, -, hafter, hbefore⟩
      obtain ⟨rfl, hnil⟩ := List.append_eq_nil_iff.1 hafter.symm
      exact ⟨Nat.le_zero.1 hleast, hnil.symm, hbefore⟩
  | cons c rest ih =>
    rw [runEnds]
    split
    · rename_i hc
      rw [ih, mem_runEnds_here, or_assoc]
      refine or_congr_right ⟨?_, ?_⟩
      · rintro (⟨hleast, hafter, hbefore⟩ | ⟨piece, htest, hleast, hmost, hafter, hbefore⟩)
        · exact ⟨[], by simp, by omega, by simp, hafter, hbefore⟩
        · refine ⟨c :: piece, List.forall_mem_cons.2 ⟨hc.2, htest⟩, ?_, ?_, by simp [hafter], ?_⟩
          · rw [List.length_cons]
            omega
          · rintro m rfl
            have hpos : m ≠ 0 := fun hzero => hc.1 (congrArg some hzero)
            have hle := hmost (m - 1) rfl
            rw [List.length_cons]
            omega
          · simp [hbefore]
      · rintro ⟨piece, htest, hleast, hmost, hafter, hbefore⟩
        cases piece with
        | nil => exact .inl ⟨Nat.le_zero.1 hleast, hafter, hbefore⟩
        | cons d piece =>
          obtain ⟨rfl, hrest⟩ := List.cons.inj hafter
          rw [List.length_cons] at hleast
          refine .inr ⟨piece, (List.forall_mem_cons.1 htest).2, by omega, ?_, hrest,
            by simpa using hbefore⟩
          intro m hm
          obtain ⟨n, hn, rfl⟩ := Option.map_eq_some_iff.1 hm
          exact Nat.le_sub_one_of_lt (hmost n hn)
    · rename_i hc
      rw [mem_runEnds_here]
      refine or_congr_right ⟨?_, ?_⟩
      · rintro ⟨hleast, hafter, hbefore⟩
        exact ⟨[], by simp, by omega, by simp, hafter, hbefore⟩
      · rintro ⟨piece, htest, hleast, hmost, hafter, hbefore⟩
        cases piece with
        | nil => exact ⟨Nat.le_zero.1 hleast, hafter, hbefore⟩
        | cons d piece =>
          obtain ⟨rfl, -⟩ := List.cons.inj hafter
          refine absurd ⟨?_, (List.forall_mem_cons.1 htest).1⟩ hc
          rintro rfl
          exact absurd (hmost 0 rfl) (by simp)

theorem reads_many (test : CodePoint → Bool) (least : Nat) (most : Option Nat) :
    Reads (many test least most) fun piece =>
      (∀ c ∈ piece, test c = true) ∧ least ≤ piece.length ∧ ∀ m ∈ most, piece.length ≤ m := by
  intro p q
  rw [ends, mem_runEnds]
  constructor
  · rintro (h | ⟨piece, htest, hleast, hmost, hafter, hbefore⟩)
    · cases h
    · exact ⟨piece, ⟨htest, hleast, hmost⟩, hafter, hbefore⟩
  · rintro ⟨piece, ⟨htest, hleast, hmost⟩, hafter, hbefore⟩
    exact .inr ⟨piece, htest, hleast, hmost, hafter, hbefore⟩

theorem reads_blanks : Reads blanks IsGap := by
  refine (reads_many isBlank 1 none).congr fun piece => ?_
  rw [IsGap, ← List.length_pos_iff]
  constructor
  · exact fun ⟨hblank, hlength, _⟩ => ⟨hlength, hblank⟩
  · exact fun ⟨hlength, hblank⟩ => ⟨hblank, hlength, by simp⟩

theorem reads_oneOf {α : Type} {l : List α} (phrase : α → Phrase) (R : α → Text → Prop)
    (h : ∀ a ∈ l, Reads (phrase a) (R a)) :
    Reads (oneOf (l.map phrase)) fun piece => ∃ a ∈ l, R a piece := by
  induction l with
  | nil =>
    intro p q
    simp [oneOf, mem_ends_here]
  | cons a l ih =>
    cases l with
    | nil => exact (h a (by simp)).congr fun piece => by simp
    | cons b l =>
      refine ((h a (by simp)).either (ih fun x hx => h x (List.mem_cons_of_mem _ hx))).congr ?_
      simp

/-! ## Whole words -/

theorem mem_ends_whole {phrase : Phrase} {p q : Place} :
    q ∈ (whole phrase).ends p ↔
      p.before.head?.any isWord ≠ p.after.head?.any isWord ∧ q ∈ phrase.ends p ∧
        q.before.head?.any isWord ≠ q.after.head?.any isWord := by
  have hedge : ∀ r s : Place, r ∈ edge.ends s ↔
      r = s ∧ s.before.head?.any isWord ≠ s.after.head?.any isWord := fun r s => by
    rw [edge, mem_ends_here, bne_iff_ne]
  simp only [Phrase.whole, inOrder, mem_ends_seq, hedge]
  constructor
  · rintro ⟨_, ⟨rfl, hp⟩, _, hq, rfl, hq'⟩
    exact ⟨hp, hq, hq'⟩
  · rintro ⟨hp, hq, hq'⟩
    exact ⟨p, ⟨rfl, hp⟩, q, hq, rfl, hq'⟩

/-- Between two edges a phrase reads its pieces where they stand, if they begin and end
    with a word character. -/
theorem Reads.whole {phrase : Phrase} {R : Text → Prop} (h : Reads phrase R)
    (hends : WordEnds R) : ReadsWords (whole phrase) R where
  toWordEnds := hends
  mem_ends p q := by
    rw [mem_ends_whole, h p q]
    constructor
    · rintro ⟨hp, ⟨piece, hpiece, hafter, hbefore⟩, hq⟩
      rw [hafter, Text.head?_append_any (hends.first piece hpiece)] at hp
      have hlast : q.before.head?.any isWord = true := by
        rw [hbefore]
        exact Text.head?_append_any (by rw [List.head?_reverse]; exact hends.last piece hpiece)
      rw [hlast] at hq
      exact ⟨piece, hpiece, hafter, hbefore, by simpa using hp, by simpa using hq.symm⟩
    · rintro ⟨piece, hpiece, hafter, hbefore, hp, hq⟩
      have hlast : q.before.head?.any isWord = true := by
        rw [hbefore]
        exact Text.head?_append_any (by rw [List.head?_reverse]; exact hends.last piece hpiece)
      refine ⟨?_, ⟨piece, hpiece, hafter, hbefore⟩, ?_⟩
      · rw [hp, hafter, Text.head?_append_any (hends.first piece hpiece)]
        exact Bool.false_ne_true
      · rw [hq, hlast]
        exact Bool.false_ne_true.symm

/-! ## Words with blanks between them -/

/-- The piece consists of words that fold to the given ones, with gaps between them. -/
def Spells : (ws : List Text) → (piece : Text) → Prop
  | [], _ => False
  | [w], piece => fold piece = w
  | w :: more, piece =>
    ∃ first gap rest, piece = first ++ gap ++ rest ∧ fold first = w ∧ IsGap gap ∧ Spells more rest

/-- A word: one or more word characters. -/
def IsWordText (w : Text) : Prop := w ≠ [] ∧ ∀ c ∈ w, isWord c = true

instance (w : Text) : Decidable (IsWordText w) := inferInstanceAs (Decidable (_ ∧ _))

theorem IsWordText.of_fold {w : Text} (h : IsWordText (fold w)) : IsWordText w := by
  refine ⟨?_, fun c hc => ?_⟩
  · rintro rfl
    exact h.1 rfl
  · rw [← isWord_foldLetter]
    exact h.2 _ (List.mem_map_of_mem hc)

theorem IsWordText.words {w : Text} (h : IsWordText w) : words w = [w] :=
  Text.runs_of_forall h.1 h.2

theorem IsWordText.first {w : Text} (h : IsWordText w) : w.head?.any isWord = true := by
  cases w with
  | nil => exact absurd rfl h.1
  | cons c w => exact h.2 c List.mem_cons_self

theorem IsWordText.last {w : Text} (h : IsWordText w) : w.getLast?.any isWord = true := by
  rw [List.getLast?_eq_some_getLast h.1]
  exact h.2 _ (List.getLast_mem h.1)

theorem IsGap.not_isWord {gap : Text} (h : IsGap gap) : ∀ c ∈ gap, isWord c = false :=
  fun c hc => not_isWord_of_isBlank (h.2 c hc)

/-- A gap separates the words before it from those after it. -/
theorem words_gap {gap : Text} (h : IsGap gap) (s t : Text) :
    words (s ++ gap ++ t) = words s ++ words t := by
  have hnone : words gap = [] := Text.runs_eq_nil h.not_isWord
  have hfront : Text.Apart isWord s gap := by
    refine Text.apart_of_head ?_
    cases gap with
    | nil => rfl
    | cons c gap => exact h.not_isWord c List.mem_cons_self
  have hback : Text.Apart isWord (s ++ gap) t := by
    refine Text.apart_of_last ?_
    rw [List.getLast?_append, List.getLast?_eq_some_getLast h.1, Option.some_or]
    exact h.not_isWord _ (List.getLast_mem h.1)
  rw [words, Text.runs_append hback, Text.runs_append hfront]
  rw [words] at hnone
  rw [hnone, List.append_nil]
  rfl

/-- What is known of the ends and the words of a piece that spells words. -/
theorem words_of_spells {ws : List Text} (hws : ∀ w ∈ ws, IsWordText w) {piece : Text}
    (h : Spells ws piece) :
    piece.head?.any isWord = true ∧ piece.getLast?.any isWord = true ∧
      (words piece).map fold = ws := by
  induction ws generalizing piece with
  | nil => exact absurd h id
  | cons w more ih =>
    cases more with
    | nil =>
      have hword : IsWordText piece := .of_fold (h ▸ hws w (by simp))
      rw [hword.words]
      exact ⟨hword.first, hword.last, congrArg ([·]) h⟩
    | cons next more =>
      obtain ⟨first, gap, rest, rfl, hfirst, hgap, hrest⟩ := h
      obtain ⟨-, hlast, hwords⟩ := ih (fun v hv => hws v (List.mem_cons_of_mem _ hv)) hrest
      have hword : IsWordText first := .of_fold (hfirst ▸ hws w (by simp))
      refine ⟨?_, Text.getLast?_append_any hlast, ?_⟩
      · rw [List.append_assoc]
        exact Text.head?_append_any hword.first
      · rw [words_gap hgap, List.map_append, hword.words, hwords]
        exact congrArg (· :: next :: more) hfirst

/-- Words with single spaces between them are spelled. -/
theorem spells_of_fold {ws : List Text} (hne : ws ≠ []) {piece : Text}
    (h : fold piece = Text.join ' ' ws) : Spells ws piece := by
  induction ws generalizing piece with
  | nil => exact absurd rfl hne
  | cons w more ih =>
    cases more with
    | nil => exact h
    | cons next more =>
      obtain ⟨first, rest, rfl, hfirst, hrest⟩ := List.map_eq_append_iff.1 h
      obtain ⟨c, rest, rfl, hc, hrest⟩ := List.map_eq_cons_iff.1 hrest
      refine ⟨first, [c], rest, by simp, hfirst, ⟨by simp, ?_⟩, ih (by simp) hrest⟩
      rw [foldLetter_eq_space hc]
      decide

/-- The piece spells one of the given lists of words. -/
def SpellsOneOf (spellings : List (List Text)) (piece : Text) : Prop :=
  ∃ ws ∈ spellings, Spells ws piece

/-! ## Keywords -/

/-- A keyword is read in any case, but with its own characters between its words. -/
theorem readsWords_keyword {t : Text} (hfirst : t.head?.any isWord = true)
    (hlast : t.getLast?.any isWord = true) : ReadsWords (keyword t) (fold · = t) := by
  refine (reads_letters t).whole ⟨fun piece h => ?_, fun piece h => ?_⟩
  · rw [← Text.head?_fold, h, hfirst]
  · rw [← Text.getLast?_fold, h, hlast]

theorem words_of_fold {t piece : Text} (h : fold piece = t) : (words piece).map fold = words t := by
  rw [← Text.words_fold, h]

theorem readsWords_spelled {phrase : Phrase} {spellings : List (List Text)}
    (h : Reads phrase (SpellsOneOf spellings))
    (hws : ∀ ws ∈ spellings, ∀ w ∈ ws, IsWordText w) :
    ReadsWords (whole phrase) (SpellsOneOf spellings) :=
  h.whole
    ⟨fun _ ⟨ws, hmem, hspells⟩ => (words_of_spells (hws ws hmem) hspells).1,
      fun _ ⟨ws, hmem, hspells⟩ => (words_of_spells (hws ws hmem) hspells).2.1⟩

end Phrase

/-! ## Expressions for dates -/

open Phrase

namespace RelativeDate

/-- The words of a relative date. -/
def spelling : RelativeDate → List Text
  | today => ["today".toText]
  | tomorrow => ["tomorrow".toText]
  | nextWeek => ["next".toText, "week".toText]
  | thisWeekend => ["this".toText, "weekend".toText]
  | nextWeekend => ["next".toText, "weekend".toText]

theorem reads_twoWords (first second : Text) :
    Reads (inOrder [letters first, blanks, letters second]) (Spells [first, second]) := by
  refine ((reads_letters first).seq (reads_blanks.seq (reads_letters second))).congr fun piece => ?_
  constructor
  · rintro ⟨x, _, rfl, hx, gap, y, rfl, hgap, hy⟩
    exact ⟨x, gap, y, (List.append_assoc _ _ _).symm, hx, hgap, hy⟩
  · rintro ⟨x, gap, y, rfl, hx, hgap, hy⟩
    exact ⟨x, _, List.append_assoc _ _ _, hx, gap, y, rfl, hgap, hy⟩

theorem readsWords_phrase (r : RelativeDate) :
    ReadsWords r.phrase (SpellsOneOf [r.spelling]) := by
  have hone {phrase : Phrase} {ws : List Text} (h : Reads phrase (Spells ws)) :
      Reads phrase (SpellsOneOf [ws]) := h.congr fun piece => by simp [SpellsOneOf]
  cases r with
  | today => exact readsWords_spelled (hone (reads_letters _)) (by decide)
  | tomorrow => exact readsWords_spelled (hone (reads_letters _)) (by decide)
  | nextWeek => exact readsWords_spelled (hone (reads_twoWords _ _)) (by decide)
  | thisWeekend => exact readsWords_spelled (hone (reads_twoWords _ _)) (by decide)
  | nextWeekend => exact readsWords_spelled (hone (reads_twoWords _ _)) (by decide)

end RelativeDate

namespace Weekday

/-- The words of a weekday, with `next` before its name and without. -/
def spellings (w : Weekday) : List (List Text) := [["next".toText, w.name], [w.name]]

theorem readsWords_phrase (w : Weekday) : ReadsWords w.phrase (SpellsOneOf w.spellings) := by
  have hread : Reads (inOrder [maybe (inOrder [letters "next".toText, blanks]), letters w.name])
      (SpellsOneOf w.spellings) := by
    refine (((((reads_letters _).seq reads_blanks).either .nothing).seq (reads_letters _))).congr
      fun piece => ?_
    constructor
    · rintro ⟨_, y, rfl, ⟨x, gap, rfl, hx, hgap⟩ | rfl, hy⟩
      · exact ⟨["next".toText, w.name], by simp [spellings], x, gap, y, rfl, hx, hgap, hy⟩
      · exact ⟨[w.name], by simp [spellings], hy⟩
    · rintro ⟨ws, hws, hspells⟩
      simp only [spellings, List.mem_cons, List.not_mem_nil, or_false] at hws
      rcases hws with rfl | rfl
      · obtain ⟨x, gap, y, rfl, hx, hgap, hy⟩ := hspells
        exact ⟨x ++ gap, y, rfl, .inl ⟨x, gap, rfl, hx, hgap⟩, hy⟩
      · exact ⟨[], piece, rfl, .inr rfl, hspells⟩
  exact readsWords_spelled hread (by cases w <;> decide)

end Weekday
end TaskDesk
