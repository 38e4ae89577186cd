import TaskDesk.Proofs.Text.Lower
import TaskDesk.Proofs.Text.Words

/-!
# Folded texts

Keywords are found by folding: every variant of an ASCII letter counts as that letter.
Folding is by single code points, and keeps what is a word character, so it goes through
lengths, cuts and words. Where the lower case of a text is ASCII, it is the folded text.

Results:
* `apply_foldLetter`: how to see that a function does not tell variants of a letter apart.
* `runs_fold`, `words_fold`: folding goes through runs of a class and through words.
* `foldLetter_eq_mark`: only a separating mark counts as that mark.
* `fold_eq_lower`: where the lower case is ASCII it is the folded text.
-/

namespace TaskDesk

/-! ## Single code points -/

/-- The letters beyond ASCII that are variants of ASCII letters. -/
def foreignVariants : List CodePoint := ['\u0130', '\u0131', '\u017f', '\u212a']

/-- Code points beyond ASCII are left alone, but for four variants of letters. -/
theorem foldLetter_cases (c : Char) :
    c.toNat < 128 ∨ .char c ∈ foreignVariants ∨ foldLetter c = c := by
  by_cases hascii : c.toNat < 128
  · exact .inl hascii
  by_cases hforeign : .char c ∈ foreignVariants
  · exact .inr (.inl hforeign)
  refine .inr (.inr ?_)
  have hfix : c.toLower = c := by
    refine dif_neg fun h => hascii ?_
    have hle : c.val ≤ 'Z'.val := h.2
    have : c.toNat ≤ 90 := UInt32.le_iff_toNat_le.1 hle
    omega
  simp only [foreignVariants, List.mem_cons, List.not_mem_nil, or_false, not_or,
    CodePoint.char.injEq] at hforeign
  obtain ⟨hdotted, hdotless, hlong, hkelvin⟩ := hforeign
  rw [foldLetter, if_neg (by simp [hdotted, hdotless]), if_neg hlong, if_neg hkelvin, hfix]

/-- To see that a function does not tell variants of a letter apart, it is enough to look at
    ASCII and at the foreign variants. -/
theorem apply_foldLetter {α : Type} {f : CodePoint → α}
    (ascii : ∀ n < 128, f (foldLetter (Char.ofNat n)) = f (Char.ofNat n))
    (foreign : ∀ c ∈ foreignVariants, f (foldLetter c) = f c) (c : CodePoint) :
    f (foldLetter c) = f c := by
  cases c with
  | half n => rfl
  | char c =>
    rcases foldLetter_cases c with h | h | h
    · have hc := ascii c.toNat h
      rwa [Char.ofNat_toNat] at hc
    · exact foreign _ h
    · rw [h]

@[simp] theorem foldLetter_foldLetter (c : CodePoint) :
    foldLetter (foldLetter c) = foldLetter c :=
  apply_foldLetter (by decide +kernel) (by decide +kernel) c

@[simp] theorem isWord_foldLetter (c : CodePoint) : isWord (foldLetter c) = isWord c :=
  apply_foldLetter (by decide +kernel) (by decide +kernel) c

@[simp] theorem isBlank_foldLetter (c : CodePoint) : isBlank (foldLetter c) = isBlank c :=
  apply_foldLetter (by decide +kernel) (by decide +kernel) c

@[simp] theorem digitValue?_foldLetter (c : CodePoint) :
    digitValue? (foldLetter c) = digitValue? c :=
  apply_foldLetter (by decide +kernel) (by decide +kernel) c

@[simp] theorem isDigit_foldLetter (c : CodePoint) : isDigit (foldLetter c) = isDigit c := by
  rw [isDigit, digitValue?_foldLetter, isDigit]

/-- The space and the characters between the numbers of dates and times. -/
def separatingMarks : List CodePoint := [' ', '-', '/', ':']

/-- Only the separating mark itself counts as one. -/
theorem foldLetter_beq_mark {mark : CodePoint} (hmark : mark ∈ separatingMarks) (c : CodePoint) :
    (foldLetter c == mark) = (c == mark) := by
  have ascii : ∀ mark ∈ separatingMarks, ∀ n < 128,
      (foldLetter (Char.ofNat n) == mark) = (.char (Char.ofNat n) == mark) := by decide +kernel
  have foreign : ∀ mark ∈ separatingMarks, ∀ c ∈ foreignVariants,
      (foldLetter c == mark) = (c == mark) := by decide +kernel
  exact apply_foldLetter (f := (· == mark)) (ascii mark hmark) (foreign mark hmark) c

theorem foldLetter_eq_mark {mark : CodePoint} (hmark : mark ∈ separatingMarks) (c : CodePoint) :
    foldLetter c = mark ↔ c = mark := by
  rw [← beq_iff_eq, foldLetter_beq_mark hmark, beq_iff_eq]

theorem foldLetter_eq_space {c : CodePoint} (h : foldLetter c = ' ') : c = ' ' :=
  (foldLetter_eq_mark (by decide) c).1 h

/-- Digits are left alone. -/
theorem foldLetter_of_isDigit {c : CodePoint} (h : isDigit c = true) : foldLetter c = c := by
  have ascii : ∀ n < 128, isDigit (Char.ofNat n) = true →
      foldLetter (Char.ofNat n) = .char (Char.ofNat n) := by
    decide +kernel
  have foreign : ∀ c ∈ foreignVariants, isDigit c = false := by decide +kernel
  cases c with
  | half n => cases h
  | char c =>
    rcases foldLetter_cases c with hc | hc | hc
    · have hfix := ascii c.toNat hc
      rw [Char.ofNat_toNat] at hfix
      exact hfix h
    · rw [foreign _ hc] at h
      cases h
    · exact hc

/-- Only ASCII letters and the Kelvin sign have a lower case in ASCII. -/
theorem foldLetter_eq_lowerPoint {c : CodePoint} (hdot : c ≠ '\u0130')
    (h : (lowerPoint c).toNat < 128) : foldLetter c = lowerPoint c := by
  have entries : ∀ r ∈ lowerRanges, ∀ offset < r.2.1 + 1 - r.1, offset % r.2.2.1 = 0 →
      (Char.ofNat (r.2.2.2 + offset)).toNat < 128 →
        r.1 + offset = 0x212a ∧ r.2.2.2 + offset = 0x6b := by
    decide +kernel
  cases c with
  | half n => rfl
  | char c =>
    by_cases hascii : c.toNat < 128
    · rw [foldLetter_ascii c hascii, lowerPoint, lowerChar, if_pos hascii]
    · rw [lowerPoint, lowerChar, if_neg hascii] at h ⊢
      split at h
      · rename_i offset step target hfind
        obtain ⟨first, last, hmem, hlast, hn⟩ := RangeTree.find?_mem hfind
        have hrange : (first, last, step, target) ∈ lowerRanges := by
          rw [← RangeTree.toList_build 9 lowerRanges]
          exact List.mem_append_left _ hmem
        split at h
        · rename_i hstep
          obtain ⟨hkelvin, hk⟩ := entries _ hrange offset (by simp only; omega) hstep h
          obtain rfl : c = '\u212a' := Char.toNat_inj.1 (hn.trans hkelvin)
          rw [if_pos hstep, hk]
          decide
        · exact absurd h hascii
      · exact absurd h hascii

namespace Text

/-! ## Texts -/

/-- The text with every variant of a letter as that letter. -/
def fold (t : Text) : Text := t.map foldLetter

@[simp] theorem fold_nil : fold [] = [] := rfl

@[simp] theorem fold_cons (c : CodePoint) (t : Text) : fold (c :: t) = foldLetter c :: fold t := rfl

theorem fold_append (s t : Text) : fold (s ++ t) = fold s ++ fold t := List.map_append

theorem fold_fold (t : Text) : fold (fold t) = fold t :=
  List.map_map.trans (List.map_congr_left fun c _ => foldLetter_foldLetter c)

theorem length_fold (t : Text) : (fold t).length = t.length := List.length_map _

section Classes

variable {test : CodePoint → Bool} (h : ∀ c, test (foldLetter c) = test c)
include h

theorem head?_any_fold (t : Text) : (fold t).head?.any test = t.head?.any test := by
  cases t with
  | nil => rfl
  | cons c t => exact h c

theorem getLast?_any_fold (t : Text) : (fold t).getLast?.any test = t.getLast?.any test := by
  rw [fold, List.getLast?_map]
  cases t.getLast? with
  | none => rfl
  | some c => exact h c

/-- Folding goes through the runs of a class that does not tell variants of a letter apart. -/
theorem runs_fold (t : Text) : runs test (fold t) = (runs test t).map fold := by
  induction t with
  | nil => rfl
  | cons c t ih =>
    rw [fold_cons, runs, runs, h, head?_any_fold h, ih]
    split
    · split
      · cases runs test t <;> rfl
      · rfl
    · rfl

end Classes

theorem head?_fold (t : Text) : (fold t).head?.any isWord = t.head?.any isWord :=
  head?_any_fold isWord_foldLetter t

theorem getLast?_fold (t : Text) : (fold t).getLast?.any isWord = t.getLast?.any isWord :=
  getLast?_any_fold isWord_foldLetter t

/-- Folding goes through words. -/
theorem words_fold (t : Text) : words (fold t) = (words t).map fold :=
  runs_fold isWord_foldLetter t

/-- What is written for one character is that character folded, where it is ASCII. -/
theorem lowerLetter_eq_foldLetter {b : Bool} {c : CodePoint} {behind : Text}
    (h : ∀ d ∈ lowerLetter b c behind, d.toNat < 128) : lowerLetter b c behind = [foldLetter c] := by
  rw [lowerLetter] at h ⊢
  by_cases hsigma : c = 'Σ'
  · rw [if_pos hsigma] at h
    have hfirst := h _ List.mem_cons_self
    exact absurd hfirst (by split <;> decide)
  rw [if_neg hsigma] at h ⊢
  by_cases hdot : c = '\u0130'
  · rw [if_pos hdot] at h
    exact absurd (h '\u0307' (by simp)) (by decide)
  rw [if_neg hdot] at h ⊢
  rw [foldLetter_eq_lowerPoint hdot (h _ List.mem_cons_self)]

theorem fold_eq_lowerAfter {b : Bool} {t : Text} (h : ∀ c ∈ lowerAfter b t, c.toNat < 128) :
    fold t = lowerAfter b t := by
  induction t generalizing b with
  | nil => rfl
  | cons c t ih =>
    rw [lowerAfter_cons, List.forall_mem_append] at h
    rw [lowerAfter_cons, fold_cons, ih h.2, lowerLetter_eq_foldLetter h.1]
    rfl

/-- Where the lower case is ASCII it is the folded text. -/
theorem fold_eq_lower {t : Text} (h : ∀ c ∈ lower t, c.toNat < 128) : fold t = lower t :=
  fold_eq_lowerAfter h

end Text
end TaskDesk
