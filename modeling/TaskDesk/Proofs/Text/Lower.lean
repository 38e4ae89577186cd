import Mathlib.Tactic.SplitIfs
import TaskDesk.Text.Blank
import TaskDesk.Text.Case

/-!
# Lower case is final

Lower-casing looks at the letters around a capital sigma, but its outcome never
has to be lower-cased again. Every code point that it writes is settled: it is
its own lower case, and it is neither a capital sigma nor a capital I with a dot,
for which the table is not asked. Lower-casing writes no blank either, where it
has read none.

Results:
* `lowerAfter_cons`: lower-casing letter by letter.
* `lower_lower`: the lower case of a lower case is itself.
* `isEncodable_lower`: lower-casing keeps a text encodable.
* `not_isBlank_lower`: the lower case of a text without blanks has none.
-/

namespace TaskDesk

/-- Lower-casing leaves the code point alone, wherever it stands. -/
def IsSettled (c : CodePoint) : Prop := lowerPoint c = c ∧ c ≠ 'Σ' ∧ c ≠ '\u0130'

instance (c : CodePoint) : Decidable (IsSettled c) := inferInstanceAs (Decidable (_ ∧ _ ∧ _))

/-! ## The lower case of one code point -/

/-- The letters that the table of lower cases leads to are settled, and none of
    them is a blank. -/
theorem lowerRanges_settled :
    ∀ r ∈ lowerRanges, ∀ offset < r.2.1 + 1 - r.1, offset % r.2.2.1 = 0 →
      IsSettled (Char.ofNat (r.2.2.2 + offset)) ∧
        isBlank (Char.ofNat (r.2.2.2 + offset)) = false := by
  decide +kernel

/-- ASCII letters in lower case are settled, and lower-casing writes a blank only
    for itself. -/
theorem ascii_settled :
    ∀ n < 128, IsSettled (Char.ofNat n).toLower ∧
      ((Char.ofNat n).toLower = Char.ofNat n ∨ isBlank (Char.ofNat n).toLower = false) := by
  decide +kernel

theorem mem_lowerRanges_of_find? {n offset step target : Nat}
    (h : lowerTree.find? n = some (offset, step, target)) :
    ∃ r ∈ lowerRanges, offset < r.2.1 + 1 - r.1 ∧ r.2.2.1 = step ∧ r.2.2.2 = target := by
  obtain ⟨first, last, hmem, hlast, hn⟩ := RangeTree.find?_mem h
  refine ⟨(first, last, step, target), ?_, by simp only; omega, rfl, rfl⟩
  rw [← RangeTree.toList_build 9 lowerRanges]
  exact List.mem_append_left _ hmem

/-- The lower case of a character is that of an ASCII letter, or the character
    itself, or an entry of the table. -/
theorem lowerChar_cases (c : Char) :
    (c.toNat < 128 ∧ lowerChar c = c.toLower) ∨ lowerChar c = c ∨
      ∃ r ∈ lowerRanges, ∃ offset < r.2.1 + 1 - r.1, offset % r.2.2.1 = 0 ∧
        lowerChar c = Char.ofNat (r.2.2.2 + offset) := by
  unfold lowerChar
  split_ifs with hascii
  · exact Or.inl ⟨hascii, rfl⟩
  · right
    split
    · rename_i offset step target hfind
      split_ifs with hstep
      · obtain ⟨r, hr, hlt, rfl, rfl⟩ := mem_lowerRanges_of_find? hfind
        exact Or.inr ⟨r, hr, offset, hlt, hstep, rfl⟩
      · exact Or.inl rfl
    · exact Or.inl rfl

theorem isSettled_lowerPoint {c : CodePoint} (hsigma : c ≠ 'Σ') (hdot : c ≠ '\u0130') :
    IsSettled (lowerPoint c) := by
  cases c with
  | half n => exact ⟨rfl, by simp [lowerPoint], by simp [lowerPoint]⟩
  | char c =>
    rcases lowerChar_cases c with ⟨hascii, hc⟩ | hc | ⟨r, hr, offset, hlt, hstep, hc⟩
    · have h := (ascii_settled c.toNat hascii).1
      rw [Char.ofNat_toNat] at h
      rwa [lowerPoint, hc]
    · have hfix : lowerPoint (.char c) = .char c := by rw [lowerPoint, hc]
      rw [hfix]
      exact ⟨hfix, hsigma, hdot⟩
    · rw [lowerPoint, hc]
      exact (lowerRanges_settled r hr offset hlt hstep).1

theorem not_isBlank_lowerPoint {c : CodePoint} (h : isBlank c = false) :
    isBlank (lowerPoint c) = false := by
  cases c with
  | half n => exact h
  | char c =>
    rcases lowerChar_cases c with ⟨hascii, hc⟩ | hc | ⟨r, hr, offset, hlt, hstep, hc⟩
    · have hlow := (ascii_settled c.toNat hascii).2
      rw [Char.ofNat_toNat] at hlow
      rw [lowerPoint, hc]
      rcases hlow with hlow | hlow
      · rwa [hlow]
      · exact hlow
    · rwa [lowerPoint, hc]
    · rw [lowerPoint, hc]
      exact (lowerRanges_settled r hr offset hlt hstep).2

namespace Text

/-! ## Letter by letter -/

/-- Whether the last character that is not passed over has a case, after one more character. -/
def casedStep (casedBefore : Bool) (c : CodePoint) : Bool :=
  if isCaseIgnorable c then casedBefore else isCased c

/-- What lower-casing writes for one character in front of the text `behind`. -/
def lowerLetter (casedBefore : Bool) (c : CodePoint) (behind : Text) : Text :=
  if c = 'Σ' then [if casedBefore && !casedFollows behind then 'ς' else 'σ']
  else if c = '\u0130' then ['i', '\u0307']
  else [lowerPoint c]

theorem lowerAfter_cons (b : Bool) (c : CodePoint) (t : Text) :
    lowerAfter b (c :: t) = lowerLetter b c t ++ lowerAfter (casedStep b c) t := by
  rw [lowerAfter, lowerLetter]
  split
  · rfl
  · split <;> rfl

theorem mem_lowerLetter {b : Bool} {c d : CodePoint} {behind : Text}
    (h : d ∈ lowerLetter b c behind) :
    d = 'ς' ∨ d = 'σ' ∨ d = 'i' ∨ d = '\u0307' ∨ (c ≠ 'Σ' ∧ c ≠ '\u0130' ∧ d = lowerPoint c) := by
  rw [lowerLetter] at h
  split_ifs at h with hsigma hform hdot <;> simp_all

/-! ## The lower case of a text -/

/-- What lower-casing writes stems from a code point of the text: it is one of the
    two forms of the small sigma, or a part of the small i with a dot, or the lower
    case of the code point. -/
theorem mem_lowerAfter {b : Bool} {t : Text} {d : CodePoint} (h : d ∈ lowerAfter b t) :
    d = 'ς' ∨ d = 'σ' ∨ d = 'i' ∨ d = '\u0307' ∨
      ∃ c ∈ t, c ≠ 'Σ' ∧ c ≠ '\u0130' ∧ d = lowerPoint c := by
  induction t generalizing b with
  | nil => cases h
  | cons c t ih =>
    rw [lowerAfter_cons, List.mem_append] at h
    rcases h with h | h
    · have := mem_lowerLetter h
      grind
    · have := ih h
      grind

theorem isSettled_of_mem_lower {t : Text} {d : CodePoint} (h : d ∈ lower t) : IsSettled d := by
  rcases mem_lowerAfter h with rfl | rfl | rfl | rfl | ⟨c, -, hsigma, hdot, rfl⟩
  · decide +kernel
  · decide +kernel
  · decide +kernel
  · decide +kernel
  · exact isSettled_lowerPoint hsigma hdot

theorem lowerAfter_of_isSettled {t : Text} (h : ∀ c ∈ t, IsSettled c) (b : Bool) :
    lowerAfter b t = t := by
  induction t generalizing b with
  | nil => rfl
  | cons c t ih =>
    obtain ⟨hfix, hsigma, hdot⟩ := h c (by simp)
    simp only [lowerAfter, if_neg hsigma, if_neg hdot, hfix]
    rw [ih fun d hd => h d (by simp [hd])]

/-- **The lower case of a lower case is itself.** -/
theorem lower_lower (t : Text) : lower (lower t) = lower t :=
  lowerAfter_of_isSettled (fun _ hd => isSettled_of_mem_lower hd) false

/-- Lower-casing writes no blank where it has read none. -/
theorem not_isBlank_lower {t : Text} (h : ∀ c ∈ t, isBlank c = false) :
    ∀ d ∈ lower t, isBlank d = false := by
  intro d hd
  rcases mem_lowerAfter hd with rfl | rfl | rfl | rfl | ⟨c, hc, -, -, rfl⟩
  · decide
  · decide
  · decide
  · decide
  · exact not_isBlank_lowerPoint (h c hc)

/-- Lower-casing writes characters where it has read characters. -/
theorem isEncodable_lower {t : Text} (h : t.isEncodable = true) : (lower t).isEncodable = true := by
  refine List.all_eq_true.2 fun d hd => ?_
  rcases mem_lowerAfter hd with rfl | rfl | rfl | rfl | ⟨c, hc, -, -, rfl⟩
  · rfl
  · rfl
  · rfl
  · rfl
  · cases c with
    | char c => rfl
    | half n => exact List.all_eq_true.1 h _ hc

end Text
end TaskDesk
