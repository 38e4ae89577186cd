import TaskDesk.Draft.Basic
import TaskDesk.Proofs.Text.Tidy
import TaskDesk.Proofs.Text.Variants

/-!
# Parts of folded texts

A text is cut where its characters pass tests, and the tests do not tell variants of a letter
apart. So folding goes through everything that cuts a text, and the numbers in it stay what
they are. On ASCII texts folding is lower-casing, and cutting leaves ASCII texts.

Results:
* `trim_fold`, `collapse_fold`, `tidy_fold`, `tokens_fold`, `split_fold`: parts of folded texts.
* `number_fold`, `fold_of_isDigit`: numbers in folded texts.
* `IsAscii.lower_eq_fold`, `IsAscii.lower_fold`: the lower case of ASCII texts.
-/

namespace TaskDesk
namespace Text

/-! ## Cutting -/

section Classes

variable {test : CodePoint → Bool} (h : ∀ c, test (foldLetter c) = test c)
include h

theorem forall_mem_fold {b : Bool} {t : Text} :
    (∀ c ∈ fold t, test c = b) ↔ ∀ c ∈ t, test c = b := by
  simp only [fold, List.forall_mem_map, h]

theorem dropWhile_fold (t : Text) : (fold t).dropWhile test = fold (t.dropWhile test) := by
  rw [fold, List.dropWhile_map, funext h (f := test ∘ foldLetter)]
  rfl

theorem trimBy_fold (t : Text) : trimBy test (fold t) = fold (trimBy test t) := by
  rw [trimBy, dropWhile_fold h, fold, ← List.map_reverse, ← fold, dropWhile_fold h, fold,
    ← List.map_reverse]
  rfl

end Classes

theorem trim_fold (t : Text) : trim (fold t) = fold (trim t) := trimBy_fold isBlank_foldLetter t

theorem tokens_fold (t : Text) : tokens (fold t) = (tokens t).map fold :=
  runs_fold (fun c => congrArg not (isBlank_foldLetter c)) t

theorem collapse_fold (t : Text) : collapse (fold t) = fold (collapse t) := by
  induction t with
  | nil => rfl
  | cons c t ih =>
    rw [fold_cons, collapse, collapse, isBlank_foldLetter, head?_any_fold isBlank_foldLetter, ih]
    split
    · split <;> rfl
    · rfl

theorem tidy_fold (t : Text) : tidy (fold t) = fold (tidy t) := by
  rw [tidy, collapse_fold, trimBy_fold fun c => congrArg not (isWord_foldLetter c), trim_fold]
  rfl

theorem split_fold {sep : CodePoint} (hsep : sep ∈ separatingMarks) (t : Text) :
    split sep (fold t) = (split sep t).map fold := by
  induction t with
  | nil => rfl
  | cons c t ih =>
    simp only [fold_cons, split, foldLetter_eq_mark hsep, ih]
    split
    · rfl
    · cases split sep t <;> rfl

/-! ## Numbers -/

theorem number_fold (t : Text) : number (fold t) = number t := by
  simp only [number, fold, List.foldl_map, digitValue?_foldLetter]

theorem fold_of_isDigit {t : Text} (h : ∀ c ∈ t, isDigit c = true) : fold t = t :=
  (List.map_congr_left fun c hc => foldLetter_of_isDigit (h c hc)).trans (List.map_id t)

/-! ## Texts in ASCII -/

/-- All characters of the text are ASCII. -/
def IsAscii (t : Text) : Prop := ∀ c ∈ t, c.toNat < 128

instance (t : Text) : Decidable (IsAscii t) := inferInstanceAs (Decidable (∀ c ∈ t, _))

namespace IsAscii

variable {t : Text}

theorem of_subset {s : Text} (h : IsAscii t) (hsub : s ⊆ t) : IsAscii s := fun c hc => h c (hsub hc)

/-- Folding an ASCII text is lower-casing it. -/
theorem lower_eq_fold (h : IsAscii t) : lower t = fold t := by
  have hlower : ∀ n < 128, (foldLetter (Char.ofNat n)).toNat < 128 := by decide +kernel
  have hforeign : ∀ c ∈ foreignVariants, 128 ≤ c.toNat := by decide
  refine Text.lower_eq_fold (fun c hc hmem => ?_) fun d hd => ?_
  · exact absurd (h c hc) (Nat.not_lt.2 (hforeign c hmem))
  · obtain ⟨c, hc, rfl⟩ := List.mem_map.1 hd
    have hascii := h c hc
    cases c with
    | half n => exact hascii
    | char c =>
      have hletter := hlower c.toNat hascii
      rwa [Char.ofNat_toNat] at hletter

/-- Variants of an ASCII text have the same lower case. -/
theorem lower_fold (h : IsAscii t) : lower (fold t) = lower t := by
  rw [← h.lower_eq_fold, lower_lower]

theorem collapse (h : IsAscii t) : IsAscii (Text.collapse t) := by
  induction t with
  | nil => exact h
  | cons c t ih =>
    obtain ⟨hc, ht⟩ := List.forall_mem_cons.1 h
    unfold Text.collapse
    split
    · split
      · exact ih ht
      · exact List.forall_mem_cons.2 ⟨by decide, ih ht⟩
    · exact List.forall_mem_cons.2 ⟨hc, ih ht⟩

theorem trimBy (h : IsAscii t) (test : CodePoint → Bool) : IsAscii (Text.trimBy test t) :=
  h.of_subset fun _ => mem_of_mem_trimBy

theorem trim (h : IsAscii t) : IsAscii (Text.trim t) := h.trimBy _

theorem append_iff {s : Text} : IsAscii (s ++ t) ↔ IsAscii s ∧ IsAscii t := List.forall_mem_append

theorem tidy (h : IsAscii t) : IsAscii (Text.tidy t) := (h.collapse.trimBy _).trim

end IsAscii
end Text
end TaskDesk
