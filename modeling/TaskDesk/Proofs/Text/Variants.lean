import TaskDesk.Proofs.Text.Fold

/-!
# Lower case and variants of letters

Four letters from outside ASCII are variants of ASCII letters. Folding makes them ASCII, as
lower-casing does with everything else that folds to ASCII. The lower case of the two variants
of i is not ASCII.

Results:
* `lower_eq_fold`: where no variant is in a text that folds to ASCII, lower-casing folds it.
* `exists_mem_lower_of_foreign`: a variant of i leaves its mark on the lower case.
-/

namespace TaskDesk

/-- But for the foreign variants of letters, what folds to ASCII is ASCII, and folding it is
    lower-casing it. -/
theorem lowerPoint_eq_foldLetter {c : CodePoint} (hforeign : c ∉ foreignVariants)
    (h : (foldLetter c).toNat < 128) : c.toNat < 128 ∧ lowerPoint c = foldLetter c := by
  cases c with
  | half n => exact ⟨h, rfl⟩
  | char c =>
    have hascii : c.toNat < 128 := by
      rcases foldLetter_cases c with hascii | hvariant | hfix
      · exact hascii
      · exact absurd hvariant hforeign
      · rwa [hfix] at h
    refine ⟨hascii, ?_⟩
    rw [foldLetter_ascii c hascii, lowerPoint, lowerChar, if_pos hascii]

namespace Text

/-- Where no foreign variant is in the text and the folded text is ASCII, it is the lower
    case. -/
theorem lower_eq_fold {t : Text} (hforeign : ∀ c ∈ t, c ∉ foreignVariants)
    (h : ∀ c ∈ fold t, c.toNat < 128) : lower t = fold t := by
  suffices hafter : ∀ b, lowerAfter b t = fold t from hafter false
  induction t with
  | nil => exact fun _ => rfl
  | cons c t ih =>
    intro b
    rw [fold, List.map_cons, List.forall_mem_cons] at h
    rw [List.forall_mem_cons] at hforeign
    obtain ⟨hascii, hlower⟩ := lowerPoint_eq_foldLetter hforeign.1 h.1
    have hne : ∀ d : CodePoint, 128 ≤ d.toNat → c ≠ d := by
      rintro d hd rfl
      omega
    rw [lowerAfter]
    rw [if_neg (hne 'Σ' (by decide)), if_neg (hne '\u0130' (by decide)), hlower,
      ih hforeign.2 h.2]
    rfl

/-- A text with a variant of the letter i from outside ASCII has a lower case that is not
    ASCII. -/
theorem exists_mem_lower_of_foreign {t : Text} {c : CodePoint} (hc : c ∈ t)
    (hforeign : c = '\u0130' ∨ c = '\u0131') : ∃ d ∈ lower t, 128 ≤ d.toNat := by
  suffices hafter : ∀ b, ∃ d ∈ lowerAfter b t, 128 ≤ d.toNat from hafter false
  induction t with
  | nil => cases hc
  | cons e t ih =>
    intro b
    rw [lowerAfter_cons]
    rcases List.mem_cons.1 hc with rfl | hc
    · rcases hforeign with rfl | rfl
      · exact ⟨'\u0307', List.mem_append_left _ (by simp [lowerLetter]), by decide⟩
      · exact ⟨lowerPoint '\u0131', List.mem_append_left _ (by simp [lowerLetter]), by decide +kernel⟩
    · obtain ⟨d, hd, hlarge⟩ := ih hc (casedStep b e)
      exact ⟨d, List.mem_append_right _ hd, hlarge⟩

end Text
end TaskDesk
