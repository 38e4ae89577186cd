import Mathlib.Data.List.Chain
import TaskDesk.Draft.Basic
import TaskDesk.Proofs.Text.Split
import TaskDesk.Proofs.Text.Words

/-!
# Tidy texts

In a tidy text the only blank is the space, spaces stand alone, and none stands at
either end. So the tokens of the text are its pieces between spaces, and joining
them gives the text again.

Results:
* `isSpaced_tidy`: tidying a text up makes it so.
* `tidy_between`: what stands around a text and is no part of a word does not matter.
* `IsSpaced.tokens_eq`: the tokens are the pieces between spaces.
* `join_tokens_tidy`: joining the tokens of a tidy text gives the text again.
-/

namespace TaskDesk
namespace Text

/-- The blanks of the text are single spaces between other characters. -/
structure IsSpaced (t : Text) : Prop where
  space : ∀ c ∈ t, isBlank c = true → c = ' '
  single : t.IsChain fun c d => isBlank c = true → isBlank d = false
  first : t.head?.any isBlank = false
  last : t.getLast?.any isBlank = false

/-! ## Tidying up -/

theorem head?_collapse_blank (t : Text) :
    (collapse t).head?.any isBlank = t.head?.any isBlank := by
  induction t with
  | nil => rfl
  | cons c t ih =>
    unfold collapse
    by_cases hc : isBlank c = true
    · have hhead : (c :: t).head?.any isBlank = true := hc
      rw [if_pos hc, hhead]
      split
      · rename_i hnext
        rw [ih, hnext]
      · show isBlank ' ' = true
        decide
    · rw [if_neg hc]
      rfl

theorem isChain_collapse (t : Text) :
    (collapse t).IsChain fun c d => isBlank c = true → isBlank d = false := by
  induction t with
  | nil => exact List.isChain_nil
  | cons c t ih =>
    unfold collapse
    by_cases hc : isBlank c = true
    · rw [if_pos hc]
      split
      · exact ih
      · rename_i hnext
        rw [← head?_collapse_blank t] at hnext
        refine List.isChain_cons.2 ⟨fun d hd _ => ?_, ih⟩
        rw [Option.mem_def] at hd
        simpa [hd] using hnext
    · rw [if_neg hc]
      exact List.isChain_cons.2 ⟨fun d _ hblank => absurd hblank hc, ih⟩

theorem head?_trimBy (test : CodePoint → Bool) (t : Text) :
    (trimBy test t).head?.any test = false := by
  have hprefix : trimBy test t <+: t.dropWhile test := by
    rw [trimBy, ← List.reverse_suffix, List.reverse_reverse]
    exact List.dropWhile_suffix test
  obtain ⟨after, hafter⟩ := hprefix
  have hhead : (trimBy test t ++ after).head?.any test = false := by
    rw [hafter]
    exact head?_dropWhile test t
  exact head?_left hhead

theorem getLast?_trimBy (test : CodePoint → Bool) (t : Text) :
    (trimBy test t).getLast?.any test = false := by
  rw [trimBy, List.getLast?_reverse]
  exact head?_dropWhile test _

theorem mem_of_mem_trimBy {test : CodePoint → Bool} {t : Text} {c : CodePoint}
    (h : c ∈ trimBy test t) : c ∈ t := by
  obtain ⟨before, after, ht, -, -⟩ := trimBy_append test t
  rw [ht]
  exact List.mem_append_left _ (List.mem_append_right _ h)

theorem isChain_trimBy {R : CodePoint → CodePoint → Prop} {t : Text} (h : t.IsChain R)
    (test : CodePoint → Bool) : (trimBy test t).IsChain R := by
  obtain ⟨before, after, ht, -, -⟩ := trimBy_append test t
  rw [ht] at h
  exact h.left_of_append.right_of_append

/-- **Tidying a text up** leaves single spaces as its only blanks. -/
theorem isSpaced_tidy (t : Text) : IsSpaced (tidy t) where
  space := fun c hc => isBlank_collapse t c (mem_of_mem_trimBy (mem_of_mem_trimBy hc))
  single := isChain_trimBy (isChain_trimBy (isChain_collapse t) _) _
  first := head?_trimBy isBlank _
  last := getLast?_trimBy isBlank _

/-! ## What stands around a text -/

theorem not_isWord_of_mem_collapse {t : Text} (h : ∀ c ∈ t, isWord c = false) :
    ∀ c ∈ collapse t, isWord c = false := by
  have hspace : isWord ' ' = false := by decide +kernel
  induction t with
  | nil => exact h
  | cons c t ih =>
    rw [List.forall_mem_cons] at h
    unfold collapse
    split
    · split
      · exact ih h.2
      · exact List.forall_mem_cons.2 ⟨hspace, ih h.2⟩
    · exact List.forall_mem_cons.2 ⟨h.1, ih h.2⟩

theorem exists_cons_collapse {t : Text} (h : t.head?.any isBlank = true) :
    ∃ rest, collapse t = CodePoint.char ' ' :: rest := by
  rw [← head?_collapse_blank] at h
  cases hcollapse : collapse t with
  | nil =>
    rw [hcollapse] at h
    cases h
  | cons c rest =>
    rw [hcollapse] at h
    rw [isBlank_collapse t c (by rw [hcollapse]; exact List.mem_cons_self) h]
    exact ⟨rest, rfl⟩

/-- Collapsing blanks leaves no word character of what stands before a text. -/
theorem dropWhile_collapse_append {before : Text} (h : ∀ c ∈ before, isWord c = false) (t : Text) :
    (collapse (before ++ t)).dropWhile (fun c => !isWord c) =
      (collapse t).dropWhile fun c => !isWord c := by
  have hspace : isWord ' ' = false := by decide +kernel
  have hdrop {c : CodePoint} (hc : isWord c = false) (u : Text) :
      (c :: u).dropWhile (fun c => !isWord c) = u.dropWhile fun c => !isWord c :=
    List.dropWhile_cons_of_pos (by rw [hc]; rfl)
  induction before with
  | nil => rfl
  | cons c before ih =>
    rw [List.forall_mem_cons] at h
    rw [List.cons_append, collapse]
    split
    · split
      · exact ih h.2
      · rw [hdrop hspace, ih h.2]
    · rw [hdrop h.1, ih h.2]

/-- What stands behind a text comes behind it again, but for a blank that is collapsed with one
    of the text. -/
theorem exists_collapse_append (t : Text) {after : Text} (h : ∀ c ∈ after, isWord c = false) :
    ∃ rest, collapse (t ++ after) = collapse t ++ rest ∧ ∀ c ∈ rest, isWord c = false := by
  have hafter := not_isWord_of_mem_collapse h
  induction t with
  | nil => exact ⟨_, rfl, hafter⟩
  | cons c t ih =>
    obtain ⟨rest, hrest, hword⟩ := ih
    rw [List.cons_append, collapse, collapse]
    by_cases hc : isBlank c = true
    · rw [if_pos hc, if_pos hc]
      cases t with
      | cons d t =>
        show ∃ _, (if (d :: t).head?.any isBlank = true then _ else _) = _ ∧ _
        split
        · exact ⟨rest, hrest, hword⟩
        · exact ⟨rest, congrArg _ hrest, hword⟩
      | nil =>
        rw [List.nil_append, if_neg (show ¬ ([] : Text).head?.any isBlank = true by simp)]
        split
        · -- The blank of the text is collapsed with the first ones behind it.
          rename_i hblank
          obtain ⟨rest, hrest⟩ := exists_cons_collapse hblank
          rw [hrest] at hafter
          exact ⟨rest, hrest, (List.forall_mem_cons.1 hafter).2⟩
        · exact ⟨collapse after, rfl, hafter⟩
    · rw [if_neg hc, if_neg hc]
      exact ⟨rest, congrArg _ hrest, hword⟩

/-- **What stands around a text** and has no word character does not matter when it is tidied
    up. -/
theorem tidy_between {before after : Text} (hbefore : ∀ c ∈ before, isWord c = false)
    (hafter : ∀ c ∈ after, isWord c = false) (t : Text) :
    tidy (before ++ t ++ after) = tidy t := by
  obtain ⟨rest, hrest, hword⟩ := exists_collapse_append (before ++ t) hafter
  have hpasses : ∀ c ∈ rest, (!isWord c) = true := fun c hc => by rw [hword c hc]; rfl
  have hback := trimBy_append_of_forall hpasses (collapse (before ++ t))
  rw [tidy, tidy, hrest, hback, trimBy, dropWhile_collapse_append hbefore, trimBy]

/-- After the first piece no piece is empty where single spaces do not end the text, and the
    first one is not empty either where no space begins it. -/
theorem ne_nil_of_mem_split {t : Text}
    (hsingle : t.IsChain fun c d => isBlank c = true → isBlank d = false)
    (hlast : t.getLast?.any isBlank = false) :
    (∀ piece ∈ (split ' ' t).tail, piece ≠ []) ∧
      (t ≠ [] → t.head?.any isBlank = false → ∀ piece ∈ split ' ' t, piece ≠ []) := by
  induction t with
  | nil => simp [split]
  | cons c t ih =>
    rw [List.isChain_cons] at hsingle
    have hend : t.getLast?.any isBlank = false := by
      cases t with
      | nil => rfl
      | cons d t => rwa [List.getLast?_cons_cons] at hlast
    obtain ⟨htail, hall⟩ := ih hsingle.2 hend
    by_cases hc : c = ' '
    · subst hc
      have hne : t ≠ [] := by
        rintro rfl
        exact absurd hlast (by decide)
      have hhead : t.head?.any isBlank = false := by
        cases hd : t.head? with
        | none => rfl
        | some d => exact hsingle.1 d hd (by decide)
      have hspace : isBlank ' ' = true := by decide
      rw [split_cons_sep]
      exact ⟨hall hne hhead, fun _ hblank => Bool.noConfusion (hspace.symm.trans hblank)⟩
    · obtain ⟨first, more, hsplit⟩ := List.exists_cons_of_ne_nil (split_ne_nil ' ' t)
      rw [split_cons_of_ne hc hsplit, List.tail_cons]
      rw [hsplit, List.tail_cons] at htail
      refine ⟨htail, fun _ _ => ?_⟩
      rw [List.forall_mem_cons]
      exact ⟨List.cons_ne_nil c first, htail⟩

namespace IsSpaced

variable {t : Text}

theorem tokens_eq (h : IsSpaced t) (hne : t ≠ []) : tokens t = split ' ' t := by
  have hpieces : ∀ piece ∈ split ' ' t, piece ≠ [] ∧ ∀ c ∈ piece, (!isBlank c) = true := by
    intro piece hpiece
    refine ⟨(ne_nil_of_mem_split h.single h.last).2 hne h.first piece hpiece, fun c hc => ?_⟩
    have hmem : c ∈ t := mem_of_mem_split hpiece hc
    by_contra hblank
    have hspace : c = ' ' := h.space c hmem (by simpa using hblank)
    exact not_mem_of_mem_split t piece hpiece (hspace ▸ hc)
  calc tokens t = tokens (join ' ' (split ' ' t)) := by rw [join_split]
    _ = (split ' ' t).flatMap tokens := runs_join (by decide) _
    _ = split ' ' t := flatMap_runs hpieces

end IsSpaced

/-- Joining the tokens of a tidy text gives the text again. -/
theorem join_tokens_tidy (t : Text) : join ' ' (tokens (tidy t)) = tidy t := by
  by_cases hne : tidy t = []
  · rw [hne]
    rfl
  · rw [(isSpaced_tidy t).tokens_eq hne, join_split]

end Text
end TaskDesk
