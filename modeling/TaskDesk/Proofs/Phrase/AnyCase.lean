import TaskDesk.Proofs.Text.FoldParts

/-!
# Phrases in folded texts

A phrase asks a text for letters in any case and for classes of characters that do not tell
variants of a letter apart. So it is found in a folded text where it is found in the text: the
first occurrence there is the folded first occurrence.

Results:
* `ends_fold`: the ends of a piece in a folded text.
* `find?_fold`: the first occurrence in a folded text.
* `ignoresCase_letters`, `ignoresCase_inOrder`, `ignoresCase_oneOf`, `ignoresCase_whole`: which
  phrases do not tell variants apart.
-/

namespace TaskDesk

open Text (fold)

/-- The place in the folded text. -/
def Place.fold (p : Place) : Place := ⟨Text.fold p.before, Text.fold p.after⟩

namespace Phrase

/-- The occurrence in the folded text. -/
def Occurrence.fold (o : Occurrence) : Occurrence :=
  ⟨Text.fold o.before, Text.fold o.piece, Text.fold o.after⟩

theorem Occurrence.residual_fold (o : Occurrence) : o.fold.residual = Text.fold o.residual := by
  rw [residual, Occurrence.fold, ← Text.fold_append, Text.trim_fold]
  rfl

/-- No part of the phrase tells variants of a letter apart. -/
def IgnoresCase : Phrase → Prop
  | nothing => True
  | here test => ∀ before after, test (before.map foldLetter) (after.map foldLetter) =
      test before after
  | one test => ∀ c, test (foldLetter c) = test c
  | many test _ _ => ∀ c, test (foldLetter c) = test c
  | seq first second => IgnoresCase first ∧ IgnoresCase second
  | either first second => IgnoresCase first ∧ IgnoresCase second

/-! ## Where a phrase is found -/

theorem runEnds_fold {test : CodePoint → Bool} (h : ∀ c, test (foldLetter c) = test c)
    (after : Text) : ∀ (least : Nat) (most : Option Nat) (found : List Place) (before : Text),
      runEnds test least most (found.map Place.fold) (fold before) (fold after) =
        (runEnds test least most found before after).map Place.fold := by
  induction after with
  | nil =>
    intro least most found before
    rw [Text.fold_nil, runEnds, runEnds]
    split <;> rfl
  | cons c rest ih =>
    intro least most found before
    -- the run may end here, and what is found so far is folded then as well
    have hfound : (if least = 0 then (⟨fold before, foldLetter c :: fold rest⟩ : Place) ::
          found.map Place.fold else found.map Place.fold) =
        (if least = 0 then ⟨before, c :: rest⟩ :: found else found).map Place.fold := by
      split <;> rfl
    have hnext (found : List Place) :=
      ih (least - 1) (most.map (· - 1)) found (c :: before)
    simp only [Text.fold_cons] at hnext
    simp only [Text.fold_cons, runEnds, h, hfound, hnext]
    split <;> rfl

/-- **The ends of a piece** in the folded text. -/
theorem ends_fold {phrase : Phrase} (h : phrase.IgnoresCase) (p : Place) :
    phrase.ends p.fold = (phrase.ends p).map Place.fold := by
  induction phrase generalizing p with
  | nothing => rfl
  | here test =>
    have htest : test p.fold.before.head? p.fold.after.head? =
        test p.before.head? p.after.head? := by
      simp only [Place.fold, fold, List.head?_map]
      exact h _ _
    rw [ends, ends, htest]
    split <;> rfl
  | one test =>
    obtain ⟨before, after⟩ := p
    cases after with
    | nil => rfl
    | cons c rest =>
      simp only [ends, Place.fold, fold, List.map_cons, h c]
      split <;> rfl
  | many test least most => exact runEnds_fold h p.after least most [] p.before
  | seq first second ih₁ ih₂ =>
    simp only [ends, ih₁ h.1, List.flatMap_map, List.map_flatMap, ih₂ h.2]
  | either first second ih₁ ih₂ => simp only [ends, ih₁ h.1, ih₂ h.2, List.map_append]

theorem between_fold (p q : Place) : between p.fold q.fold = (between p q).fold := by
  simp only [between, Occurrence.fold, Place.fold, fold, List.map_reverse, List.map_take,
    List.length_map]

theorem findFrom_fold {phrase : Phrase} (h : phrase.IgnoresCase) (before after : Text) :
    phrase.findFrom (fold before) (fold after) =
      (phrase.findFrom before after).map Occurrence.fold := by
  induction after generalizing before with
  | nil =>
    have hends := ends_fold h ⟨before, []⟩
    rw [Place.fold, Text.fold_nil] at hends
    rw [Text.fold_nil, findFrom, findFrom, hends, List.head?_map]
    cases (phrase.ends ⟨before, []⟩).head? with
    | none => rfl
    | some q => exact congrArg some (between_fold ⟨before, []⟩ q)
  | cons c rest ih =>
    have hends := ends_fold h ⟨before, c :: rest⟩
    simp only [Place.fold, Text.fold_cons] at hends
    simp only [Text.fold_cons, findFrom, hends, List.head?_map]
    cases (phrase.ends ⟨before, c :: rest⟩).head? with
    | none => exact ih (c :: before)
    | some q => exact congrArg some (between_fold ⟨before, c :: rest⟩ q)

/-- **The first occurrence** in the folded text. -/
theorem find?_fold {phrase : Phrase} (h : phrase.IgnoresCase) (t : Text) :
    phrase.find? (fold t) = (phrase.find? t).map Occurrence.fold := findFrom_fold h [] t

/-- What is found in an ASCII text is ASCII, and so is what is left. -/
theorem isAscii_of_find? {phrase : Phrase} {t : Text} (h : Text.IsAscii t) {o : Occurrence}
    (ho : phrase.find? t = some o) : Text.IsAscii o.piece ∧ Text.IsAscii o.residual := by
  rw [← find?_append ho, Text.IsAscii.append_iff, Text.IsAscii.append_iff] at h
  obtain ⟨⟨hbefore, hpiece⟩, hafter⟩ := h
  exact ⟨hpiece, (Text.IsAscii.append_iff.2 ⟨hbefore, hafter⟩).trim⟩

/-! ## Phrases that do not tell variants apart -/

@[simp] theorem ignoresCase_seq {first second : Phrase} :
    IgnoresCase (seq first second) ↔ first.IgnoresCase ∧ second.IgnoresCase := .rfl

@[simp] theorem ignoresCase_either {first second : Phrase} :
    IgnoresCase (either first second) ↔ first.IgnoresCase ∧ second.IgnoresCase := .rfl

@[simp] theorem ignoresCase_maybe {phrase : Phrase} :
    IgnoresCase (maybe phrase) ↔ phrase.IgnoresCase := and_iff_left trivial

@[simp] theorem ignoresCase_letters (t : Text) : IgnoresCase (letters t) := by
  induction t with
  | nil => exact trivial
  | cons c rest ih => exact ⟨fun d => congrArg (· == c) (foldLetter_foldLetter d), ih⟩

@[simp] theorem ignoresCase_blankRun (least : Nat) (most : Option Nat) :
    IgnoresCase (many isBlank least most) := isBlank_foldLetter

@[simp] theorem ignoresCase_blanks : IgnoresCase blanks := ignoresCase_blankRun 1 none

@[simp] theorem ignoresCase_digits (least : Nat) (most : Option Nat) :
    IgnoresCase (many isDigit least most) := isDigit_foldLetter

@[simp] theorem ignoresCase_edge : IgnoresCase edge := fun before after => by
  simp only [Option.any_map, isWord_foldLetter]

theorem ignoresCase_mark {mark : CodePoint} (hmark : mark ∈ separatingMarks) :
    IgnoresCase (one (· == mark)) := foldLetter_beq_mark hmark

theorem ignoresCase_inOrder {phrases : List Phrase} (h : ∀ phrase ∈ phrases, phrase.IgnoresCase) :
    IgnoresCase (inOrder phrases) := by
  induction phrases with
  | nil => exact trivial
  | cons phrase more ih =>
    obtain ⟨hphrase, hmore⟩ := List.forall_mem_cons.1 h
    cases more with
    | nil => exact hphrase
    | cons next more => exact ⟨hphrase, ih hmore⟩

theorem ignoresCase_oneOf {phrases : List Phrase} (h : ∀ phrase ∈ phrases, phrase.IgnoresCase) :
    IgnoresCase (oneOf phrases) := by
  induction phrases with
  | nil => exact fun _ _ => rfl
  | cons phrase more ih =>
    obtain ⟨hphrase, hmore⟩ := List.forall_mem_cons.1 h
    cases more with
    | nil => exact hphrase
    | cons next more => exact ⟨hphrase, ih hmore⟩

@[simp] theorem ignoresCase_whole {phrase : Phrase} :
    IgnoresCase (whole phrase) ↔ phrase.IgnoresCase :=
  ⟨fun h => h.2.1, fun h => ⟨ignoresCase_edge, h, ignoresCase_edge⟩⟩

@[simp] theorem ignoresCase_keyword (t : Text) : IgnoresCase (keyword t) := by
  simp [keyword]

end Phrase
end TaskDesk
