import Mathlib.Data.List.TakeWhile
import TaskDesk.Proofs.Text.Lower
import TaskDesk.Proofs.Text.Words

/-!
# Capital sigmas and the texts around them

Lower-casing goes letter by letter, but for the capital sigma: its small form depends on
the nearest letters on both sides, marks and the like being passed over. So the lower case
of a text holds the lower case of each of its pieces, unless a capital sigma is the first or
the last letter of the piece and takes another form in the text. A piece with such a sigma is
hidden by one more letter at that end.

Results:
* `lowerAfter_append`: the lower case of a text that is cut in two.
* `lower_infix`: where no sigma changes its form, the lower case of a piece is found.
* `HasLooseSigma.exists_hidden`: a piece that a sigma can change is hidden somewhere.
-/

namespace TaskDesk
namespace Text

/-! ## Pieces of a text -/

/-- Whether the last character of a text that is not passed over has a case. A text of which
    everything is passed over leaves what was known before. -/
def casedAfter (casedBefore : Bool) (t : Text) : Bool := t.foldl casedStep casedBefore

/-- The lower case of a piece in front of the text `behind`. -/
def lowerPiece (behind : Text) (casedBefore : Bool) : Text → Text
  | [] => []
  | c :: rest =>
    lowerLetter casedBefore c (rest ++ behind) ++ lowerPiece behind (casedStep casedBefore c) rest

theorem lowerPiece_nil (b : Bool) (t : Text) : lowerPiece [] b t = lowerAfter b t := by
  induction t generalizing b with
  | nil => rfl
  | cons c t ih => rw [lowerPiece, lowerAfter_cons, List.append_nil, ih]

/-- **The lower case of a text that is cut in two.** -/
theorem lowerAfter_append (b : Bool) (s t : Text) :
    lowerAfter b (s ++ t) = lowerPiece t b s ++ lowerAfter (casedAfter b s) t := by
  induction s generalizing b with
  | nil => rfl
  | cons c s ih =>
    rw [List.cons_append, lowerAfter_cons, ih, lowerPiece, List.append_assoc]
    rfl

/-- Where every capital sigma of a piece has the same form in two places, the piece has the same
    lower case there. -/
theorem lowerPiece_congr {b b' : Bool} {behind behind' t : Text}
    (h : ∀ s rest, t = s ++ .char 'Σ' :: rest →
      (casedAfter b s && !casedFollows (rest ++ behind)) =
        (casedAfter b' s && !casedFollows (rest ++ behind'))) :
    lowerPiece behind b t = lowerPiece behind' b' t := by
  induction t generalizing b b' with
  | nil => rfl
  | cons c t ih =>
    have hletter : lowerLetter b c (t ++ behind) = lowerLetter b' c (t ++ behind') := by
      rw [lowerLetter, lowerLetter]
      split
      · rename_i hc
        have hform : (b && !casedFollows (t ++ behind)) = (b' && !casedFollows (t ++ behind')) :=
          h [] t (by rw [hc]; rfl)
        rw [hform]
      · rfl
    have htail : lowerPiece behind (casedStep b c) t = lowerPiece behind' (casedStep b' c) t :=
      ih fun s rest hcut => h (c :: s) rest (by rw [hcut]; rfl)
    rw [lowerPiece, lowerPiece, hletter, htail]

/-! ## What is passed over -/

/-- Everything in the text is passed over when the end of a word is looked for. -/
def IsPassedOver (t : Text) : Prop := ∀ c ∈ t, isCaseIgnorable c = true

theorem casedFollows_of_isPassedOver {s : Text} (h : IsPassedOver s) (t : Text) :
    casedFollows (s ++ t) = casedFollows t := by
  rw [casedFollows, casedFollows, List.dropWhile_append_of_pos h]

theorem not_casedFollows_of_isPassedOver {t : Text} (h : IsPassedOver t) :
    casedFollows t = false := by
  rw [← List.append_nil t]
  exact casedFollows_of_isPassedOver h []

theorem casedFollows_append {s : Text} (h : ¬ IsPassedOver s) (t : Text) :
    casedFollows (s ++ t) = casedFollows s := by
  have hrest : s.dropWhile isCaseIgnorable ≠ [] := fun hnil => h (List.dropWhile_eq_nil_iff.1 hnil)
  obtain ⟨c, rest, hdrop⟩ := List.exists_cons_of_ne_nil hrest
  rw [casedFollows, casedFollows, List.dropWhile_append, hdrop]
  rfl

theorem casedAfter_of_isPassedOver {s : Text} (h : IsPassedOver s) (b : Bool) :
    casedAfter b s = b := by
  induction s generalizing b with
  | nil => rfl
  | cons c s ih =>
    rw [IsPassedOver, List.forall_mem_cons] at h
    show casedAfter (casedStep b c) s = b
    rw [ih h.2, casedStep, if_pos h.1]

theorem casedAfter_of_not_isPassedOver {s : Text} (h : ¬ IsPassedOver s) (b b' : Bool) :
    casedAfter b s = casedAfter b' s := by
  induction s generalizing b b' with
  | nil => exact absurd (List.forall_mem_nil _) h
  | cons c s ih =>
    show casedAfter (casedStep b c) s = casedAfter (casedStep b' c) s
    by_cases hc : isCaseIgnorable c = true
    · exact ih (fun hs => h (List.forall_mem_cons.2 ⟨hc, hs⟩)) _ _
    · rw [casedStep, casedStep, if_neg hc, if_neg hc]

/-- The capital sigma is a letter with a case and not passed over. -/
theorem sigma_cased : isCaseIgnorable 'Σ' = false ∧ isCased 'Σ' = true := by decide +kernel

theorem not_mem_of_isPassedOver {s : Text} (h : IsPassedOver s) : .char 'Σ' ∉ s := by
  intro hmem
  have hsigma := h _ hmem
  rw [sigma_cased.1] at hsigma
  cases hsigma

/-- What is passed over holds no sigma and has the same lower case everywhere. -/
theorem lowerPiece_of_isPassedOver {s : Text} (h : IsPassedOver s) (b b' : Bool)
    (behind behind' : Text) : lowerPiece behind b s = lowerPiece behind' b' s :=
  lowerPiece_congr fun s' _ hcut =>
    absurd (hcut ▸ List.mem_append_right s' List.mem_cons_self) (not_mem_of_isPassedOver h)

/-! ## Sigmas that change their form -/

/-- A capital sigma of the piece takes another form between the texts `before` and `behind` than
    in the piece alone. -/
inductive ChangesSigma (before piece behind : Text) : Prop where
  /-- Its first letter is a sigma, which ends a word that begins before the piece. -/
  | first (s rest : Text) (cut : piece = s ++ .char 'Σ' :: rest) (passed : IsPassedOver s)
      (cased : casedAfter false before = true) (final : casedFollows (rest ++ behind) = false)
  /-- Its last letter is a sigma, and the word goes on behind the piece. -/
  | last (s rest : Text) (cut : piece = s ++ .char 'Σ' :: rest) (passed : IsPassedOver rest)
      (cased : casedAfter false s = true) (follows : casedFollows behind = true)

/-- The form of some capital sigma depends on what stands around the text. -/
inductive HasLooseSigma (t : Text) : Prop where
  /-- The first letter is a sigma, behind which no letter of the same word stands. -/
  | first (s rest : Text) (cut : t = s ++ .char 'Σ' :: rest) (passed : IsPassedOver s)
      (final : casedFollows rest = false)
  /-- The last letter is a sigma, before which a letter of the same word stands. -/
  | last (s rest : Text) (cut : t = s ++ .char 'Σ' :: rest) (passed : IsPassedOver rest)
      (cased : casedAfter false s = true)

theorem not_hasLooseSigma_of_not_mem {t : Text} (h : .char 'Σ' ∉ t) : ¬ HasLooseSigma t := by
  rintro (⟨s, rest, rfl⟩ | ⟨s, rest, rfl⟩) <;> simp at h

theorem ChangesSigma.hasLooseSigma {before piece behind : Text}
    (h : ChangesSigma before piece behind) : HasLooseSigma piece := by
  cases h with
  | first s rest cut passed cased final =>
    refine .first s rest cut passed ?_
    by_cases hrest : IsPassedOver rest
    · exact not_casedFollows_of_isPassedOver hrest
    · rwa [casedFollows_append hrest] at final
  | last s rest cut passed cased follows => exact .last s rest cut passed cased

/-- Where no sigma of a piece changes its form, the piece has its own lower case. -/
theorem lowerPiece_eq_lower {before piece behind : Text} (h : ¬ ChangesSigma before piece behind) :
    lowerPiece behind (casedAfter false before) piece = lower piece := by
  rw [lower, ← lowerPiece_nil]
  refine lowerPiece_congr fun s rest hcut => ?_
  rw [List.append_nil]
  by_cases hs : IsPassedOver s
  · -- No letter stands before the sigma, so in the piece alone it is no final one.
    rw [casedAfter_of_isPassedOver hs, casedAfter_of_isPassedOver hs, Bool.false_and]
    by_contra hform
    rw [Bool.not_eq_false, Bool.and_eq_true, Bool.not_eq_true'] at hform
    exact h (.first s rest hcut hs hform.1 hform.2)
  rw [casedAfter_of_not_isPassedOver hs _ false]
  by_cases hrest : IsPassedOver rest
  · rw [casedFollows_of_isPassedOver hrest, not_casedFollows_of_isPassedOver hrest]
    by_contra hform
    have hcased : casedAfter false s = true := by
      by_contra hcased
      simp [hcased] at hform
    have hfollows : casedFollows behind = true := by
      by_contra hfollows
      simp [hfollows] at hform
    exact h (.last s rest hcut hrest hcased hfollows)
  · rw [casedFollows_append hrest]

/-- **The lower case of a piece** is found in that of the text, where no sigma of the piece
    changes its form. -/
theorem lower_infix {before piece behind : Text} (h : ¬ ChangesSigma before piece behind) :
    lower piece <:+: lower (before ++ piece ++ behind) := by
  rw [← lowerPiece_eq_lower h, lower, List.append_assoc, lowerAfter_append, lowerAfter_append]
  exact ⟨_, _, List.append_assoc _ _ _⟩

/-- A blank is not passed over and has no case. -/
theorem blank_uncased {c : CodePoint} (h : isBlank c = true) :
    isCaseIgnorable c = false ∧ isCased c = false :=
  forall_of_isBlank (p := fun c => isCaseIgnorable c = false ∧ isCased c = false)
    (by decide +kernel) h

theorem casedAfter_of_blank {t : Text} (h : t.getLast?.all isBlank = true) :
    casedAfter false t = false := by
  rcases List.eq_nil_or_concat t with rfl | ⟨front, c, rfl⟩
  · rfl
  · rw [List.concat_eq_append, List.getLast?_concat] at h
    obtain ⟨hignorable, hcased⟩ := blank_uncased (show isBlank c = true from h)
    rw [casedAfter, List.concat_eq_append, List.foldl_append, List.foldl_cons, List.foldl_nil,
      casedStep, hignorable, hcased]
    rfl

theorem casedFollows_of_blank {t : Text} (h : t.head?.all isBlank = true) :
    casedFollows t = false := by
  cases t with
  | nil => rfl
  | cons c t =>
    obtain ⟨hignorable, hcased⟩ := blank_uncased (show isBlank c = true from h)
    rw [casedFollows, List.dropWhile_cons_of_neg (by simp [hignorable])]
    exact hcased

/-- Between blanks and the ends of a text no sigma changes its form. -/
theorem not_changesSigma_between_blanks {before behind : Text}
    (hbefore : before.getLast?.all isBlank = true) (hbehind : behind.head?.all isBlank = true)
    (piece : Text) : ¬ ChangesSigma before piece behind := by
  intro h
  cases h with
  | first s rest cut passed cased final =>
    rw [casedAfter_of_blank hbefore] at cased
    cases cased
  | last s rest cut passed cased follows =>
    rw [casedFollows_of_blank hbehind] at follows
    cases follows

/-! ## Sigmas that hide a piece -/

/-- The lower case of a text around one of its capital sigmas. -/
theorem lowerAfter_sigma (b : Bool) (s rest : Text) :
    lowerAfter b (s ++ .char 'Σ' :: rest) = lowerPiece ['Σ'] b s ++
      .char (if casedAfter b s && !casedFollows rest then 'ς' else 'σ') :: lowerAfter true rest := by
  have hbefore : lowerPiece (.char 'Σ' :: rest) b s = lowerPiece ['Σ'] b s := by
    refine lowerPiece_congr fun s' more _ => ?_
    by_cases hmore : IsPassedOver more
    · rw [casedFollows_of_isPassedOver hmore, casedFollows_of_isPassedOver hmore]
      rfl
    · rw [casedFollows_append hmore, casedFollows_append hmore]
  have hstep : casedStep (casedAfter b s) 'Σ' = true := by
    rw [casedStep, sigma_cased.1, sigma_cased.2]
    rfl
  rw [lowerAfter_append, lowerAfter_cons, hbefore, hstep, lowerLetter, if_pos rfl]
  split <;> rfl

/-- A letter with a case, for the end of a piece. -/
theorem lowerAfter_letter (b : Bool) (t : Text) :
    lowerAfter b (.char 'A' :: t) = .char 'a' :: lowerAfter true t := by
  have hstep : ∀ b, casedStep b 'A' = true := by decide +kernel
  rw [lowerAfter_cons, hstep]
  rfl

/-- **A loose sigma hides a piece** behind one more letter at that end. -/
theorem HasLooseSigma.exists_hidden {piece : Text} (h : HasLooseSigma piece) :
    ∃ before behind, ¬ lower piece <:+: lower (before ++ piece ++ behind) := by
  cases h with
  | first s rest cut passed final =>
    -- The sigma becomes a final one, so one sigma of the other form is missing.
    refine ⟨[.char 'A'], [], fun hfound => ?_⟩
    have halone : lower piece = lowerPiece ['Σ'] false s ++ .char 'σ' :: lowerAfter true rest := by
      rw [cut, lower, lowerAfter_sigma, casedAfter_of_isPassedOver passed]
      rfl
    have hbehind : lower ([.char 'A'] ++ piece ++ []) =
        .char 'a' :: (lowerPiece ['Σ'] false s ++ .char 'ς' :: lowerAfter true rest) := by
      have hbefore := lowerPiece_of_isPassedOver passed true false ['Σ'] ['Σ']
      rw [List.append_nil, cut, lower, List.singleton_append, lowerAfter_letter, lowerAfter_sigma,
        casedAfter_of_isPassedOver passed, final, hbefore]
      rfl
    have hcount := hfound.sublist.count_le (.char 'σ')
    rw [halone, hbehind, List.count_append, List.count_cons_self,
      List.count_cons_of_ne (by decide : CodePoint.char 'a' ≠ .char 'σ'), List.count_append,
      List.count_cons_of_ne (by decide : CodePoint.char 'ς' ≠ .char 'σ')] at hcount
    omega
  | last s rest cut passed cased =>
    -- The sigma is no final one any more, so one final sigma is missing.
    refine ⟨[], [.char 'A'], fun hfound => ?_⟩
    have halone : lower piece = lowerPiece ['Σ'] false s ++ .char 'ς' :: lowerAfter true rest := by
      rw [cut, lower, lowerAfter_sigma, cased,
        not_casedFollows_of_isPassedOver passed]
      rfl
    have hbefore : lower ([] ++ piece ++ [.char 'A']) =
        lowerPiece ['Σ'] false s ++ .char 'σ' :: (lowerAfter true rest ++ [.char 'a']) := by
      have hrest : lowerAfter true (rest ++ [.char 'A']) = lowerAfter true rest ++ [.char 'a'] := by
        have hkept := lowerPiece_of_isPassedOver passed true true [.char 'A'] []
        rw [lowerAfter_append, hkept, lowerPiece_nil, lowerAfter_letter]
        rfl
      have hfollows : casedFollows (rest ++ [.char 'A']) = true := by
        rw [casedFollows_of_isPassedOver passed]
        decide +kernel
      rw [List.nil_append, cut, lower, List.append_assoc, List.cons_append, lowerAfter_sigma, cased,
        hfollows, hrest]
      rfl
    have hcount := hfound.sublist.count_le (.char 'ς')
    rw [halone, hbefore, List.count_append, List.count_cons_self, List.count_append,
      List.count_cons_of_ne (by decide : CodePoint.char 'σ' ≠ .char 'ς'), List.count_append,
      List.count_singleton, if_neg (by decide)] at hcount
    omega

end Text
end TaskDesk
