import TaskDesk.Proofs.Text.Tidy

/-!
# From the first word to the last

A text has one part that reaches from its first word character to its last one. Once its blanks
are collapsed, this is what tidying it up leaves. So a tidy text stays as it is, and a text
without word characters becomes empty.

Results:
* `isSpan_iff`: the part from the first to the last word character is what is left by trimming.
* `collapse_collapse`, `tidy_tidy`: doing it again changes nothing.
* `tidy_eq_nil_iff`: which texts become empty.
* `tidy_leaves_span`: what tidying up leaves, and what it keeps.
-/

namespace TaskDesk
namespace Text

variable {t part : Text}

/-! ## The part between the outer word characters -/

/-- The part of a text from its first to its last word character. It is empty where the text has
    no word character. -/
structure IsSpan (t part : Text) : Prop where
  around : ∃ before after, t = before ++ part ++ after ∧ (∀ c ∈ before, isWord c = false) ∧
    ∀ c ∈ after, isWord c = false
  first : ∀ c ∈ part.head?, isWord c = true
  last : ∀ c ∈ part.getLast?, isWord c = true

theorem any_not_isWord {o : Option CodePoint} :
    o.any (fun c => !isWord c) = false ↔ ∀ c ∈ o, isWord c = true := by
  cases o <;> simp

/-- A text has one such part, which trimming leaves. -/
theorem isSpan_iff : IsSpan t part ↔ part = trimBy (fun c => !isWord c) t := by
  constructor
  · rintro ⟨⟨before, after, rfl, hbefore, hafter⟩, hfirst, hlast⟩
    exact (trimBy_between (fun c hc => by simp [hbefore c hc]) (any_not_isWord.2 hfirst)
      (any_not_isWord.2 hlast) fun c hc => by simp [hafter c hc]).symm
  · rintro rfl
    obtain ⟨before, after, ht, hbefore, hafter⟩ := trimBy_append (fun c => !isWord c) t
    exact ⟨⟨before, after, ht, fun c hc => by simpa using hbefore c hc,
      fun c hc => by simpa using hafter c hc⟩, any_not_isWord.1 (head?_trimBy _ t),
      any_not_isWord.1 (getLast?_trimBy _ t)⟩

/-- A part that begins and ends with word characters has no blanks to be trimmed. -/
theorem IsSpan.trim_eq (h : IsSpan t part) : trim part = part := by
  have hblank {o : Option CodePoint} (ho : ∀ c ∈ o, isWord c = true) : o.any isBlank = false := by
    cases o with
    | none => rfl
    | some c => exact not_isBlank_of_isWord (ho c rfl)
  exact trimBy_eq_self (hblank h.first) (hblank h.last)

/-- Tidying up leaves the part of the collapsed text from its first to its last word character. -/
theorem isSpan_tidy (t : Text) : IsSpan (collapse t) (tidy t) := by
  have hspan : IsSpan (collapse t) (trimBy (fun c => !isWord c) (collapse t)) := isSpan_iff.2 rfl
  rwa [tidy, hspan.trim_eq]

/-! ## Doing it again -/

/-- Where spaces stand alone and are the only blanks, nothing is collapsed. -/
theorem collapse_of_single (hspace : ∀ c ∈ t, isBlank c = true → c = ' ')
    (hsingle : t.IsChain fun c d => isBlank c = true → isBlank d = false) : collapse t = t := by
  induction t with
  | nil => rfl
  | cons c t ih =>
    rw [List.forall_mem_cons] at hspace
    rw [List.isChain_cons] at hsingle
    rw [collapse, ih hspace.2 hsingle.2]
    split
    · rename_i hc
      have hnext : ¬ t.head?.any isBlank = true := by
        cases hd : t.head? with
        | none => simp
        | some d => simp [hsingle.1 d hd hc]
      rw [if_neg hnext, hspace.1 hc]
    · rfl

theorem collapse_collapse (t : Text) : collapse (collapse t) = collapse t :=
  collapse_of_single (isBlank_collapse t) (isChain_collapse t)

/-- What is tidy stays as it is. -/
theorem tidy_tidy (t : Text) : tidy (tidy t) = tidy t := by
  obtain ⟨before, after, hcollapse, hbefore, hafter⟩ := (isSpan_tidy t).around
  calc tidy (tidy t) = tidy (before ++ tidy t ++ after) := (tidy_between hbefore hafter _).symm
    _ = tidy (collapse t) := by rw [← hcollapse]
    _ = tidy t := by rw [tidy, collapse_collapse, tidy]

/-! ## What is left -/

/-- Nothing is left exactly of a text without word characters. -/
theorem tidy_eq_nil_iff : tidy t = [] ↔ ∀ c ∈ t, isWord c = false := by
  constructor
  · intro hnil
    obtain ⟨before, after, hcollapse, hbefore, hafter⟩ := (isSpan_tidy t).around
    have hnone : (collapse t).filter isWord = [] := by
      rw [hcollapse, hnil, List.append_nil, List.filter_eq_nil_iff]
      exact fun c hc => by simp [(List.mem_append.1 hc).elim (hbefore c) (hafter c)]
    rw [filter_collapse (fun _ => not_isWord_of_isBlank), List.filter_eq_nil_iff] at hnone
    exact fun c hc => by simpa using hnone c hc
  · intro hnone
    have htidy := tidy_between hnone (List.forall_mem_nil fun c => isWord c = false) []
    rwa [List.append_nil, List.append_nil] at htidy

/-- **Tidying up** leaves the part of the collapsed text from its first to its last word character,
    and nothing where there is none. It keeps the words, leaves single spaces as the only blanks,
    and does not see what stands around a text, so that it changes nothing when done again. -/
theorem tidy_leaves_span (t : Text) :
    (∀ part, IsSpan (collapse t) part ↔ part = tidy t) ∧
      (tidy t = [] ↔ ∀ c ∈ t, isWord c = false) ∧
      tidy (tidy t) = tidy t ∧
      words (tidy t) = words t ∧
      IsSpaced (tidy t) ∧
      ∀ before after, (∀ c ∈ before, isWord c = false) → (∀ c ∈ after, isWord c = false) →
        tidy (before ++ t ++ after) = tidy t := by
  refine ⟨fun part => ?_, tidy_eq_nil_iff, tidy_tidy t, words_tidy t, isSpaced_tidy t,
    fun before after hbefore hafter => tidy_between hbefore hafter t⟩
  rw [isSpan_iff, ← isSpan_iff.1 (isSpan_tidy t)]

/-- A title keeps an apostrophe between its words, and loses a bracket, a line break, a wide space
    and a dash around them. -/
theorem tidy_leaves_span_errand :
    (∀ c ∈ "(\n".toText, isWord c = false) ∧ (∀ c ∈ "\u3000-".toText, isWord c = false) ∧
      tidy ("(\n".toText ++ "don't  stop!".toText ++ "\u3000-".toText) = "don't stop".toText := by
  have hbefore : ∀ c ∈ "(\n".toText, isWord c = false := by decide +kernel
  have hafter : ∀ c ∈ "\u3000-".toText, isWord c = false := by decide +kernel
  obtain ⟨-, -, -, -, -, haround⟩ := tidy_leaves_span "don't  stop!".toText
  refine ⟨hbefore, hafter, ?_⟩
  rw [haround _ _ hbefore hafter]
  decide +kernel

end Text
end TaskDesk
