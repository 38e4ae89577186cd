import TaskDesk.Proofs.Text.Words

/-!
# Cutting whole words

A phrase is cut out of a text without harm to the words around it if each of its
pieces begins with a word character, does not stand right behind another one, and
does not end in the middle of a word. Then the words of the text are those before
the piece, those of the piece, of which there is at least one, and those after
it, and cutting the piece brings no two words together. What follows the piece may
well be a word, namely where the piece ends with a blank.

Results:
* `begins_letters`, `begins_many`: phrases that begin with a word.
* `cutsWords_whole`: such a phrase cuts whole words between two edges.
* `words_of_find?`: the words of a text around an occurrence that is cut out.
-/

namespace TaskDesk
namespace Phrase

/-! ## Ends of compound phrases -/

theorem mem_ends_seq {first second : Phrase} {p q : Place} :
    q ∈ (seq first second).ends p ↔ ∃ r ∈ first.ends p, q ∈ second.ends r := by
  simp [ends, List.mem_flatMap]

theorem mem_ends_either {first second : Phrase} {p q : Place} :
    q ∈ (either first second).ends p ↔ q ∈ first.ends p ∨ q ∈ second.ends p := by
  simp [ends]

theorem mem_ends_here {test : Option CodePoint → Option CodePoint → Bool} {p q : Place} :
    q ∈ (here test).ends p ↔ q = p ∧ test p.before.head? p.after.head? = true := by
  unfold ends
  split <;> simp_all

theorem mem_ends_one {test : CodePoint → Bool} {p q : Place} :
    q ∈ (one test).ends p ↔
      ∃ c, test c = true ∧ p.after = c :: q.after ∧ q.before = c :: p.before := by
  obtain ⟨before, after⟩ := p
  obtain ⟨before', after'⟩ := q
  cases after with
  | nil => simp [ends]
  | cons c rest =>
    simp only [ends, List.cons.injEq]
    constructor
    · intro hq
      split at hq
      · rename_i htest
        cases List.mem_singleton.1 hq
        exact ⟨c, htest, ⟨rfl, rfl⟩, rfl⟩
      · cases hq
    · rintro ⟨_, htest, ⟨rfl, rfl⟩, rfl⟩
      rw [if_pos htest]
      exact List.mem_singleton.2 rfl

/-! ## Phrases that begin with a word -/

/-- Every piece of the phrase begins with a word character. -/
def BeginsWord (phrase : Phrase) : Prop :=
  ∀ p q, q ∈ phrase.ends p → ∃ c piece, isWord c = true ∧ p.after = c :: piece ++ q.after

theorem begins_one {test : CodePoint → Bool} (h : ∀ c, test c = true → isWord c = true) :
    BeginsWord (one test) := by
  intro p q hq
  obtain ⟨c, hc, hafter, -⟩ := mem_ends_one.1 hq
  exact ⟨c, [], h c hc, hafter⟩

theorem begins_seq {first : Phrase} (h : BeginsWord first) (second : Phrase) :
    BeginsWord (seq first second) := by
  intro p q hq
  obtain ⟨r, hr, hq⟩ := mem_ends_seq.1 hq
  obtain ⟨c, piece, hc, hp⟩ := h p r hr
  obtain ⟨more, hmore, -⟩ := reaches_of_mem_ends second hq
  exact ⟨c, piece ++ more, hc, by simp [hp, hmore]⟩

theorem begins_either {first second : Phrase} (h₁ : BeginsWord first) (h₂ : BeginsWord second) :
    BeginsWord (either first second) := by
  intro p q hq
  rcases mem_ends_either.1 hq with hq | hq
  · exact h₁ p q hq
  · exact h₂ p q hq

/-- What may be missing does not matter, if what follows begins with a word too. -/
theorem begins_maybe_seq {first second : Phrase} (h₁ : BeginsWord first)
    (h₂ : BeginsWord second) : BeginsWord (seq (maybe first) second) := by
  intro p q hq
  obtain ⟨r, hr, hq⟩ := mem_ends_seq.1 hq
  rcases mem_ends_either.1 hr with hr | hr
  · exact begins_seq h₁ second p q (mem_ends_seq.2 ⟨r, hr, hq⟩)
  · rw [ends, List.mem_singleton] at hr
    exact h₂ p q (hr ▸ hq)

theorem begins_oneOf {phrases : List Phrase} (h : ∀ phrase ∈ phrases, BeginsWord phrase) :
    BeginsWord (oneOf phrases) := by
  induction phrases with
  | nil =>
    intro p q hq
    obtain ⟨-, hfalse⟩ := mem_ends_here.1 hq
    cases hfalse
  | cons phrase more ih =>
    cases more with
    | nil => exact h phrase (by simp)
    | cons next more =>
      exact begins_either (h phrase (by simp)) (ih fun other hother => h other (by simp [hother]))

/-- Whether a text begins with an ASCII letter. -/
def startsWithLetter : Text → Bool
  | .char c :: _ => c.isAlpha
  | _ => false

theorem begins_letters {t : Text} (h : startsWithLetter t = true) : BeginsWord (letters t) := by
  cases t with
  | nil => cases h
  | cons c rest =>
    cases c with
    | half n => cases h
    | char c =>
      apply begins_seq
      exact begins_one fun d hd => isWord_of_foldLetter h (by simpa using hd)

theorem begins_many {test : CodePoint → Bool} {least : Nat} {most : Option Nat}
    (h : ∀ c, test c = true → isWord c = true) :
    BeginsWord (many test (least + 1) most) := by
  intro p q hq
  obtain ⟨before, after⟩ := p
  cases after with
  | nil => simp [ends, runEnds] at hq
  | cons c rest =>
    simp only [ends, runEnds] at hq
    split at hq
    · rename_i hc
      obtain ⟨piece, hrest, -⟩ :=
        reaches_of_mem_runEnds test (by simp) (Reaches.refl ⟨c :: before, rest⟩) hq
      exact ⟨c, piece, h c hc.2, congrArg (c :: ·) hrest⟩
    · simp at hq

/-! ## Phrases that cut whole words -/

/-- Every piece of the phrase begins with a word character, not right behind
    another one, and does not end between two of them. -/
def CutsWords (phrase : Phrase) : Prop :=
  ∀ p q, q ∈ phrase.ends p →
    p.before.head?.any isWord = false ∧
    (∃ c piece, isWord c = true ∧ p.after = c :: piece ++ q.after) ∧
    (q.before.head?.any isWord = true → q.after.head?.any isWord = false)

theorem cutsWords_whole {phrase : Phrase} (h : BeginsWord phrase) : CutsWords (whole phrase) := by
  intro p q hq
  obtain ⟨r, hr, hrest⟩ := mem_ends_seq.1 hq
  obtain ⟨s, hs, hlast⟩ := mem_ends_seq.1 hrest
  obtain ⟨rfl, hstart⟩ := mem_ends_here.1 hr
  obtain ⟨rfl, hend⟩ := mem_ends_here.1 hlast
  obtain ⟨c, piece, hc, hafter⟩ := h _ _ hs
  refine ⟨?_, ⟨c, piece, hc, hafter⟩, ?_⟩
  · rw [hafter] at hstart
    simpa [hc] using hstart
  · intro hbefore
    rw [hbefore] at hend
    simpa using hend

/-! ## Occurrences -/

/-- An occurrence lies between a place of the text and the preferred end of the phrase
    there. -/
theorem head?_ends_of_findFrom {phrase : Phrase} {before after : Text} {o : Occurrence}
    (h : phrase.findFrom before after = some o) :
    (phrase.ends ⟨o.before.reverse, o.piece ++ o.after⟩).head? =
      some ⟨o.piece.reverse ++ o.before.reverse, o.after⟩ := by
  have at_place : ∀ {p q}, (phrase.ends p).head? = some q → o = between p q →
      (phrase.ends ⟨o.before.reverse, o.piece ++ o.after⟩).head? =
        some ⟨o.piece.reverse ++ o.before.reverse, o.after⟩ := by
    rintro ⟨before, after⟩ q hq rfl
    obtain ⟨piece, rfl, hreversed⟩ := reaches_of_mem_ends phrase (List.mem_of_head? hq)
    have hpiece : (between ⟨before, piece ++ q.after⟩ q).piece = piece := by
      rw [between, List.length_append, Nat.add_sub_cancel, List.take_left]
    rw [hpiece]
    simp only [between, List.reverse_reverse]
    rw [hq, ← hreversed]
  induction after generalizing before with
  | nil =>
    obtain ⟨q, hq, rfl⟩ := Option.map_eq_some_iff.1 h
    exact at_place hq rfl
  | cons c rest ih =>
    unfold findFrom at h
    split at h
    · rename_i q hq
      cases h
      exact at_place hq rfl
    · exact ih h

/-- Where nothing is found, the phrase has no ends anywhere. -/
theorem ends_eq_nil_of_findFrom {phrase : Phrase} {before passed after : Text}
    (h : phrase.findFrom before (passed ++ after) = none) :
    phrase.ends ⟨passed.reverse ++ before, after⟩ = [] := by
  induction passed generalizing before with
  | nil =>
    cases after with
    | nil => exact List.head?_eq_none_iff.1 (Option.map_eq_none_iff.1 h)
    | cons c rest =>
      rw [List.nil_append, findFrom] at h
      split at h
      · cases h
      · rename_i hq
        exact List.head?_eq_none_iff.1 hq
  | cons c passed ih =>
    rw [List.cons_append, findFrom] at h
    split at h
    · cases h
    · rw [List.reverse_cons, List.append_assoc]
      exact ih h

/-- **The words around an occurrence.** Cutting a phrase that cuts whole words takes
    out its own words, at least one, and leaves the others as they are. -/
theorem words_of_find? {phrase : Phrase} (hcuts : CutsWords phrase) {t : Text} {o : Occurrence}
    (h : phrase.find? t = some o) :
    Text.words o.piece ≠ [] ∧
    Text.words t = Text.words o.before ++ Text.words o.piece ++ Text.words o.after ∧
    Text.words o.residual = Text.words o.before ++ Text.words o.after := by
  have ht := find?_append h
  obtain ⟨hbefore, ⟨c, piece, hc, hafter⟩, hend⟩ :=
    hcuts _ _ (List.mem_of_head? (head?_ends_of_findFrom h))
  have hpiece : o.piece = c :: piece := List.append_cancel_right hafter
  have hlast : (c :: piece).getLast? = (o.piece.reverse ++ o.before.reverse).head? := by
    rw [hpiece, List.head?_append, List.head?_reverse, List.getLast?_cons]
    rfl
  have hfront : ∀ rest, Text.Apart isWord o.before rest := fun rest =>
    Text.apart_of_last (by simpa using hbefore)
  have hback : Text.Apart isWord (c :: piece) o.after := by
    intro hword
    exact hend (hlast ▸ hword)
  rw [hpiece] at ht ⊢
  refine ⟨Text.runs_cons_ne_nil hc piece, ?_, ?_⟩
  · rw [← ht, List.append_assoc, List.append_assoc, Text.words, Text.runs_append (hfront _),
      Text.runs_append hback]
    rfl
  · rw [Occurrence.residual, Text.words_trim, Text.words, Text.runs_append (hfront _)]
    rfl

end Phrase
end TaskDesk
